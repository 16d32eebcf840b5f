import Smqtt.Runs.Provenance
import Smqtt.Runs.Deployment

/-!
A granted filter goes back through the sessions map and a token to the rows the
user owned when the token was issued.
-/

namespace Smqtt

open AtomicSteps

variable {A : AppState} {h pre post : Log} {w : World} {e : Step}

/-- The filter is one `verify` puts into a token for `u` over this database. -/
def Permitted (A : AppState) (db : Database) (u filter : String) : Prop :=
  filter = A.notifyTopic u ∨
    ∃ r ∈ db.relationships, r.userId = u ∧ filter ∈ Db.decodeTopics r.subscribeTopics

/-- Step `v` issued a token to the device `c` of user `u`. -/
def VerifiesFor (v : Step) (u c : String) : Prop :=
  ∃ req token, v.action = .call (.verify req) ∧
    v.response = some (.ok (.token token)) ∧ req.userId = u ∧ req.deviceId = c

theorem Issues.verifiesFor {v : Step} {token : String} {claims : Claims}
    (i : Issues A v token claims) (issued : Step.issued v = some token) :
    VerifiesFor v claims.sub claims.dev := by
  obtain ⟨req, action, -, sub, dev⟩ := i.request
  refine ⟨req, token, action, ?_, sub, dev⟩
  unfold Step.issued at issued
  split at issued
  · rename_i response
    obtain rfl := Option.some.inj issued
    exact response
  · cases issued

theorem subscribed_grants {allowed : Assumption World Action (Option (Except Error Reply))}
    (run : AtomicRun A allowed h w) (he : e ∈ h) {session : Session} {sub : Subscribe}
    (action : e.action = .call (.subscribe session sub)) :
    e.response = some (.ok (.subscribed true)) ↔
      Broker.grants e.before session.clientId sub.topicFilter := by
  rw [(step_shape run he action).1, handle_subscribe]
  rcases Broker.subscribe_cases (A := A) (w := e.before) session sub with ⟨g, run⟩ | ⟨g, run⟩
  · rw [run]
    simp [Except.map, g]
  · rw [run]
    simp [Except.map, g]

/-- What a granted filter goes back to. -/
theorem granted_permitted (run : AtomicRun A (Unforged A) (pre ++ e :: post) w)
    {session : Session} {sub : Subscribe} (action : e.action = .call (.subscribe session sub))
    (granted : e.response = some (.ok (.subscribed true))) :
    ∃ u, (∃ d ∈ e.before.db.devices, d.deviceId = session.clientId ∧ d.userId = u) ∧
      ∃ v ∈ pre, VerifiesFor v u session.clientId ∧
        Permitted A v.before.db u sub.topicFilter := by
  have he : e ∈ pre ++ e :: post := List.mem_append_right _ List.mem_cons_self
  obtain ⟨claims, entry, mem⟩ := (subscribed_grants run he action).mp granted
  have prior := run.cut.1
  obtain ⟨token, ⟨v, hv, issued, issues⟩, dev⟩ := session_issued prior entry
  refine ⟨claims.sub, ?_, v, hv, ?_, issues.mem_subTopics.mp mem⟩
  · obtain ⟨d, hd, hdev, hsub⟩ := issues.device prior hv
    exact ⟨d, hd, hdev.trans dev, hsub⟩
  · exact dev ▸ issues.verifiesFor issued

theorem refused_connect {allowed : Assumption World Action (Option (Except Error Reply))}
    (run : AtomicRun A allowed h w) (he : e ∈ h) {info : ConnectInfo}
    (action : e.action = .call (.connect info))
    (refused : ∀ token claims, ¬Broker.Admits A e.before info token claims) :
    e.response = some (.ok (.connected none)) ∧ e.after.sessions = e.before.sessions := by
  obtain ⟨response, after⟩ := step_shape run he action
  rw [response, after, handle_connect]
  rcases Broker.connect_cases (A := A) (w := e.before) info with
    ⟨token, claims, admits, -⟩ | ⟨-, v, rfl | rfl, run⟩
  · exact absurd admits (refused token claims)
  · rw [run]
    exact ⟨rfl, rfl⟩
  · rw [run]
    exact ⟨rfl, rfl⟩

/-- Subscribe soundness: every granted filter was permitted by the rows its user
owned at an earlier `verify` for that device; a client id without an entry in
the sessions map is granted nothing; and a refused connect changes no entry. -/
theorem subscribe_soundness (run : AtomicRun A (Unforged A) h w) :
    (∀ pre e post session sub, h = pre ++ e :: post →
      e.action = .call (.subscribe session sub) →
      e.response = some (.ok (.subscribed true)) →
        ∃ u, (∃ d ∈ e.before.db.devices, d.deviceId = session.clientId ∧ d.userId = u) ∧
          ∃ v ∈ pre, VerifiesFor v u session.clientId ∧
            Permitted A v.before.db u sub.topicFilter) ∧
    (∀ e ∈ h, ∀ session sub, e.action = .call (.subscribe session sub) →
      e.before.sessions session.clientId = none →
        e.response ≠ some (.ok (.subscribed true))) ∧
    (∀ e ∈ h, ∀ info, e.action = .call (.connect info) →
      (∀ token claims, ¬Broker.Admits A e.before info token claims) →
        e.response = some (.ok (.connected none)) ∧
          e.after.sessions = e.before.sessions) := by
  refine ⟨?_, ?_, ?_⟩
  · rintro pre e post session sub rfl action granted
    exact granted_permitted run action granted
  · intro e he session sub action none granted
    obtain ⟨claims, entry, -⟩ := (subscribed_grants run he action).mp granted
    rw [none] at entry
    cases entry
  · intro e he info action refused
    exact refused_connect run he action refused

section
open Deployment

private theorem login_facts :
    Honest (login ++ [subscribe 0 "1" (app.notifyTopic "0")]) ∧
    (stepAfter login (subscribe 0 "1" (app.notifyTopic "0"))).response =
      some (.ok (.subscribed true)) := by
  decide +kernel

theorem subscribe_soundness_login : ∃ u, ∃ v ∈ history login,
    VerifiesFor v u "1" ∧ Permitted app v.before.db u (app.notifyTopic "0") := by
  obtain ⟨honest, granted⟩ := login_facts
  obtain ⟨u, -, v, hv, verifies, permitted⟩ := (subscribe_soundness (run_history honest)).1 _ _
    [] _ _ (history_split login (subscribe 0 "1" (app.notifyTopic "0")) []) rfl granted
  exact ⟨u, v, hv, verifies, permitted⟩

end

end Smqtt
