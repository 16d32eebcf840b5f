import Smqtt.Runs.Provenance
import Smqtt.Runs.Deployment

/-!
What stands between a PUBLISH packet and its delivery. The token lists the topics
its device may publish on, but the hook that could compare them is not among the
registered ones, so the broker forwards whatever a live connection sends.
-/

namespace Smqtt

open AtomicSteps

variable {A : AppState} {h : Log} {w : World} {e : Step}

/-- A client with these claims may publish on the topic: its token lists it, and it
is neither another user's notification topic nor one of a relationship of others. -/
structure MayPublish (A : AppState) (w : World) (claims : Claims) (topic : String) : Prop where
  listed : topic ∈ claims.pubTopics
  unnotified : ∀ v, w.db.hasUser v = true → v ≠ claims.sub → topic ≠ A.notifyTopic v
  related : ∀ r ∈ w.db.relationships, topic ∈ r.topics →
    claims.sub = r.userId ∨ claims.sub = r.peerId

/-- The step is a PUBLISH of a live connection that authenticated with these claims. -/
def Sends (A : AppState) (e : Step) (claims : Claims) (topic : String) : Prop :=
  ∃ session, e.action = .call (.publish session topic) ∧
    ∃ x ∈ e.before.connections, session.isOf x = true ∧
      A.lib.jwtDecode A.jwtKeys.secret x.token = some claims

def Forwarded (e : Step) : Prop := e.response = some (.ok (.published true))

/-- Every message the broker forwards is one its sender may publish. -/
def Gated (A : AppState) (h : Log) : Prop :=
  ∀ e ∈ h, ∀ claims topic, Sends A e claims topic → Forwarded e →
    MayPublish A e.before claims topic

/-- Every live connection sends only what it may publish. -/
def Obedient (A : AppState) (h : Log) : Prop :=
  ∀ e ∈ h, ∀ claims topic, Sends A e claims topic → MayPublish A e.before claims topic

/-- The broker forwards every message of a live connection. -/
theorem Sends.forwarded {allowed : Assumption World Action (Option (Except Error Reply))}
    (run : AtomicRun A allowed h w) (he : e ∈ h) {claims : Claims} {topic : String}
    (sends : Sends A e claims topic) : Forwarded e := by
  obtain ⟨session, action, x, hx, own, -⟩ := sends
  have live : e.before.live session = true := List.any_eq_true.mpr ⟨x, hx, own⟩
  unfold Forwarded
  rw [(step_shape run he action).1, handle_publish, live]

/-- Publishing is gated exactly in the runs whose clients gate themselves. -/
theorem gated_iff_obedient {allowed : Assumption World Action (Option (Except Error Reply))}
    (run : AtomicRun A allowed h w) : Gated A h ↔ Obedient A h := by
  constructor
  · intro gated e he claims topic sends
    exact gated e he claims topic sends (sends.forwarded run he)
  · intro obedient e he claims topic sends _
    exact obedient e he claims topic sends

section
open Deployment

/-- A client without any topic publishes on the notification topic of user 3. -/
def inject : List Action := login ++ [register 1, publish 0 "1" (app.notifyTopic "3")]

private theorem inject_facts :
    Honest inject ∧
    app.lib.jwtDecode app.jwtKeys.secret (token "0" "1" 100 [] []) =
      some ⟨"0", "1", 105, 100, [], [app.notifyTopic "0"], app.notifyTopic "0"⟩ ∧
    (reached (login ++ [register 1])).connections = [⟨0, "1", token "0" "1" 100 [] [], []⟩] := by
  decide +kernel

theorem inject_sends :
    Sends app (stepAfter (login ++ [register 1]) (publish 0 "1" (app.notifyTopic "3")))
      ⟨"0", "1", 105, 100, [], [app.notifyTopic "0"], app.notifyTopic "0"⟩
      (app.notifyTopic "3") := by
  obtain ⟨-, decodes, live⟩ := inject_facts
  refine ⟨⟨0, "1"⟩, rfl, ⟨0, "1", token "0" "1" 100 [] [], []⟩, ?_, by decide, decodes⟩
  rw [stepAfter_before, live]
  exact List.mem_singleton_self _

theorem inject_ungated : ¬Gated app (history inject) := by
  intro gated
  have run := run_history inject_facts.1
  have mem : stepAfter (login ++ [register 1]) (publish 0 "1" (app.notifyTopic "3")) ∈
      history inject := by
    rw [inject, List.append_cons, history_split]
    exact List.mem_append_right _ List.mem_cons_self
  have listed := (gated _ mem _ _ inject_sends (inject_sends.forwarded run mem)).listed
  cases listed

theorem not_gated : ¬∀ h w, AtomicRun app (Unforged app) h w → Gated app h :=
  fun gated => inject_ungated (gated _ _ (run_history inject_facts.1))

/-- User 0 may publish on `a` and connects, -/
def permitted : List Action :=
  [register 0, register 1, challenge "0", verify "0" "1" 0 4,
    relate (token "0" "1" 100 [] []) "2" ["a"] ["b"], challenge "0", verify "0" "1" 0 6,
    connect "1" (token "0" "1" 100 ["a"] ["b"])]

/-- and does so. -/
def obey : List Action := permitted ++ [publish 0 "1" "a"]

private theorem obey_facts :
    Honest obey ∧
    (reached permitted).connections = [⟨0, "1", token "0" "1" 100 ["a"] ["b"], []⟩] ∧
    app.lib.jwtDecode app.jwtKeys.secret (token "0" "1" 100 ["a"] ["b"]) =
      some ⟨"0", "1", 105, 100, ["a"], ["b", app.notifyTopic "0"], app.notifyTopic "0"⟩ ∧
    (∀ x ∈ (reached permitted).db.users, "a" ≠ app.notifyTopic x.userId) ∧
    (reached permitted).db.relationships.map Relationship.userId = ["0"] ∧
    (stepAfter permitted (publish 0 "1" "a")).response = some (.ok (.published true)) := by
  decide +kernel

theorem obey_obedient : Obedient app (history obey) := by
  obtain ⟨-, live, decodes, users, rows, -⟩ := obey_facts
  rintro e he claims topic ⟨session, action, x, hx, -, decodes'⟩
  rw [obey, history_split] at he
  rcases List.mem_append.mp he with earlier | last
  · have mem := action ▸ machine.action_mem earlier
    simp [permitted, register, challenge, verify, relate, connect] at mem
  · obtain rfl := List.mem_singleton.mp last
    rw [stepAfter_before] at hx ⊢
    rw [live] at hx
    obtain rfl := List.mem_singleton.mp hx
    obtain rfl := Option.some.inj (decodes.symm.trans decodes')
    obtain ⟨-, rfl⟩ : _ ∧ "a" = topic := by simpa [stepAfter, publish] using action
    refine ⟨List.mem_singleton_self _, fun v known _ => ?_, fun r mem _ => Or.inl ?_⟩
    · obtain ⟨user, mem, id⟩ := List.any_eq_true.mp known
      rw [← of_decide_eq_true id]
      exact users user mem
    · have owner := List.mem_map_of_mem (f := Relationship.userId) mem
      rw [rows] at owner
      exact (List.mem_singleton.mp owner).symm

/-- The run that meets the condition is gated and forwards a message, the other is neither. -/
theorem gated_iff_obedient_inject :
    (Gated app (history obey) ∧ Obedient app (history obey) ∧
      Forwarded (stepAfter permitted (publish 0 "1" "a"))) ∧
    ¬Gated app (history inject) ∧ ¬Obedient app (history inject) :=
  ⟨⟨(gated_iff_obedient (run_history obey_facts.1)).mpr obey_obedient, obey_obedient,
      obey_facts.2.2.2.2.2⟩,
    inject_ungated, fun obedient => inject_ungated
      ((gated_iff_obedient (run_history inject_facts.1)).mpr obedient)⟩

end

end Smqtt
