import Smqtt.Runs.Atomic

/-!
Where permissions come from. Along every run in which tokens are not forged, an
entry of the sessions map and a live connection both go back to a token that
`verify` issued, and a relationship goes back to a request of its owner.
-/

namespace Smqtt

open AtomicSteps

variable {A : AppState} {h k : Log} {w v : World} {e : Step}

/-- The token was issued by a step of the history, with these claims. -/
def IssuedIn (A : AppState) (h : Log) (token : String) (claims : Claims) : Prop :=
  ∃ e ∈ h, Step.issued e = some token ∧ Issues A e token claims

theorem IssuedIn.append {token : String} {claims : Claims} (i : IssuedIn A h token claims)
    (k : Log) : IssuedIn A (h ++ k) token claims := by
  obtain ⟨e, he, issued, issues⟩ := i
  exact ⟨e, List.mem_append_left _ he, issued, issues⟩

theorem IssuedIn.decodes {token : String} {claims : Claims} (i : IssuedIn A h token claims) :
    A.lib.jwtDecode A.jwtKeys.secret token = some claims := by
  obtain ⟨e, -, -, issues⟩ := i
  exact issues.decodes

theorem IssuedIn.device {allowed : Assumption World Action (Option (Except Error Reply))}
    (run : AtomicRun A allowed h w) {token : String} {claims : Claims}
    (i : IssuedIn A h token claims) :
    ∃ d ∈ w.db.devices, d.deviceId = claims.dev ∧ d.userId = claims.sub := by
  obtain ⟨e, he, -, issues⟩ := i
  exact issues.device run he

/-- Every entry of the sessions map holds the claims of a token issued for that client id. -/
theorem session_issued (run : AtomicRun A (Unforged A) h w) {c : String} {claims : Claims}
    (entry : w.sessions c = some claims) :
    ∃ token, IssuedIn A h token claims ∧ claims.dev = c := by
  revert c claims
  refine run_induction (I := fun h w => ∀ {c : String} {claims : Claims},
    w.sessions c = some claims → ∃ token, IssuedIn A h token claims ∧ claims.dev = c) run ?_ ?_ ?_
  · intro c claims entry
    cases entry
  · intro h w x _ ih _ c claims entry
    have old : w.sessions c = some claims := by cases x <;> exact entry
    obtain ⟨token, issued, dev⟩ := ih old
    exact ⟨token, issued.append _, dev⟩
  · intro h w call run ih ok c claims entry
    have kept (old : w.sessions c = some claims) : ∃ token,
        IssuedIn A (h ++ [(server A).atomic.entry w (.call call)]) token claims ∧
          claims.dev = c := by
      obtain ⟨token, issued, dev⟩ := ih old
      exact ⟨token, issued.append _, dev⟩
    rcases handle_session (A := A) (w := w) call with
      same | ⟨info, token, granted, rfl, admits, update⟩ | ⟨session, rfl, update⟩
    · rw [same] at entry
      exact kept entry
    · rw [update] at entry
      by_cases id : c = info.clientId
      · subst id
        rw [Function.update_self] at entry
        obtain rfl := Option.some.inj entry
        have issued : IssuedIn A h token granted :=
          Unforged.issues run ok admits.presented admits.verifies
        exact ⟨token, issued.append _, admits.device.symm⟩
      · rw [Function.update_of_ne id] at entry
        exact kept entry
    · rw [update] at entry
      by_cases id : c = session.clientId
      · subst id
        rw [Function.update_self] at entry
        cases entry
      · rw [Function.update_of_ne id] at entry
        exact kept entry

/-- Every live connection was admitted with an issued token for its client id. -/
theorem connection_issued (run : AtomicRun A (Unforged A) h w) {x : Connection}
    (live : x ∈ w.connections) :
    ∃ claims, IssuedIn A h x.token claims ∧ x.clientId = claims.dev := by
  revert x
  refine run_induction (I := fun h w => ∀ {x : Connection}, x ∈ w.connections →
    ∃ claims, IssuedIn A h x.token claims ∧ x.clientId = claims.dev) run ?_ ?_ ?_
  · intro x live
    cases live
  · intro h w env _ ih _ x live
    have old : x ∈ w.connections := by cases env <;> exact live
    obtain ⟨claims, issued, dev⟩ := ih old
    exact ⟨claims, issued.append _, dev⟩
  · intro h w call run ih ok x live
    rcases handle_connection live with
      old | ⟨session, sub, y, rfl, -, old, -, rfl⟩ | ⟨info, token, claims, rfl, admits, -, rfl⟩
    · obtain ⟨claims, issued, dev⟩ := ih old
      exact ⟨claims, issued.append _, dev⟩
    · obtain ⟨claims, issued, dev⟩ := ih old
      exact ⟨claims, issued.append _, dev⟩
    · have issued : IssuedIn A h token claims :=
        Unforged.issues run ok admits.presented admits.verifies
      exact ⟨claims, issued.append _, admits.device⟩

/-- A step of the history is the request of user `u` for a relationship. -/
def Requests (A : AppState) (e : Step) (u : String) (req : Relationships.CreateRequest) : Prop :=
  ∃ authorization, e.action = .call (.createRelationship authorization req) ∧
    authUser A e.before.clock authorization = some u

/-- Every relationship stores the lists of a request of its owner. -/
theorem relationship_requested
    {allowed : Assumption World Action (Option (Except Error Reply))}
    (run : AtomicRun A allowed h w) {r : Relationship} (hr : r ∈ w.db.relationships) :
    ∃ e ∈ h, ∃ req, Requests A e r.userId req ∧ r.peerId = req.peerId ∧
      r.publishTopics = JsonStrings.encode req.publishTopics ∧
      r.subscribeTopics = JsonStrings.encode req.subscribeTopics := by
  revert r
  refine run_induction (I := fun h w => ∀ {r : Relationship}, r ∈ w.db.relationships →
    ∃ e ∈ h, ∃ req, Requests A e r.userId req ∧ r.peerId = req.peerId ∧
      r.publishTopics = JsonStrings.encode req.publishTopics ∧
      r.subscribeTopics = JsonStrings.encode req.subscribeTopics) run ?_ ?_ ?_
  · intro r hr
    cases hr
  · intro h w env _ ih _ r hr
    have old : r ∈ w.db.relationships := by cases env <;> exact hr
    obtain ⟨e, he, rest⟩ := ih old
    exact ⟨e, List.mem_append_left _ he, rest⟩
  · intro h w call _ ih _ r hr
    rcases handle_relationship hr with old | ⟨authorization, req, rfl, auth, peer, pub, sub⟩
    · obtain ⟨e, he, rest⟩ := ih old
      exact ⟨e, List.mem_append_left _ he, rest⟩
    · exact ⟨_, List.mem_append_right _ (List.mem_singleton_self _), req,
        ⟨authorization, rfl, auth⟩, peer, pub, sub⟩

theorem decodeTopics_encode (topics : List String) :
    Db.decodeTopics (JsonStrings.encode topics) = topics := by
  unfold Db.decodeTopics
  rw [JsonStrings.decode_encode]
  rfl

/-- The topics of a relationship, in either direction. -/
def Relationship.topics (r : Relationship) : List String :=
  Db.decodeTopics r.publishTopics ++ Db.decodeTopics r.subscribeTopics

/-- The topics a user may subscribe to, by the rows of a database. -/
theorem mem_topicsOf_sub {db : Database} {u t : String} :
    t ∈ (Db.topicsOf db u).2 ↔
      ∃ r ∈ db.relationships, r.userId = u ∧ t ∈ Db.decodeTopics r.subscribeTopics := by
  simp [Db.topicsOf, and_assoc]

theorem mem_topicsOf_pub {db : Database} {u t : String} :
    t ∈ (Db.topicsOf db u).1 ↔
      ∃ r ∈ db.relationships, r.userId = u ∧ t ∈ Db.decodeTopics r.publishTopics := by
  simp [Db.topicsOf, and_assoc]

theorem Issues.mem_subTopics {token : String} {claims : Claims} (i : Issues A e token claims)
    {t : String} : t ∈ claims.subTopics ↔ t = A.notifyTopic claims.sub ∨
      ∃ r ∈ e.before.db.relationships,
        r.userId = claims.sub ∧ t ∈ Db.decodeTopics r.subscribeTopics := by
  rw [i.subTopics, List.mem_append, List.mem_singleton, mem_topicsOf_sub, or_comm]

theorem Issues.mem_pubTopics {token : String} {claims : Claims} (i : Issues A e token claims)
    {t : String} : t ∈ claims.pubTopics ↔ ∃ r ∈ e.before.db.relationships,
      r.userId = claims.sub ∧ t ∈ Db.decodeTopics r.publishTopics := by
  rw [i.pubTopics, mem_topicsOf_pub]

end Smqtt
