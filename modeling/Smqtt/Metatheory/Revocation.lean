import Smqtt.Metatheory.SubscribeSoundness
import Smqtt.Metatheory.TokenCutoff

/-!
What a revocation takes away. An exchange leaves two rows, one of each party, and a
revoke deletes the one of its caller. The tokens and grants of both parties are gone
only once the mirrored row of the peer is deleted as well, since `verify` reads it;
and a token from the very second of the kick outlives the kick.
-/

namespace Smqtt

open AtomicSteps

variable {A : AppState} {h pre post : Log} {w : World} {k e : Step}
  {u p a b : String} {own mirror : Relationship}
  {allowed : Assumption World Action (Option (Except Error Reply))}

/-- The users hold the pair of rows an exchange leaves, and no other row of theirs
mentions its topics. -/
structure Mirrored (w : World) (u p a b : String) (own mirror : Relationship) : Prop where
  ownRow : own ∈ w.db.relationships ∧ own.userId = u ∧ own.peerId = p ∧
    Db.decodeTopics own.publishTopics = [a] ∧ Db.decodeTopics own.subscribeTopics = [b]
  mirrorRow : mirror ∈ w.db.relationships ∧ mirror.userId = p ∧ mirror.peerId = u ∧
    Db.decodeTopics mirror.publishTopics = [b] ∧ Db.decodeTopics mirror.subscribeTopics = [a]
  others : ∀ r ∈ w.db.relationships, r.userId = u ∨ r.userId = p → r ≠ own → r ≠ mirror →
    a ∉ r.topics ∧ b ∉ r.topics

/-- The step is a successful revoke of this row by its owner. -/
def Revokes (A : AppState) (k : Step) (own : Relationship) : Prop :=
  ∃ authorization, k.action = .call (.revokeRelationship authorization own.relationshipId) ∧
    authUser A k.before.clock authorization = some own.userId ∧
    k.response = some (.ok .revoked)

/-- Neither user asks for a new relationship with these topics. -/
def Unrenewed (A : AppState) (post : Log) (u p a b : String) : Prop :=
  ∀ e ∈ post, ∀ v req, v = u ∨ v = p → Requests A e v req →
    a ∉ req.publishTopics ++ req.subscribeTopics ∧ b ∉ req.publishTopics ++ req.subscribeTopics

/-- A SUBSCRIBE of a live connection is granted. -/
def GrantsLive (e : Step) (clientId filter : String) : Prop :=
  ∃ session sub, e.action = .call (.subscribe session sub) ∧ e.before.live session = true ∧
    session.clientId = clientId ∧ sub.topicFilter = filter ∧
    e.response = some (.ok (.subscribed true))

/-- From here on no token for either user carries one of the topics, and the peer is
granted no subscription to `a` and the owner none to `b`. -/
def TakesEffect (A : AppState) (post : Log) (u p a b : String) : Prop :=
  (∀ e ∈ post, ∀ v token claims, v = u ∨ v = p → IssuesTo e v token →
    A.lib.jwtDecode A.jwtKeys.secret token = some claims →
      a ∉ claims.pubTopics ++ claims.subTopics ∧ b ∉ claims.pubTopics ++ claims.subTopics) ∧
  ∀ e ∈ post, ∀ d ∈ e.before.db.devices,
    (d.userId = p → ¬GrantsLive e d.deviceId a) ∧ (d.userId = u → ¬GrantsLive e d.deviceId b)

/-- When a revocation takes effect: the peer's own row is gone before it verifies
again, the topics are not the notification topics of the two, no statement of the
revoke failed, and no token of its very second that lists one of the topics for its
subscriptions is accepted by the broker again. -/
structure Settled (A : AppState) (pre : Log) (k : Step) (post : Log) (u p a b : String)
    (mirror : Relationship) : Prop where
  mirrorGone : ∀ e ∈ post, ∀ token, IssuesTo e p token → mirror ∉ e.before.db.relationships
  unnotified : ∀ v, v = u ∨ v = p → a ≠ A.notifyTopic v ∧ b ≠ A.notifyTopic v
  executed : ∀ n, k.before.statements ≤ n → n < k.after.statements → A.outside.fails n = false
  aged : ∀ v ∈ pre, ∀ q token claims, q = u ∨ q = p → IssuesTo v q token →
    v.before.clock.secs = k.before.clock.secs →
      A.lib.jwtDecode A.jwtKeys.secret token = some claims →
        a ∈ claims.subTopics ∨ b ∈ claims.subTopics → ∀ e ∈ post, ¬Accepts e token

/-- The world after a successful revoke. -/
theorem Revokes.after (run : AtomicRun A allowed h w) (hk : k ∈ h) (revokes : Revokes A k own)
    (mirrored : Mirrored k.before u p a b own mirror) :
    k.after = Relationships.revoked A k.before u own.relationshipId p ∧
      Step.cutoffs A k = [(u, k.before.statements + 2), (p, k.before.statements + 4)] := by
  obtain ⟨authorization, action, auth, response⟩ := revokes
  obtain ⟨hown, rfl, rfl, -⟩ := mirrored.ownRow
  have shape := step_shape run hk action
  obtain ⟨h₁, h₂, rfl⟩ := List.append_of_mem hk
  have keys := (run_integrity run.cut.1).relationships
  rw [response, handle, reply_run] at shape
  rcases revoke_cases (A := A) (w := k.before) authorization own.relationshipId with
    ⟨v, rel, auth', row, run⟩ | ⟨err, n, run⟩
  · obtain rfl : own.userId = v := Option.some.inj (auth.symm.trans auth')
    obtain ⟨hrel, id, -⟩ := find_relationship row
    obtain rfl : rel = own := List.inj_on_of_nodup_map keys hrel hown id
    refine ⟨by rw [shape.2, run], ?_⟩
    simp only [Step.cutoffs, action]
    exact revoke_cutoffs auth row run
  · rw [run] at shape
    cases shape.1

/-- What is left of the topics after the revoke is the mirrored row. -/
theorem topics_left (run : AtomicRun A allowed (pre ++ k :: post) w) (revokes : Revokes A k own)
    (mirrored : Mirrored k.before u p a b own mirror) (unrenewed : Unrenewed A post u p a b)
    {r : Relationship} (hr : r ∈ w.db.relationships) (owner : r.userId = u ∨ r.userId = p)
    (mentions : a ∈ r.topics ∨ b ∈ r.topics) : r = mirror := by
  have whole : AtomicRun A allowed ((pre ++ [k]) ++ post) w := by
    simpa [List.append_assoc] using run
  revert unrenewed r
  refine whole.continuation (J := fun post w => Unrenewed A post u p a b →
    ∀ {r : Relationship}, r ∈ w.db.relationships → r.userId = u ∨ r.userId = p →
      a ∈ r.topics ∨ b ∈ r.topics → r = mirror) ?_ ?_
  · intro s reached _ r hr owner mentions
    have last : k ∈ pre ++ [k] := List.mem_append_right _ (List.mem_singleton_self k)
    obtain rfl : s = k.after := reached.snoc_inv.2.2.2
    rw [(revokes.after reached last mirrored).1] at hr
    simp only [Relationships.revoked, Broker.kicked_relationships, Db.withoutRelationship] at hr
    obtain ⟨hr, left⟩ := List.mem_filter.mp hr
    by_contra other
    have notOwn : r ≠ own := by
      rintro rfl
      simp [mirrored.ownRow.2.1] at left
    have free := mirrored.others r hr owner notOwn other
    exact mentions.elim free.1 free.2
  · intro post s act _ ih _ extended unrenewed r hr owner mentions
    have earlier : Unrenewed A post u p a b := fun e he => unrenewed e (List.mem_append_left _ he)
    cases act with
    | env env =>
        have old : r ∈ s.db.relationships := by cases env <;> exact hr
        exact ih earlier old owner mentions
    | call c =>
        rcases handle_relationship hr with old | ⟨authorization, req, rfl, auth, -, pub, sub⟩
        · exact ih earlier old owner mentions
        · have free := unrenewed _ (List.mem_append_right _ (List.mem_singleton_self _)) r.userId
            req owner ⟨authorization, rfl, auth⟩
          rw [Relationship.topics, pub, sub, decodeTopics_encode, decodeTopics_encode] at mentions
          exact absurd mentions (by simp [free])

/-- No token issued after the revoke carries one of the topics. -/
theorem token_free (run : AtomicRun A allowed (pre ++ k :: post) w) (revokes : Revokes A k own)
    (mirrored : Mirrored k.before u p a b own mirror) (unrenewed : Unrenewed A post u p a b)
    (settled : Settled A pre k post u p a b mirror) (he : e ∈ post) {v token : String}
    {claims : Claims} (party : v = u ∨ v = p) (issuesTo : IssuesTo e v token)
    (decodes : A.lib.jwtDecode A.jwtKeys.secret token = some claims) :
    a ∉ claims.pubTopics ++ claims.subTopics ∧ b ∉ claims.pubTopics ++ claims.subTopics := by
  obtain ⟨-, claims', issues, rfl⟩ := issuesTo.issues run
    (List.mem_append_right _ (List.mem_cons_of_mem _ he))
  obtain rfl := Option.some.inj (decodes.symm.trans issues.decodes)
  obtain ⟨k₁, k₂, rfl⟩ := List.append_of_mem he
  have reached : AtomicRun A allowed (pre ++ k :: k₁) e.before := by
    have split : AtomicRun A allowed ((pre ++ k :: k₁) ++ e :: k₂) w := by
      simpa [List.append_assoc] using run
    exact split.cut.1
  have earlier : Unrenewed A k₁ u p a b := fun e he => unrenewed e (List.mem_append_left _ he)
  -- a row of the user that still mentions a topic is the mirrored one, which is gone
  have rowFree {r : Relationship} (hr : r ∈ e.before.db.relationships)
      (owner : r.userId = claims.sub) : ¬(a ∈ r.topics ∨ b ∈ r.topics) := by
    intro mentions
    obtain rfl := topics_left reached revokes mirrored earlier hr (owner ▸ party) mentions
    have peer : claims.sub = p := owner.symm.trans mirrored.mirrorRow.2.1
    rw [peer] at issuesTo
    exact settled.mirrorGone e he token issuesTo hr
  have free {t : String} (ht : t = a ∨ t = b) : t ∉ claims.pubTopics ++ claims.subTopics := by
    intro mem
    have own := settled.unnotified claims.sub party
    rcases List.mem_append.mp mem with mem | mem
    · obtain ⟨r, hr, owner, topic⟩ := issues.mem_pubTopics.mp mem
      have listed : t ∈ r.topics := List.mem_append_left _ topic
      exact rowFree hr owner (by rcases ht with rfl | rfl <;> simp [listed])
    · rcases issues.mem_subTopics.mp mem with rfl | ⟨r, hr, owner, topic⟩
      · rcases ht with same | same
        · exact own.1 same.symm
        · exact own.2 same.symm
      · have listed : t ∈ r.topics := List.mem_append_right _ topic
        exact rowFree hr owner (by rcases ht with rfl | rfl <;> simp [listed])
  exact ⟨free (Or.inl rfl), free (Or.inr rfl)⟩

theorem Settled.earlier {k₁ k₂ : Log} (settled : Settled A pre k (k₁ ++ k₂) u p a b mirror) :
    Settled A pre k k₁ u p a b mirror where
  mirrorGone e he := settled.mirrorGone e (List.mem_append_left _ he)
  unnotified := settled.unnotified
  executed := settled.executed
  aged v hv q token claims party issuesTo time decodes lists e he :=
    settled.aged v hv q token claims party issuesTo time decodes lists e
      (List.mem_append_left _ he)

/-- No connection of the two users survives the revoke. -/
theorem none_live (run : AtomicRun A allowed (pre ++ [k]) w) (revokes : Revokes A k own)
    (mirrored : Mirrored k.before u p a b own mirror)
    (settled : Settled A pre k [] u p a b mirror) {x : Connection} (hx : x ∈ w.connections)
    {d : Device} (hd : d ∈ w.db.devices) (party : d.userId = u ∨ d.userId = p) :
    d.deviceId ≠ x.clientId := by
  have last : k ∈ pre ++ [k] := List.mem_append_right _ (List.mem_singleton_self k)
  obtain rfl : w = k.after := run.snoc_inv.2.2.2
  obtain ⟨after, cutoffs⟩ := revokes.after run last mirrored
  have count : k.after.statements = k.before.statements + 6 := by
    rw [after]
    rfl
  have devices : d ∈ k.before.db.devices := by
    rw [after] at hd
    simpa [Relationships.revoked, Db.withoutRelationship] using hd
  rcases party with owner | owner
  · exact closed_by_kick run last (u := u) (n := k.before.statements + 2) (by simp [cutoffs])
      (settled.executed _ (by omega) (by omega)) hx devices owner
  · exact closed_by_kick run last (u := p) (n := k.before.statements + 4) (by simp [cutoffs])
      (settled.executed _ (by omega) (by omega)) hx devices owner

/-- A connection of the two users that is admitted after the revoke brings claims
without the topics. -/
theorem admitted_free (run : AtomicRun A (Unforged A) (pre ++ k :: post) w)
    (revokes : Revokes A k own) (mirrored : Mirrored k.before u p a b own mirror)
    (unrenewed : Unrenewed A post u p a b) (settled : Settled A pre k post u p a b mirror)
    (he : e ∈ post) {info : ConnectInfo} {token : String} {claims : Claims}
    (action : e.action = .call (.connect info))
    (admits : Broker.Admits A e.before info token claims)
    (party : claims.sub = u ∨ claims.sub = p) :
    a ∉ claims.subTopics ∧ b ∉ claims.subTopics := by
  have mem : e ∈ pre ++ k :: post := List.mem_append_right _ (List.mem_cons_of_mem _ he)
  have accepts : Accepts e token := by
    refine ⟨info, e.before.admitted, action, admits.password, ?_⟩
    rw [(step_shape run mem action).1, handle_connect]
    rcases Broker.connect_cases (A := A) (w := e.before) info with ⟨t, cl, -, run⟩ | ⟨none, -⟩
    · rw [run]
      rfl
    · exact absurd admits (none _ _)
  obtain ⟨k₁, k₂, split⟩ := List.append_of_mem he
  have run' : AtomicRun A (Unforged A) ((pre ++ k :: k₁) ++ e :: k₂) w := by
    simpa [split, List.append_assoc] using run
  obtain ⟨prior, ok, -⟩ := run'.cut
  rw [action] at ok
  obtain ⟨v, hv, issued, issues⟩ := Unforged.issues prior ok admits.presented admits.verifies
  obtain ⟨req, vaction, -, sub, -⟩ := issues.request
  have issuesTo : IssuesTo v claims.sub token := by
    unfold Step.issued at issued
    rw [vaction] at issued
    split at issued
    · rename_i h₁ h₂
      obtain rfl := Option.some.inj issued
      exact ⟨req, vaction, sub, h₂⟩
    · cases issued
  have hk : k ∈ pre ++ k :: post := List.mem_append_right _ List.mem_cons_self
  rcases List.mem_append.mp hv with old | new
  · -- issued before the revoke: in an earlier second, so below the cutoff
    obtain ⟨x, known⟩ := issues.known run.cut.1 old
    obtain ⟨after, cutoffs⟩ := revokes.after run hk mirrored
    have count : k.after.statements = k.before.statements + 6 := by
      rw [after]
      rfl
    obtain ⟨n, kick, inside⟩ : ∃ n, (claims.sub, n) ∈ Step.cutoffs A k ∧
        k.before.statements ≤ n ∧ n < k.after.statements := by
      rw [cutoffs, count]
      rcases party with same | same
      · exact ⟨_, by rw [same]; exact List.mem_cons_self, by omega, by omega⟩
      · exact ⟨_, by rw [same]; exact List.mem_cons_of_mem _ List.mem_cons_self, by omega,
          by omega⟩
    have late := accepted_after_kick run kick (settled.executed n inside.1 inside.2) known he
      admits rfl
    rw [issues.asI64_iat] at late
    have bound := before_clock run.cut.1 old
    rw [← not_or]
    intro lists
    exact settled.aged v old _ token claims party issuesTo (by omega) issues.decodes lists e he
      accepts
  · rcases List.mem_cons.mp new with rfl | new
    · obtain ⟨authorization, kaction, -⟩ := revokes
      rw [vaction] at kaction
      cases kaction
    · have free := token_free run revokes mirrored unrenewed settled
        (split ▸ List.mem_append_left _ new) party issuesTo issues.decodes
      simp only [List.mem_append, not_or] at free
      exact ⟨free.1.2, free.2.2⟩

/-- The sessions entry behind every live connection of the two users is free of the topics. -/
def SessionsFree (w : World) (u p a b : String) : Prop :=
  ∀ x ∈ w.connections, ∀ d ∈ w.db.devices, d.deviceId = x.clientId →
    d.userId = u ∨ d.userId = p → ∀ claims, w.sessions x.clientId = some claims →
      a ∉ claims.subTopics ∧ b ∉ claims.subTopics

theorem sessions_free (run : AtomicRun A (Unforged A) (pre ++ k :: post) w)
    (revokes : Revokes A k own) (mirrored : Mirrored k.before u p a b own mirror)
    (unrenewed : Unrenewed A post u p a b) (settled : Settled A pre k post u p a b mirror) :
    SessionsFree w u p a b := by
  have whole : AtomicRun A (Unforged A) ((pre ++ [k]) ++ post) w := by
    simpa [List.append_assoc] using run
  revert unrenewed settled
  refine whole.continuation (J := fun post w => Unrenewed A post u p a b →
    Settled A pre k post u p a b mirror → SessionsFree w u p a b) ?_ ?_
  · intro s reached _ settled x hx d hd id party
    exact absurd id (none_live reached revokes mirrored settled hx hd party)
  · intro post s act prior ih ok extended unrenewed settled x hx d hd id party claims entry
    have before := ih (fun e he => unrenewed e (List.mem_append_left _ he)) settled.earlier
    cases act with
    | env env =>
        have old : x ∈ s.connections ∧ d ∈ s.db.devices ∧ s.sessions x.clientId = some claims := by
          cases env <;> exact ⟨hx, hd, entry⟩
        exact before x old.1 d old.2.1 id party claims old.2.2
    | call c =>
        -- the row of a device is as old as any token issued for it
        have known {token : String} {cl : Claims}
            (issued : IssuedIn A (pre ++ [k] ++ post) token cl)
            (dev : cl.dev = x.clientId) : d ∈ s.db.devices ∧ d.userId = cl.sub := by
          obtain ⟨d', hd', hdev, hsub⟩ := issued.device prior
          obtain rfl : d = d' := (run_integrity extended).device_eq hd
            ((handle_extends c).devices d' hd') (by rw [id, hdev, dev])
          exact ⟨hd', hsub⟩
        have fresh {info : ConnectInfo} {token : String} {cl : Claims} (hc : c = .connect info)
            (admits : Broker.Admits A s info token cl) (same : x.clientId = info.clientId) :
            a ∉ cl.subTopics ∧ b ∉ cl.subTopics := by
          subst hc
          have issued : IssuedIn A (pre ++ [k] ++ post) token cl :=
            Unforged.issues prior ok admits.presented admits.verifies
          have owner := (known issued (admits.device.symm.trans same.symm)).2
          have run' : AtomicRun A (Unforged A)
              (pre ++ k :: (post ++ [(server A).atomic.entry s (.call (.connect info))]))
              ((server A).atomic.perform (.call (.connect info)) s).2 := by
            simpa [List.append_assoc] using extended
          exact admitted_free run' revokes mirrored unrenewed settled
            (List.mem_append_right _ (List.mem_singleton_self _)) rfl admits (owner ▸ party)
        have kept {y : Connection} (hy : y ∈ s.connections) (same : y.clientId = x.clientId) :
            a ∉ claims.subTopics ∧ b ∉ claims.subTopics := by
          obtain ⟨cl, issued, dev⟩ := connection_issued prior hy
          have row := (known issued (dev.symm.trans same)).1
          have old (hs : s.sessions x.clientId = some claims) :=
            before y hy d row (id.trans same.symm) party claims (same ▸ hs)
          rcases handle_session (A := A) (w := s) c with
            unchanged | ⟨info, token, granted, hc, admits, update⟩ | ⟨session, hc, update⟩
          · exact old (unchanged ▸ entry)
          · have entry' : Function.update s.sessions info.clientId (some granted) x.clientId =
              some claims := update ▸ entry
            by_cases hid : x.clientId = info.clientId
            · rw [hid, Function.update_self] at entry'
              obtain rfl := Option.some.inj entry'
              exact fresh hc admits hid
            · rw [Function.update_of_ne hid] at entry'
              exact old entry'
          · have entry' : Function.update s.sessions session.clientId none x.clientId =
              some claims := update ▸ entry
            by_cases hid : x.clientId = session.clientId
            · rw [hid, Function.update_self] at entry'
              cases entry'
            · rw [Function.update_of_ne hid] at entry'
              exact old entry'
        rcases handle_connection hx with
          hy | ⟨session, sub, y, -, -, hy, -, rfl⟩ | ⟨info, token, cl, hc, admits, update, rfl⟩
        · exact kept hy rfl
        · exact kept hy rfl
        · have entry' : Function.update s.sessions info.clientId (some cl) info.clientId =
            some claims := update ▸ entry
          rw [Function.update_self] at entry'
          obtain rfl := Option.some.inj entry'
          exact fresh hc admits rfl

/-- A settled revocation takes effect for both parties. -/
theorem revocation_takes_effect (run : AtomicRun A (Unforged A) (pre ++ k :: post) w)
    (revokes : Revokes A k own) (mirrored : Mirrored k.before u p a b own mirror)
    (unrenewed : Unrenewed A post u p a b) (settled : Settled A pre k post u p a b mirror) :
    TakesEffect A post u p a b := by
  refine ⟨fun e he v token claims party issuesTo decodes =>
    token_free run revokes mirrored unrenewed settled he party issuesTo decodes, ?_⟩
  intro e he d hd
  have free {t : String} (party : d.userId = u ∨ d.userId = p)
      (grants : GrantsLive e d.deviceId t) : t ≠ a ∧ t ≠ b := by
    obtain ⟨session, sub, action, live, id, rfl, response⟩ := grants
    obtain ⟨k₁, k₂, rfl⟩ := List.append_of_mem he
    have reached : AtomicRun A (Unforged A) (pre ++ k :: k₁) e.before := by
      have split : AtomicRun A (Unforged A) ((pre ++ k :: k₁) ++ e :: k₂) w := by
        simpa [List.append_assoc] using run
      exact split.cut.1
    obtain ⟨x, hx, own⟩ := List.any_eq_true.mp live
    have same : x.clientId = session.clientId := by
      simpa using (Bool.and_eq_true_iff.mp own).2
    obtain ⟨claims, entry, mem⟩ := (subscribed_grants run
      (List.mem_append_right _ (List.mem_cons_of_mem _ he)) action).mp response
    have sessions := sessions_free reached revokes mirrored
      (fun e he => unrenewed e (List.mem_append_left _ he)) settled.earlier
    have topics := sessions x hx d hd (by rw [same, id]) party claims (same ▸ entry)
    exact ⟨fun h => topics.1 (h ▸ mem), fun h => topics.2 (h ▸ mem)⟩
  exact ⟨fun owner grants => (free (Or.inr owner) grants).1 rfl,
    fun owner grants => (free (Or.inl owner) grants).2 rfl⟩

section
open Deployment

/-- Users 0 and 2 log in and create the pair of rows of an exchange. -/
def paired : List Action :=
  [register 0, register 1, challenge "0", verify "0" "1" 0 4, challenge "2", verify "2" "3" 1 5,
    relate (token "0" "1" 100 [] []) "2" ["a"] ["b"],
    relate (token "2" "3" 100 [] []) "0" ["b"] ["a"]]

def rowOf0 : Relationship :=
  ⟨"6", "0", "2", JsonStrings.encode ["a"], JsonStrings.encode ["b"], 100⟩

def rowOf2 : Relationship :=
  ⟨"7", "2", "0", JsonStrings.encode ["b"], JsonStrings.encode ["a"], 100⟩

def revokeOf0 : Action := revoke (token "0" "1" 100 [] []) "6"

/-- User 2 logs in again, -/
def relogin : List Action := [challenge "2", verify "2" "3" 1 8]

/-- and here revokes its own row first. -/
def bothRevoke : List Action := revoke (token "2" "3" 100 [] []) "7" :: relogin

/-- What happens once user 0 has revoked its row. -/
def afterRevoke (rest : List Action) : Log :=
  machine.trace (stepAfter paired revokeOf0).after rest

/-- The step in which user 2 logs in again. -/
def reverified : Step :=
  machine.entry (machine.perform (challenge "2") (stepAfter paired revokeOf0).after).2
    (verify "2" "3" 1 8)

private theorem paired_facts :
    (Honest (paired ++ revokeOf0 :: relogin) ∧ Honest (paired ++ revokeOf0 :: bothRevoke)) ∧
    (reached paired).db.relationships = [rowOf0, rowOf2] ∧
    authUser app (stepAfter paired revokeOf0).before.clock (bearer (token "0" "1" 100 [] [])) =
      some "0" ∧
    (stepAfter paired revokeOf0).response = some (.ok .revoked) ∧
    reverified.response = some (.ok (.token (token "2" "3" 100 ["b"] ["a"]))) ∧
    app.lib.jwtDecode app.jwtKeys.secret (token "2" "3" 100 ["b"] ["a"]) =
      some ⟨"2", "3", 105, 100, ["b"], ["a", app.notifyTopic "2"], app.notifyTopic "2"⟩ ∧
    (∀ e ∈ afterRevoke bothRevoke, Step.issued e ≠ none →
      rowOf2 ∉ e.before.db.relationships) ∧
    ∀ v ∈ ["0", "2"], "a" ≠ app.notifyTopic v ∧ "b" ≠ app.notifyTopic v := by
  decide +kernel

private theorem paired_mirrored :
    Mirrored (stepAfter paired revokeOf0).before "0" "2" "a" "b" rowOf0 rowOf2 := by
  have rows := paired_facts.2.1
  rw [stepAfter_before]
  refine ⟨⟨by simp [rows], rfl, rfl, decodeTopics_encode _, decodeTopics_encode _⟩,
    ⟨by simp [rows], rfl, rfl, decodeTopics_encode _, decodeTopics_encode _⟩, ?_⟩
  intro r hr _ notOwn notMirror
  rw [rows] at hr
  rcases List.mem_pair.mp hr with rfl | rfl
  · exact absurd rfl notOwn
  · exact absurd rfl notMirror

private theorem paired_revokes : Revokes app (stepAfter paired revokeOf0) rowOf0 :=
  ⟨_, rfl, paired_facts.2.2.1, paired_facts.2.2.2.1⟩

private theorem paired_unrenewed (rest : List Action)
    (none : ∀ authorization req, .call (.createRelationship authorization req) ∉ rest) :
    Unrenewed app (afterRevoke rest) "0" "2" "a" "b" := by
  rintro e he v req - ⟨authorization, action, -⟩
  exact absurd (action ▸ machine.action_mem he) (none authorization req)

/-- The peer's own row survives the revoke and puts the topic into its next token. -/
theorem not_revoked : ¬∀ pre k post w, AtomicRun app (Unforged app) (pre ++ k :: post) w →
    ∀ u p a b own mirror, Mirrored k.before u p a b own mirror → Revokes app k own →
      Unrenewed app post u p a b → TakesEffect app post u p a b := by
  intro takesEffect
  obtain ⟨⟨honest, -⟩, -, -, -, issued, decodes, -⟩ := paired_facts
  have run := run_history honest
  rw [history_split] at run
  have effect := takesEffect _ _ _ _ run "0" "2" "a" "b" rowOf0 rowOf2 paired_mirrored
    paired_revokes (paired_unrenewed relogin (by simp [relogin, challenge, verify]))
  have free := effect.1 reverified (List.mem_cons_of_mem _ (List.mem_singleton_self _)) "2" _ _
    (Or.inr rfl) ⟨_, rfl, rfl, issued⟩ decodes
  exact free.1 (by decide)

theorem revocation_takes_effect_both :
    TakesEffect app (afterRevoke bothRevoke) "0" "2" "a" "b" := by
  obtain ⟨⟨-, honest⟩, -, -, -, -, -, gone, unnotified⟩ := paired_facts
  have run := run_history honest
  rw [history_split] at run
  refine revocation_takes_effect run paired_revokes paired_mirrored
    (paired_unrenewed bothRevoke (by simp [bothRevoke, relogin, challenge, verify, revoke]))
    ⟨?_, ?_, fun n _ _ => rfl, ?_⟩
  · rintro e he token ⟨req, action, -, response⟩
    exact gone e he (by simp [Step.issued, action, response])
  · intro v party
    exact unnotified v (by simpa using party)
  · rintro v - q token claims - - - - - e he ⟨info, n, action, -⟩
    have mem := action ▸ machine.action_mem he
    simp [bothRevoke, relogin, challenge, verify, revoke] at mem

end

end Smqtt
