import Smqtt.Runs.Relationships
import Smqtt.Runs.Schedules
import Smqtt.Runs.Users

/-!
Who can kick whom. A relationship row is written by one side alone, and revoking it
kicks both, so a user is at the mercy of everyone who has named it as a peer, and of
nobody else but the admin.
-/

namespace Smqtt

open AtomicSteps System

variable {A : AppState} {allowed : Scheduling} {h : PoolLog} {s : Threads} {u v : String}
  {i n : Nat} {e : PoolEntry signature World Call Env Error Reply}

/-- The user of the token that comes with the request. -/
def Call.sender (A : AppState) (c : Call) : Option String :=
  ((c.authorization.bind bearerToken).bind (A.lib.jwtDecode A.jwtKeys.secret)).map Claims.sub

/-- A request of `u` has created a relationship row with the peer `v`. -/
def HasNamed (A : AppState) (h : PoolLog) (u v : String) : Prop :=
  ∃ n i c row, At h n i ⟨.sql (.insertRelationship row), some ()⟩ ∧
    (requests h)[i]? = some c ∧ c.sender A = some u ∧ row.userId = u ∧ row.peerId = v

/-- The step changes the cutoff of `v` or kicks one of its devices. -/
def Strikes (e : PoolEntry signature World Call Env Error Reply) (v : String) : Prop :=
  (∃ user, e.before.world.db.user v = some user ∧
    (e.after.world.db.user v).map User.tokensValidFrom ≠ some user.tokensValidFrom) ∨
  ∃ d ∈ e.before.world.db.devices, d.userId = v ∧ ∃ i, Does e i (kickEvent d)

/-- The requests that may strike `v`: the admin's suspensions, the revocations of `v`,
and those of the users who have named it as a peer. -/
inductive MayKick (A : AppState) (h : PoolLog) (v : String) : Call → Prop
  | admin (key : Option String) (req : Admin.SuspendRequest) :
      key.getD "" = A.config.adminApiKey → MayKick A h v (.suspendUser key v req)
  | own (authorization : Option String) (r : String) :
      (Call.revokeRelationship authorization r).sender A = some v →
      MayKick A h v (.revokeRelationship authorization r)
  | peer (u : String) (authorization : Option String) (r : String) :
      (Call.revokeRelationship authorization r).sender A = some u → HasNamed A h u v →
      MayKick A h v (.revokeRelationship authorization r)

theorem HasNamed.extend (named : HasNamed A (h.take n) u v) : HasNamed A h u v := by
  obtain ⟨m, i, c, row, a, request, sender⟩ := named
  exact ⟨m, i, c, row, (at_take a.lt_of_take).mp a, requests_of_take request, sender⟩

theorem sender_verified (run : PoolRun A allowed h s) {token : String} {claims : Claims}
    (a : At h n i ⟨.jwtVerify token, .ok claims⟩) {c : Call} {authorization : Option String}
    (header : c.authorization = some authorization)
    (bearer : bearerToken authorization = some token) :
    c.sender A = some claims.sub := by
  obtain ⟨e, at_n⟩ := a.entry
  have verifies : JwtKeys.verify A e.before.world.clock token = .ok claims :=
    (a.exec run at_n).1.symm
  rw [Call.sender, header, Option.bind_some, bearer, Option.bind_some,
    (jwtVerify_decodes verifies).1, Option.map_some]

/-- A strike is the cutoff's update or a kick. -/
theorem Strikes.op (run : PoolRun A allowed h s) (at_n : h[n]? = some e) (strikes : Strikes e v) :
    ∃ i ev, At h n i ev ∧ ev.op.strikes ∧
      ((∃ now, ev.op = .sql (.updateTokensValidFrom now v)) ∨
        ∃ d ∈ e.before.world.db.devices, d.userId = v ∧ ev = kickEvent d) := by
  rcases strikes with ⟨user, row, changed⟩ | ⟨d, mem, owner, i, does⟩
  · rcases world_cases run (List.mem_of_getElem? at_n) with
      ⟨i, ev, does, after⟩ | ⟨x, -, after⟩ | ⟨-, after⟩
    · obtain ⟨user', row', moved, -⟩ := exec_user (A := A) ev.op row
      rw [after] at changed
      rcases moved with kept | ⟨now, update, -⟩
      · refine absurd ?_ changed
        rw [show ((server A).exec ev.op e.before.world).2.db.user v = some user' from row',
          Option.map_some, kept]
      · refine ⟨i, ev, ⟨e, at_n, does⟩, Or.inl ?_, Or.inl ⟨now, update⟩⟩
        rw [update]
        rfl
    · rw [after] at changed
      cases x <;> exact absurd (congrArg _ row) changed
    · rw [after] at changed
      exact absurd (congrArg _ row) changed
  · exact ⟨i, _, ⟨e, at_n, does⟩, Or.inr rfl, Or.inr ⟨d, mem, owner, rfl⟩⟩

/-- The user a kick is aimed at is the one it strikes. -/
theorem KickStep.target (run : PoolRun A allowed h s) (at_n : h[n]? = some e)
    {w : String} {start : List (Event signature)} {ev : Event signature}
    (step : KickStep w start (eventsOf i (h.take n)) ev)
    (strikes : (∃ now, ev.op = .sql (.updateTokensValidFrom now v)) ∨
      ∃ d ∈ e.before.world.db.devices, d.userId = v ∧ ev = kickEvent d) : w = v := by
  obtain ⟨part, now, rows, devices, seen, pre⟩ := step
  have mem : ev ∈ kickEvents w now rows devices := pre.subset (by simp)
  rcases strikes with ⟨now', update⟩ | ⟨d, present, owner, rfl⟩
  · simp only [kickEvents, List.cons_append, List.nil_append, List.mem_cons, List.mem_map] at mem
    rcases mem with rfl | rfl | rfl | ⟨d, -, rfl⟩
    · cases update
    · exact (Statement.updateTokensValidFrom.inj (Op.sql.inj update)).2
    · cases update
    · cases update
  · -- the device was listed as one of `w`, by a statement before the kick
    obtain ⟨before, after, listed, split, kicked⟩ :=
      KickStep.kicks ⟨part, now, rows, devices, seen, pre⟩
    obtain ⟨d', mem, same⟩ := List.mem_map.mp kicked
    obtain ⟨m, lt, a, -⟩ := at_of_eventsOf before split
    obtain ⟨f, at_m⟩ := a.entry
    obtain ⟨db, selected, -⟩ := answered_by run a at_m
    obtain ⟨rfl, -⟩ := Prod.mk.inj (Option.some.inj selected)
    obtain ⟨old, listed⟩ := List.mem_filter.mp mem
    have before := run.take at_n
    have at_m : (h.take n)[m]? = some f := by rwa [List.getElem?_take_of_lt lt]
    have kept := (database_extends before.1 at_m).devices d' old
    rw [← owner, ← (pool_integrity before.1).device_eq kept present same]
    exact (of_decide_eq_true listed).symm

section
variable {authorization : Option String} {x : Revoking authorization} {r : String}
  {rest : List (Event signature)}

theorem Revoking.sender (run : PoolRun A allowed h s)
    (seen : eventsOf i (h.take n) = x.events r ++ rest) :
    (Call.revokeRelationship authorization r).sender A = some x.claims.sub := by
  obtain ⟨m, -, a, -⟩ := at_of_eventsOf [] seen
  exact sender_verified run a rfl x.bearer

/-- Behind the row that a revocation has read stands a request of the same user, which
named the peer. -/
theorem Revoking.named (run : PoolRun A allowed h s)
    (seen : eventsOf i (h.take n) = x.events r ++ rest) :
    HasNamed A (h.take n) x.claims.sub x.row.peerId := by
  obtain ⟨m, lt, a, -⟩ := at_of_eventsOf [_] seen
  obtain ⟨e, at_m⟩ := a.entry
  obtain ⟨db, selected, -⟩ := answered_by run a at_m
  obtain ⟨found, -⟩ := Prod.mk.inj (Option.some.inj selected)
  obtain ⟨mem, -, owner⟩ := find_relationship found
  have before := (run.take at_m).1
  obtain ⟨k, j, header, req, y, inserted, request, events, row⟩ := relationship_inserted before mem
  obtain ⟨l, -, verified, -⟩ := at_of_eventsOf [] events
  have sender := sender_verified before verified
    (show (Call.createRelationship header req).authorization = some header from rfl) y.bearer
  have named : HasNamed A (h.take m) x.claims.sub x.row.peerId := by
    refine ⟨k, j, _, x.row, inserted, requests_of_take request, ?_, owner, rfl⟩
    rw [sender, ← owner, row]
    rfl
  have earlier : h.take m = (h.take n).take m := by
    rw [List.take_take, Nat.min_eq_left (Nat.le_of_lt lt)]
  rw [earlier] at named
  exact named.extend

end

/-- Only the requests that may kick a user strike it. -/
theorem struck_by (run : PoolRun A allowed h s) (at_n : h[n]? = some e) (strikes : Strikes e v) :
    ∃ i c, e.action = .step i ∧ (requests h)[i]? = some c ∧ MayKick A (h.take n) v c := by
  obtain ⟨i, ev, a, kind, target⟩ := strikes.op run at_n
  obtain ⟨c, request, spec⟩ := a.sat run handle_kicks_sat
  obtain ⟨w, start, cause, step⟩ := spec kind
  obtain rfl := step.target run at_n target
  obtain ⟨part, -, -, -, seen, -⟩ := step
  obtain ⟨f, at_f, action, -⟩ := a
  obtain rfl : f = e := Option.some.inj (at_f.symm.trans at_n)
  refine ⟨i, c, action, requests_of_take request, ?_⟩
  cases cause with
  | suspended key req rows admin => exact .admin key req admin
  | revoked r x own =>
      refine .own _ r ?_
      rw [Revoking.sender run seen, own]
  | peer r x now rows devices peer =>
      rw [List.append_assoc] at seen
      have named := Revoking.named run seen
      rw [peer] at named
      exact .peer _ _ r (Revoking.sender run seen) named

/-- Only suspensions by the admin, a user's own revocations and those of users who have
named it as a peer strike a user: no request of `u` strikes a `v` that `u` never named. -/
theorem strangers_spared (run : PoolRun A allowed h s) :
    (∀ (v : String) (n : Nat) e, h[n]? = some e → Strikes e v → ∃ i c, e.action = .step i ∧
      (requests h)[i]? = some c ∧ MayKick A (h.take n) v c) ∧
    ∀ u v : String, u ≠ v → ¬HasNamed A h u v → ∀ (n i : Nat) e c, h[n]? = some e →
      e.action = .step i → (requests h)[i]? = some c → c.sender A = some u → ¬Strikes e v := by
  refine ⟨fun v n e at_n => struck_by run at_n, ?_⟩
  intro u v other unnamed n i e c at_n action request sender strikes
  obtain ⟨j, c', action', request', may⟩ := struck_by run at_n strikes
  obtain rfl := PoolAction.step.inj (action.symm.trans action')
  obtain rfl := Option.some.inj (request.symm.trans request')
  cases may with
  | admin key req admin => cases sender
  | own authorization r own => exact other (Option.some.inj (sender.symm.trans own))
  | peer w authorization r peer named =>
      obtain rfl := Option.some.inj (sender.symm.trans peer)
      exact unnamed named.extend

section
open Deployment

/-- The first of the pair names the second as its peer and takes it back at once. -/
def poolSnub : List Schedule :=
  poolPair ++ serve 6 4 (.createRelationship (bearer (token "0" "1" 100 [] [])) ⟨"2", [], []⟩) ++
    serve 7 11 (.revokeRelationship (bearer (token "0" "1" 100 [] [])) "6")

/-- The row the entry has stored. -/
private def storedRow (e : PoolEntry signature World Call Env Error Reply) :
    Option Relationship :=
  match e.response with
  | some ⟨.sql (.insertRelationship row), _⟩ => some row
  | _ => none

private theorem snub_facts : HonestSchedule poolSnub ∧
    ((poolLog poolSnub).filterMap storedRow).all (fun row => row.userId ≠ "2") = true ∧
    (requests (poolLog poolSnub))[7]? =
      some (.revokeRelationship (bearer (token "0" "1" 100 [] [])) "6") ∧
    (Call.revokeRelationship (bearer (token "0" "1" 100 [] [])) "6").sender app = some "0" ∧
    ((poolLog poolSnub)[54]?).map (fun e => (e.action,
      (e.before.world.db.user "2").map User.tokensValidFrom,
      (e.after.world.db.user "2").map User.tokensValidFrom)) =
        some (.step 7, some 0, some 100) := by
  decide +kernel

theorem strangers_spared_snub :
    (∀ (v : String) (n : Nat) e, (poolLog poolSnub)[n]? = some e → Strikes e v →
      ∃ i c, e.action = .step i ∧ (requests (poolLog poolSnub))[i]? = some c ∧
        MayKick app ((poolLog poolSnub).take n) v c) ∧
    ∀ u v : String, u ≠ v → ¬HasNamed app (poolLog poolSnub) u v → ∀ (n i : Nat) e c,
      (poolLog poolSnub)[n]? = some e → e.action = .step i →
        (requests (poolLog poolSnub))[i]? = some c → c.sender app = some u → ¬Strikes e v :=
  strangers_spared (run_poolLog snub_facts.1)

/-- Whom a user has named makes no difference to who may kick it. -/
theorem not_strangers_spared : ¬∀ (h : PoolLog) (s : Threads), PoolRun app (Genuine app) h s →
    ∀ u v : String, u ≠ v → ¬HasNamed app h v u → ∀ (n i : Nat) e c, h[n]? = some e →
      e.action = .step i → (requests h)[i]? = some c → c.sender app = some u → ¬Strikes e v := by
  intro spared
  obtain ⟨honest, rows, request, sender, struck⟩ := snub_facts
  obtain ⟨e, at_n, facts⟩ := Option.map_eq_some_iff.mp struck
  obtain ⟨action, before, after⟩ : e.action = .step 7 ∧
      (e.before.world.db.user "2").map User.tokensValidFrom = some 0 ∧
      (e.after.world.db.user "2").map User.tokensValidFrom = some 100 := by
    simpa using facts
  refine spared _ _ (run_poolLog honest) "0" "2" (by decide) ?_ 54 7 e _ at_n action request
    sender (Or.inl ?_)
  · rintro ⟨n, i, c, row, a, -, -, owner, -⟩
    obtain ⟨f, mem, -, response⟩ := a.mem
    have stored : storedRow f = some row := by rw [storedRow, response]
    have other := List.all_eq_true.mp rows row (List.mem_filterMap.mpr ⟨f, mem, stored⟩)
    exact of_decide_eq_true other owner
  · obtain ⟨user, row, start⟩ := Option.map_eq_some_iff.mp before
    refine ⟨user, row, ?_⟩
    rw [after, start]
    decide

end

end Smqtt
