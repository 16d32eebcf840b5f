import Smqtt.Runs.Deployment

/-!
What the success of a revocation or of a suspension says. The row is gone and the
flag is set, since their statements are checked. `kick_user` only logs the failure of
its own two, so the cutoff and the kicks are as certain as those statements are.
-/

namespace Smqtt

open AtomicSteps

variable {A : AppState} {w : World} {α β : Type}

def Op.kicks : Op → Option String
  | .kick clientId => some clientId
  | _ => none

/-- The client ids an uninterrupted execution kicks. -/
def kicks (A : AppState) (p : Handler α) (w : World) : List String :=
  (p.events (exec A) w).filterMap fun e => e.op.kicks

theorem kicks_bind (p : Handler α) (f : α → Handler β) :
    kicks A (p >>= f) w = kicks A p w ++ match p.run (exec A) w with
      | (.ok a, v) => kicks A (f a) v
      | (.error _, _) => [] := by
  unfold kicks
  rw [Prog.events_bind, List.filterMap_append]
  cases p.run (exec A) w with
  | mk result v => cases result <;> rfl

theorem kicks_attempt (p : Handler α) :
    kicks A (p.attempt : Handler (Except Error α)) w = kicks A p w := by
  unfold kicks
  rw [Prog.events_attempt]

/-- Programs without kicks among their operations kick nobody. -/
theorem kicks_nil {K : List Kind} {p : Handler α} (quiet : p.Uses (Quiet K))
    (without : .kick ∉ K) : kicks A p w = [] := by
  refine List.filterMap_eq_nil_iff.mpr fun e he => ?_
  have other : e.op.kind ≠ .kick := by
    intro same
    rcases (quiet.events he).1 with h | h
    · rw [same] at h
      cases h
    · exact without (same ▸ h)
  cases h : e.op with
  | kick c => exact absurd (by rw [h]; rfl) other
  | _ => rfl

namespace Broker

theorem kickDevices_kicks (devices : List Device) :
    kicks A (kickDevices devices) w = devices.map fun d => d.deviceId := by
  induction devices generalizing w with
  | nil => rfl
  | cons d ds ih => exact congrArg (d.deviceId :: ·) ih

/-- A kick reaches all devices of its user, or none when they cannot be listed. -/
theorem kickUser_kicks (u : String) : kicks A (kickUser u) w =
    if A.outside.fails (w.statements + 1) then []
    else (w.db.devices.filter fun d => d.userId = u).map fun d => d.deviceId := by
  unfold kickUser
  rw [kicks_bind, kicks_attempt,
    kicks_nil (K := [.cutoff]) (Db.invalidateTokens_quiet (by decide) u) (by decide),
    Prog.run_attempt, invalidateTokens_world]
  dsimp only [List.nil_append]
  rw [kicks_bind, kicks_attempt,
    kicks_nil (K := []) (Db.getDeviceByUser_quiet u) (by decide), Prog.run_attempt,
    Db.getDeviceByUser_run]
  dsimp only [List.nil_append, World.counted]
  by_cases failed : A.outside.fails (w.statements + 1) = true
  · simp only [failed, if_true]
    rfl
  · simp only [failed, if_false, Bool.false_eq_true, kickDevices_kicks, kicked_devices]

end Broker

/-- What a call is to do to a user it cuts off. -/
structure CutOff (A : AppState) (w : World) (c : Call) (v : String) : Prop where
  cutoff : ∀ x, ((handle A c).run (exec A) w).2.db.user v = some x →
    x.tokensValidFrom = w.clock.secs
  kicked : ∀ d ∈ w.db.devices, d.userId = v → d.deviceId ∈ kicks A (handle A c) w
  closed : ∀ d ∈ w.db.devices, d.userId = v →
    ∀ x ∈ ((handle A c).run (exec A) w).2.connections, x.clientId ≠ d.deviceId

/-- The call has done what its caller asked for. -/
def Happened (A : AppState) (w : World) (c : Call) : Prop :=
  match c with
  | .revokeRelationship authorization r => ∃ u rel,
      authUser A w.clock authorization = some u ∧ w.db.relationship u r = some rel ∧
      (∀ row ∈ ((handle A c).run (exec A) w).2.db.relationships,
        ¬(row.relationshipId = r ∧ row.userId = u)) ∧
      CutOff A w c u ∧ CutOff A w c rel.peerId
  | .suspendUser _ u _ =>
      (∃ x, ((handle A c).run (exec A) w).2.db.user u = some x ∧ x.suspended = true) ∧
      CutOff A w c u
  | _ => True

/-- The users a call is to cut off, each with the number of the statement that is to
write the cutoff. The statement after it lists the devices. -/
def Call.targets (A : AppState) (w : World) : Call → List (String × Nat)
  | .revokeRelationship authorization r =>
      match authUser A w.clock authorization with
      | some u =>
          match w.db.relationship u r with
          | some rel => [(u, w.statements + 2), (rel.peerId, w.statements + 4)]
          | none => []
      | none => []
  | .suspendUser _ u _ => [(u, w.statements + 1)]
  | _ => []

/-- One of the statements of the kicks of `v`, `k` after the cutoff's, is executed. -/
def Reaches (A : AppState) (w : World) (c : Call) (v : String) (k : Nat) : Prop :=
  ∃ n, (v, n) ∈ c.targets A w ∧ A.outside.fails (n + k) = false

/-- Where there is a cutoff to move or a device to kick, a statement that does it is
executed. -/
def Executed (A : AppState) (w : World) (c : Call) : Prop :=
  ∀ v n, (v, n) ∈ c.targets A w →
    (Reaches A w c v 0 ∨ ∀ x, w.db.user v = some x → x.tokensValidFrom = w.clock.secs) ∧
    (Reaches A w c v 1 ∨ ∀ d ∈ w.db.devices, d.userId ≠ v)

theorem reply_kicks (p : Handler α) (f : α → Reply) : kicks A (Prog.reply p f) w = kicks A p w := by
  unfold Prog.reply
  rw [kicks_bind]
  cases p.run (exec A) w with
  | mk result v => cases result <;> exact List.append_nil _

/-- A revocation that succeeds kicks the owner and then the peer. -/
theorem revoke_kicks {authorization : Option String} {r u : String} {rel : Relationship}
    (auth : authUser A w.clock authorization = some u) (row : w.db.relationship u r = some rel)
    (run : (Relationships.revoke authorization r).run (exec A) w =
      (.ok (), Relationships.revoked A w u r rel.peerId)) :
    kicks A (Relationships.revoke authorization r) w =
      (if A.outside.fails (w.statements + 3) then []
        else (w.db.devices.filter fun d => d.userId = u).map fun d => d.deviceId) ++
      if A.outside.fails (w.statements + 5) then []
        else (w.db.devices.filter fun d => d.userId = rel.peerId).map fun d => d.deviceId := by
  unfold Relationships.revoke at run ⊢
  rw [Prog.run_bind, fromRequestParts_run, auth] at run
  rw [kicks_bind, kicks_nil (K := []) (fromRequestParts_quiet _) (by decide),
    fromRequestParts_run, auth]
  dsimp only [List.nil_append] at run ⊢
  rw [Prog.run_bind, Db.getRelationship_run, row] at run
  rw [kicks_bind, kicks_nil (K := []) (Db.getRelationship_quiet _ _) (by decide),
    Db.getRelationship_run, row]
  cases read : A.outside.fails w.statements with
  | true => rw [read] at run; cases run
  | false =>
      rw [read] at run
      simp only [Bool.false_eq_true, if_false, List.nil_append] at run ⊢
      rw [Prog.run_bind, Db.deleteRelationship_run (w := w.counted) row] at run
      rw [kicks_bind, kicks_nil (K := [.deleteRelationship])
        (Db.deleteRelationship_quiet (by decide) _ _) (by decide),
        Db.deleteRelationship_run (w := w.counted) row]
      cases deleted : A.outside.fails w.counted.statements with
      | true => rw [deleted] at run; cases run
      | false =>
          simp only [Bool.false_eq_true, if_false, List.nil_append]
          rw [kicks_bind, Broker.kickUser_run, Broker.kickUser_kicks]
          dsimp only
          rw [Broker.kickUser_kicks]
          simp only [Broker.kicked_devices]
          rfl

theorem suspend_kicks {key : Option String} {u : String} {req : Admin.SuspendRequest}
    (run : (Admin.suspendUser A key u req).run (exec A) w =
      (.ok (), Admin.suspended A w u req.reason)) :
    kicks A (Admin.suspendUser A key u req) w =
      if A.outside.fails (w.statements + 2) then []
      else (w.db.devices.filter fun d => d.userId = u).map fun d => d.deviceId := by
  unfold Admin.suspendUser Admin.requireAdminKey at run ⊢
  split at run
  · rename_i key_ok
    rw [if_pos key_ok, Prog.pure_eq, Prog.done_bind, kicks_bind,
      kicks_nil (K := [.suspend]) (Db.setSuspended_quiet (by decide) _ _ _) (by decide)]
    rw [Prog.pure_eq, Prog.done_bind, Prog.run_bind] at run
    rcases Db.setSuspended_run (A := A) (w := w) u true req.reason with ⟨-, -, done⟩ | ⟨e, done⟩
    · rw [done]
      dsimp only [List.nil_append]
      rw [Broker.kickUser_kicks]
      rfl
    · rw [done] at run
      cases run
  · cases run

section
variable {c : Call} {v : String} {n : Nat} {reply : Reply}

/-- The calls that cut users off, with what they have done when they succeed. -/
theorem success_cases (ok : ((handle A c).run (exec A) w).1 = .ok reply)
    (target : (v, n) ∈ c.targets A w) :
    (∃ authorization r u rel, c = .revokeRelationship authorization r ∧
      authUser A w.clock authorization = some u ∧ w.db.relationship u r = some rel ∧
      c.targets A w = [(u, w.statements + 2), (rel.peerId, w.statements + 4)] ∧
      (Relationships.revoke authorization r).run (exec A) w =
        (.ok (), Relationships.revoked A w u r rel.peerId)) ∨
    ∃ key u req, c = .suspendUser key u req ∧ c.targets A w = [(u, w.statements + 1)] ∧
      w.db.hasUser u = true ∧ (Admin.suspendUser A key u req).run (exec A) w =
        (.ok (), Admin.suspended A w u req.reason) := by
  cases c with
  | revokeRelationship authorization r =>
      rw [handle, reply_run] at ok
      rcases revoke_cases (A := A) (w := w) authorization r with
        ⟨u, rel, auth, row, run⟩ | ⟨e, m, run⟩
      · refine Or.inl ⟨authorization, r, u, rel, rfl, auth, row, ?_, run⟩
        simp only [Call.targets, auth, row]
      · rw [run] at ok
        cases ok
  | suspendUser key u req =>
      rw [handle, reply_run] at ok
      rcases suspend_cases (A := A) (w := w) key u req with ⟨has, -, run⟩ | ⟨e, m, run⟩
      · exact Or.inr ⟨key, u, req, rfl, rfl, has, run⟩
      · rw [run] at ok
        cases ok
  | _ => cases target

theorem mem_kicks (ok : ((handle A c).run (exec A) w).1 = .ok reply)
    (target : (v, n) ∈ c.targets A w) (id : String) :
    id ∈ kicks A (handle A c) w ↔ ∃ u m, (u, m) ∈ c.targets A w ∧
      A.outside.fails (m + 1) = false ∧ ∃ d ∈ w.db.devices, d.userId = u ∧ d.deviceId = id := by
  have listed (u : String) (m : Nat) :
      (id ∈ if A.outside.fails (m + 1) = true then []
        else (w.db.devices.filter fun d => d.userId = u).map fun d => d.deviceId) ↔
      A.outside.fails (m + 1) = false ∧ ∃ d ∈ w.db.devices, d.userId = u ∧ d.deviceId = id := by
    cases A.outside.fails (m + 1) <;> simp [and_assoc]
  rcases success_cases ok target with
    ⟨authorization, r, u, rel, rfl, auth, row, targets, run⟩ | ⟨key, u, req, rfl, targets, -, run⟩
  · rw [handle, reply_kicks, revoke_kicks auth row run, targets, List.mem_append, listed, listed]
    constructor
    · rintro (owner | peer)
      · exact ⟨u, _, List.mem_cons_self, owner⟩
      · exact ⟨rel.peerId, _, List.mem_cons_of_mem _ List.mem_cons_self, peer⟩
    · rintro ⟨u', m, member, reached⟩
      rcases List.mem_pair.mp member with same | same
      · obtain ⟨rfl, rfl⟩ := Prod.mk.inj same
        exact Or.inl reached
      · obtain ⟨rfl, rfl⟩ := Prod.mk.inj same
        exact Or.inr reached
  · rw [handle, reply_kicks, suspend_kicks run, targets, listed]
    constructor
    · exact fun reached => ⟨u, _, List.mem_cons_self, reached⟩
    · rintro ⟨u', m, member, reached⟩
      obtain ⟨rfl, rfl⟩ := Prod.mk.inj (List.mem_singleton.mp member)
      exact reached

theorem success_cutoffs (ok : ((handle A c).run (exec A) w).1 = .ok reply)
    (target : (v, n) ∈ c.targets A w) : c.cutoffs A w = c.targets A w := by
  rcases success_cases ok target with
    ⟨authorization, r, u, rel, rfl, auth, row, targets, run⟩ | ⟨key, u, req, rfl, targets, -, run⟩
  · rw [revoke_cutoffs auth row run, targets]
  · rw [suspend_cutoffs run, targets]

/-- Without a statement that reaches it, a cutoff stays. -/
theorem cutoff_unreached (ok : ((handle A c).run (exec A) w).1 = .ok reply)
    (target : (v, n) ∈ c.targets A w) (idle : ¬Reaches A w c v 0) :
    (((handle A c).run (exec A) w).2.db.user v).map User.tokensValidFrom =
      (w.db.user v).map User.tokensValidFrom := by
  have failed {m : Nat} (member : (v, m) ∈ c.targets A w) : A.outside.fails m = true :=
    Bool.of_not_eq_false fun executed => idle ⟨m, member, executed⟩
  rcases success_cases ok target with
    ⟨authorization, r, u, rel, rfl, auth, row, targets, run⟩ | ⟨key, u, req, rfl, targets, -, run⟩
  · rw [targets] at failed
    rw [handle, reply_run, run]
    simp only [Relationships.revoked, Broker.kicked_user, Broker.kicked_statements]
    rw [if_neg, if_neg]
    · rfl
    · rintro ⟨rfl, executed⟩
      simp [failed List.mem_cons_self] at executed
    · rintro ⟨rfl, executed⟩
      simp [failed (List.mem_cons_of_mem _ List.mem_cons_self)] at executed
  · rw [targets] at failed target
    obtain ⟨rfl, rfl⟩ := Prod.mk.inj (List.mem_singleton.mp target)
    rw [handle, reply_run, run]
    simp only [Admin.suspended, Broker.kicked_user, Database.user_updateUser, implies_true]
    rw [if_neg fun executed => by simp [failed List.mem_cons_self] at executed]
    simp only [if_true, Option.map_map]
    rfl

end

/-- A successful call has cut a user off exactly when its statements have reached him. -/
theorem cutOff_iff (sound : w.db.Integrity) {c : Call} {v : String} {n : Nat} {reply : Reply}
    (ok : ((handle A c).run (exec A) w).1 = .ok reply) (target : (v, n) ∈ c.targets A w) :
    CutOff A w c v ↔
      (Reaches A w c v 0 ∨ ∀ x, w.db.user v = some x → x.tokensValidFrom = w.clock.secs) ∧
      (Reaches A w c v 1 ∨ ∀ d ∈ w.db.devices, d.userId ≠ v) := by
  have cutoffs := success_cutoffs ok target
  constructor
  · intro done
    refine ⟨or_iff_not_imp_left.mpr fun idle x row => ?_,
      or_iff_not_imp_left.mpr fun idle d mem owner => ?_⟩
    · have kept := cutoff_unreached ok target idle
      rw [row, Option.map_some, Option.map_eq_some_iff] at kept
      obtain ⟨y, after, same⟩ := kept
      exact same.symm.trans (done.cutoff y after)
    · obtain ⟨u, m, member, executed, d', mem', owner', same⟩ :=
        (mem_kicks ok target _).mp (done.kicked d mem owner)
      obtain rfl := sound.device_eq mem' mem same
      obtain rfl := owner'.symm.trans owner
      exact idle ⟨m, member, executed⟩
  · rintro ⟨moved, reached⟩
    refine ⟨fun x after => ?_, fun d mem owner => ?_, fun d mem owner x live => ?_⟩
    · by_cases idle : Reaches A w c v 0
      · obtain ⟨m, member, executed⟩ := idle
        exact handle_cutoff (cutoffs ▸ member) executed after
      · have kept := cutoff_unreached ok target idle
        rw [after, Option.map_some, eq_comm, Option.map_eq_some_iff] at kept
        obtain ⟨y, before, same⟩ := kept
        exact same.symm.trans ((moved.resolve_left idle) y before)
    · obtain ⟨m, member, executed⟩ := reached.resolve_right fun none => none d mem owner
      exact (mem_kicks ok target _).mpr ⟨v, m, member, executed, d, mem, owner, rfl⟩
    · obtain ⟨m, member, executed⟩ := reached.resolve_right fun none => none d mem owner
      exact fun same => (handle_kick (cutoffs ▸ member) live).2 executed d mem owner same.symm

/-- The checked statements leave only the cutoffs and the kicks open. -/
theorem happened_iff {c : Call} {reply : Reply}
    (ok : ((handle A c).run (exec A) w).1 = .ok reply) :
    Happened A w c ↔ ∀ v n, (v, n) ∈ c.targets A w → CutOff A w c v := by
  cases c with
  | revokeRelationship authorization r =>
      rw [handle, reply_run] at ok
      rcases revoke_cases (A := A) (w := w) authorization r with
        ⟨u, rel, auth, row, run⟩ | ⟨e, m, run⟩
      · have targets : (Call.revokeRelationship authorization r).targets A w =
            [(u, w.statements + 2), (rel.peerId, w.statements + 4)] := by
          simp only [Call.targets, auth, row]
        rw [targets]
        constructor
        · rintro ⟨u', rel', auth', row', -, owner, peer⟩ v n member
          obtain rfl := Option.some.inj (auth.symm.trans auth')
          obtain rfl := Option.some.inj (row.symm.trans row')
          rcases List.mem_pair.mp member with same | same
          · exact (Prod.mk.inj same).1 ▸ owner
          · exact (Prod.mk.inj same).1 ▸ peer
        · intro cut
          refine ⟨u, rel, auth, row, ?_, cut u _ List.mem_cons_self,
            cut rel.peerId _ (List.mem_cons_of_mem _ List.mem_cons_self)⟩
          rw [handle, reply_run, run]
          simp only [Relationships.revoked, Broker.kicked_relationships, Db.withoutRelationship]
          rintro x mem ⟨id, owner⟩
          have spared := (List.mem_filter.mp mem).2
          simp [id, owner] at spared
      · rw [run] at ok
        cases ok
  | suspendUser key u req =>
      have targets : (Call.suspendUser key u req).targets A w = [(u, w.statements + 1)] := rfl
      rw [targets]
      constructor
      · rintro ⟨-, cut⟩ v n member
        exact (Prod.mk.inj (List.mem_singleton.mp member)).1 ▸ cut
      · intro cut
        refine ⟨?_, cut u _ List.mem_cons_self⟩
        rw [handle, reply_run] at ok ⊢
        rcases suspend_cases (A := A) (w := w) key u req with ⟨has, -, run⟩ | ⟨e, m, run⟩
        · obtain ⟨x, row⟩ := Database.user_of_hasUser has
          rw [run]
          simp only [Admin.suspended, Broker.kicked_user, Database.user_updateUser,
            implies_true, if_true, row, Option.map_some]
          split
          · exact ⟨_, rfl, rfl⟩
          · exact ⟨_, rfl, rfl⟩
        · rw [run] at ok
          cases ok
  | _ => exact ⟨fun _ _ _ member => (List.not_mem_nil member).elim, fun _ => trivial⟩

/-- Success is true to its word exactly when the statements of the kicks are executed. -/
theorem happened_iff_executed (sound : w.db.Integrity) {c : Call} {reply : Reply}
    (ok : ((handle A c).run (exec A) w).1 = .ok reply) :
    Happened A w c ↔ Executed A w c := by
  rw [happened_iff ok]
  constructor
  · exact fun cut v n member => (cutOff_iff sound ok member).mp (cut v n member)
  · exact fun executed v n member => (cutOff_iff sound ok member).mpr (executed v n member)

section
open Deployment

/-- The sample deployment with one statement that fails. -/
def failing (n : Nat) : AppState :=
  { app with outside := { outside with fails := fun m => m = n } }

/-- One user is registered; its suspension is about to send statements 2, 3 and 4. -/
def registered : World := reached [register 0]

def suspendOne : Call := .suspendUser (some "admin") "0" ⟨none⟩

private theorem suspendOne_facts :
    ((handle app suspendOne).run (exec app) registered).1 = .ok .noContent ∧
    ((handle (failing 3) suspendOne).run (exec (failing 3)) registered).1 = .ok .noContent ∧
    ((handle (failing 3) suspendOne).run (exec (failing 3)) registered).2.db.user "0" =
      some ⟨"0", 100, true, none, 0⟩ ∧
    registered.clock.secs = 100 := by
  decide +kernel

private theorem registered_sound : registered.db.Integrity :=
  run_integrity (run_history (by decide +kernel : Honest [register 0]))

/-- The suspension in which every statement is executed. -/
theorem happened_iff_executed_suspension :
    registered.db.Integrity ∧
    ((handle app suspendOne).run (exec app) registered).1 = .ok .noContent ∧
    Happened app registered suspendOne := by
  refine ⟨registered_sound, suspendOne_facts.1,
    (happened_iff_executed registered_sound suspendOne_facts.1).mpr ?_⟩
  intro v n member
  exact ⟨Or.inl ⟨n, member, rfl⟩, Or.inl ⟨n, member, rfl⟩⟩

/-- Where the cutoff is not written the suspension succeeds all the same. -/
theorem not_happened : ¬∀ (A : AppState) (w : World) (c : Call) (reply : Reply),
    w.db.Integrity → ((handle A c).run (exec A) w).1 = .ok reply → Happened A w c := by
  intro happened
  obtain ⟨-, success, row, now⟩ := suspendOne_facts
  obtain ⟨-, cut⟩ := happened (failing 3) registered suspendOne .noContent registered_sound success
  have moved := cut.cutoff _ row
  rw [now] at moved
  cases moved

end

end Smqtt
