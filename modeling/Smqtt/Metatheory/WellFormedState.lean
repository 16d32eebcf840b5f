import Smqtt.Metatheory.ChallengeResponse
import Smqtt.Metatheory.CutoffOrder
import Smqtt.Metatheory.DeviceKeys
import Smqtt.Runs.Identifiers

/-!
The state of the server is well formed whatever is in flight. The schema lets many
columns hold anything; the handlers check or compute what they store, and what they have
read before is still there when they write, since accounts and devices are never deleted
and the clock does not run backwards.
-/

namespace Smqtt

open AtomicSteps System

variable {A : AppState} {allowed : Scheduling} {h : PoolLog} {s : Threads} {i j m n : Nat}

/-- A time that the clock has shown. -/
def World.past (w : World) (t : Int) : Prop := 0 ≤ t ∧ t ≤ w.clock.secs

structure User.WellFormed (w : World) (u : User) : Prop where
  createdAt : w.past u.createdAt
  tokensValidFrom : w.past u.tokensValidFrom

structure Device.WellFormed (w : World) (d : Device) : Prop where
  owner : w.db.hasUser d.userId = true
  registeredAt : w.past d.registeredAt

structure Relationship.WellFormed (w : World) (r : Relationship) : Prop where
  owner : w.db.hasUser r.userId = true
  publishTopics : ∃ topics, r.publishTopics = JsonStrings.encode topics
  subscribeTopics : ∃ topics, r.subscribeTopics = JsonStrings.encode topics
  createdAt : w.past r.createdAt

structure PendingExchange.WellFormed (w : World) (x : PendingExchange) : Prop where
  initiator : w.db.hasUser x.initiatorId = true
  responder : w.db.hasUser x.responderId = true
  initiatorPubkey : x.initiatorPubkey.length = 32
  responderPubkey : ∀ key, x.responderPubkey = some key → key.length = 32
  createdAt : w.past x.createdAt

structure RegistrationToken.WellFormed (w : World) (t : RegistrationToken) : Prop where
  uses : 0 ≤ t.uses ∧ t.uses ≤ max 0 t.maxUses
  createdAt : w.past t.createdAt

/-- A challenge waits for an account, for a minute at most. -/
structure ChallengeWellFormed (w : World) (u : String) (expiresAt : Nat) : Prop where
  known : w.db.hasUser u = true
  expiresAt : expiresAt ≤ w.clock.secs + Auth.challengeTtlSecs

/-- The supply of ids has handed out this one. -/
def World.Drew (A : AppState) (w : World) (id : String) : Prop :=
  ∃ d < w.draws, id = A.outside.uuid d

/-- All primary keys. -/
def Database.ids (db : Database) : List String :=
  db.users.map User.userId ++ db.devices.map Device.deviceId ++
    db.relationships.map Relationship.relationshipId ++
    db.pendingExchanges.map PendingExchange.exchangeId ++
    db.registrationTokens.map RegistrationToken.tokenId

structure World.WellFormed (A : AppState) (w : World) : Prop where
  keys : w.db.Integrity
  ids : ∀ id ∈ w.db.ids, w.Drew A id
  users : ∀ u ∈ w.db.users, u.WellFormed w
  devices : ∀ d ∈ w.db.devices, d.WellFormed w
  deviceKeys : w.db.KeysValid A
  relationships : ∀ r ∈ w.db.relationships, r.WellFormed w
  exchanges : ∀ x ∈ w.db.pendingExchanges, x.WellFormed w
  registrationTokens : ∀ t ∈ w.db.registrationTokens, t.WellFormed w
  challenges : ∀ u nonce expiresAt, w.challenges u = some (nonce, expiresAt) →
    ChallengeWellFormed w u expiresAt

/-- The accounts are still there and the clock has not gone back. -/
structure World.Later (w w' : World) : Prop where
  known : ∀ u, w.db.hasUser u = true → w'.db.hasUser u = true
  clock : w.clock.secs ≤ w'.clock.secs

theorem exec_later (op : Op) (w : World) : w.Later (exec A op w).2 where
  known := (exec_extends A op w).users
  clock := by rw [exec_clock]

theorem environment_later (x : Env) (w : World) : w.Later (environment x w) := by
  cases x with
  | tick n => exact ⟨fun _ known => known, Clock.le_advance _ _⟩
  | sign key message => exact ⟨fun _ known => known, Nat.le_refl _⟩

section
variable {w w' : World} (later : w.Later w')
include later

theorem World.Later.past {t : Int} (past : w.past t) : w'.past t :=
  ⟨past.1, Int.le_trans past.2 (Int.ofNat_le.mpr later.clock)⟩

theorem User.WellFormed.onward {u : User} (u_ok : u.WellFormed w) : u.WellFormed w' :=
  ⟨later.past u_ok.createdAt, later.past u_ok.tokensValidFrom⟩

theorem Device.WellFormed.onward {d : Device} (ok : d.WellFormed w) : d.WellFormed w' :=
  ⟨later.known _ ok.owner, later.past ok.registeredAt⟩

theorem Relationship.WellFormed.onward {r : Relationship} (ok : r.WellFormed w) :
    r.WellFormed w' :=
  ⟨later.known _ ok.owner, ok.publishTopics, ok.subscribeTopics, later.past ok.createdAt⟩

theorem PendingExchange.WellFormed.onward {x : PendingExchange} (ok : x.WellFormed w) :
    x.WellFormed w' :=
  ⟨later.known _ ok.initiator, later.known _ ok.responder, ok.initiatorPubkey,
    ok.responderPubkey, later.past ok.createdAt⟩

theorem RegistrationToken.WellFormed.onward {t : RegistrationToken} (ok : t.WellFormed w) :
    t.WellFormed w' :=
  ⟨ok.uses, later.past ok.createdAt⟩

end

section
variable (run : PoolRun A allowed h s)
include run

/-- A clock that a thread has read is past when it writes. -/
theorem past_of_seen {now : Nat}
    (seen : ⟨.unixNow, now⟩ ∈ eventsOf i (h.take n))
    {e : PoolEntry signature World Call Env Error Reply} (at_n : h[n]? = some e) :
    e.before.world.past (asI64 now) := by
  obtain ⟨m, lt, looked⟩ := at_of_mem_eventsOf seen
  obtain ⟨f, at_m⟩ := looked.entry
  have time : now = f.before.world.clock.secs := (looked.exec run at_m).1
  have later := clock_le (run.take at_n).1 ((List.getElem?_take_of_lt lt).trans at_m)
  rw [time, Clock.asI64_secs]
  exact ⟨Int.natCast_nonneg _, Int.ofNat_le.mpr later⟩

theorem known_of_seen {u : String} (user : User)
    (seen : ⟨.sql (.selectUser u), some (some user)⟩ ∈ eventsOf i (h.take n))
    {e : PoolEntry signature World Call Env Error Reply} (at_n : h[n]? = some e) :
    e.before.world.db.hasUser u = true := by
  obtain ⟨m, lt, found⟩ := at_of_mem_eventsOf seen
  exact known_since run found lt at_n

theorem drew_of_seen {id : String} (seen : ⟨.newUuid, id⟩ ∈ eventsOf i (h.take n)) :
    s.world.Drew A id := by
  obtain ⟨m, -, drawn⟩ := at_of_mem_eventsOf seen
  obtain ⟨d, used, same, -⟩ := uuid_drawn run drawn
  exact ⟨d, used, same⟩

theorem keys_drawn (kind : Kind) {id : String} (stored : id ∈ s.world.db.keys kind) :
    s.world.Drew A id := by
  obtain ⟨n, i, statement, x, placed, -, stores⟩ := key_stored run stored
  exact drew_of_seen run (insert_drawn run placed stores).mem

theorem ids_drawn : ∀ id ∈ s.world.db.ids, s.world.Drew A id := by
  intro id mem
  simp only [Database.ids, List.mem_append] at mem
  rcases mem with (((user | device) | relationship) | exchange) | token
  · exact keys_drawn run .insertUser user
  · exact keys_drawn run .insertDevice device
  · exact keys_drawn run .insertRelationship relationship
  · exact keys_drawn run .insertExchange exchange
  · exact keys_drawn run .insertRegistrationToken token

theorem users_wellFormed : ∀ u ∈ s.world.db.users, u.WellFormed s.world := by
  refine usersTable_serves.rows_satisfy run (I := fun w u => u.WellFormed w) ?_ ?_
    (fun op w _ => .onward (exec_later op w)) fun x w _ => .onward (environment_later x w)
  · intro n i ev e row placed at_n edit
    obtain ⟨statement, x, rfl, edit⟩ := databaseTable_edit edit (by intro h; cases h)
    cases statement <;> cases edit
    obtain ⟨c, -, spec⟩ := placed.sat run handle_stamped_sat
    obtain ⟨before, userId, now, seen, op⟩ := spec.1 rfl
    have created : e.before.world.past (asI64 now) :=
      past_of_seen (i := i) run (by rw [seen]; simp) at_n
    obtain rfl := Statement.insertUser.inj (Op.sql.inj op)
    exact ⟨by dsimp only; exact created, Int.le_refl 0, Int.natCast_nonneg _⟩
  · intro n i ev e p f row placed at_n edit hit ok
    obtain ⟨statement, x, rfl, edit⟩ := databaseTable_edit edit (by intro h; cases h)
    cases statement <;> cases edit
    · rename_i t u
      obtain ⟨c, -, spec⟩ := placed.sat run handle_kicks_sat
      obtain ⟨v, start, -, step⟩ := spec (Or.inl rfl)
      obtain ⟨now, same, seen⟩ := step.looked
      have looked : ⟨.unixNow, now⟩ ∈ eventsOf i (h.take n) := by
        rw [seen]
        exact List.mem_append_right _ (List.mem_singleton_self _)
      have written := past_of_seen run looked at_n
      rw [← same] at written
      exact ⟨ok.createdAt, written⟩
    · exact ⟨ok.createdAt, ok.tokensValidFrom⟩

theorem devices_wellFormed : ∀ d ∈ s.world.db.devices, d.WellFormed s.world := by
  refine devicesTable_serves.rows_satisfy run (I := fun w d => d.WellFormed w) ?_ ?_
    (fun op w _ => .onward (exec_later op w)) fun x w _ => .onward (environment_later x w)
  · intro n i ev e row placed at_n edit
    obtain ⟨statement, x, rfl, edit⟩ := databaseTable_edit edit (by intro h; cases h)
    cases statement <;> cases edit
    obtain ⟨db, executed, -⟩ := answered_by run placed at_n
    obtain ⟨c, -, spec⟩ := placed.sat run handle_stamped_sat
    obtain ⟨before, deviceId, userId, key, now, seen, op⟩ := spec.2 rfl
    have registered : e.before.world.past (asI64 now) :=
      past_of_seen (i := i) run (by rw [seen]; simp) at_n
    obtain rfl := Statement.insertDevice.inj (Op.sql.inj op)
    simp only [Statement.execute, Option.ite_none_left_eq_some, Bool.or_eq_true, not_or] at executed
    exact ⟨by simpa using executed.1.2, by dsimp only; exact registered⟩
  · intro n i ev e p f row placed at_n edit hit ok
    obtain ⟨statement, x, rfl, edit⟩ := databaseTable_edit edit (by intro h; cases h)
    cases statement <;> cases edit

theorem relationships_wellFormed : ∀ r ∈ s.world.db.relationships, r.WellFormed s.world := by
  refine relationshipsTable_serves.rows_satisfy run (I := fun w r => r.WellFormed w) ?_ ?_
    (fun op w _ => .onward (exec_later op w)) fun x w _ => .onward (environment_later x w)
  · intro n i ev e row placed at_n edit
    obtain ⟨statement, x, rfl, edit⟩ := databaseTable_edit edit (by intro h; cases h)
    cases statement <;> cases edit
    obtain ⟨db, executed, -⟩ := answered_by run placed at_n
    obtain ⟨c, -, spec⟩ := placed.sat run handle_insertRelationship_sat
    obtain ⟨_, req, y, -, seen, op⟩ := spec rfl
    have created : e.before.world.past (asI64 y.now) :=
      past_of_seen (i := i) run (by rw [seen]; simp [Granting.events]) at_n
    obtain rfl := Statement.insertRelationship.inj (Op.sql.inj op)
    simp only [Statement.execute, Option.ite_none_left_eq_some, Bool.or_eq_true, not_or] at executed
    exact ⟨by simpa using executed.1.2, ⟨_, rfl⟩, ⟨_, rfl⟩,
      by dsimp only [Granting.row]; exact created⟩
  · intro n i ev e p f row placed at_n edit hit ok
    obtain ⟨statement, x, rfl, edit⟩ := databaseTable_edit edit (by intro h; cases h)
    cases statement <;> cases edit

theorem exchanges_wellFormed : ∀ x ∈ s.world.db.pendingExchanges, x.WellFormed s.world := by
  refine exchangesTable_serves.rows_satisfy run (I := fun w x => x.WellFormed w) ?_ ?_
    (fun op w _ => .onward (exec_later op w)) fun x w _ => .onward (environment_later x w)
  · intro n i ev e row placed at_n edit
    obtain ⟨statement, x, rfl, edit⟩ := databaseTable_edit edit (by intro h; cases h)
    cases statement <;> cases edit
    obtain ⟨db, executed, -⟩ := answered_by run placed at_n
    obtain ⟨_, req, y, -, seen, same⟩ := inserted_by run placed
    have created : e.before.world.past (asI64 y.created) :=
      past_of_seen (i := i) run (by rw [seen]; simp [Initiating.events]) at_n
    have peer : e.before.world.db.hasUser req.peerId = true :=
      known_of_seen (i := i) run y.peer (by rw [seen]; simp [Initiating.events]) at_n
    rw [same] at executed ⊢
    simp only [Statement.execute, Option.ite_none_left_eq_some, Bool.or_eq_true, not_or] at executed
    exact ⟨by simpa using executed.1.2, peer, (decodePubkey_ok y.decoded).2,
      (by intro key same; cases same), by dsimp only [Initiating.row]; exact created⟩
  · intro n i ev e p f row placed at_n edit hit ok
    obtain ⟨statement, x, rfl, edit⟩ := databaseTable_edit edit (by intro h; cases h)
    cases statement <;> cases edit
    obtain ⟨c, -, spec⟩ := placed.sat run handle_respondExchange_sat
    obtain ⟨_, _, _, y, -, -, op⟩ := spec rfl
    obtain ⟨rfl, -⟩ := Statement.updateResponderPubkey.inj (Op.sql.inj op)
    refine ⟨ok.initiator, ok.responder, ok.initiatorPubkey, fun key same => ?_, ok.createdAt⟩
    rw [← Option.some.inj same]
    exact (decodePubkey_ok y.decoded).2

theorem registrationTokens_wellFormed :
    ∀ t ∈ s.world.db.registrationTokens, t.WellFormed s.world := by
  refine registrationTokensTable_serves.rows_satisfy run (I := fun w t => t.WellFormed w) ?_ ?_
    (fun op w _ => .onward (exec_later op w)) fun x w _ => .onward (environment_later x w)
  · intro n i ev e row placed at_n edit
    obtain ⟨statement, x, rfl, edit⟩ := databaseTable_edit edit (by intro h; cases h)
    cases statement <;> cases edit
    obtain ⟨c, -, spec⟩ := placed.sat run handle_mint_sat
    obtain ⟨_, req, -, -, y, seen, op⟩ := spec rfl
    have created : e.before.world.past (asI64 y.now) :=
      past_of_seen (i := i) run (by rw [seen]; simp [Minting.events]) at_n
    obtain rfl := Statement.insertRegistrationToken.inj (Op.sql.inj op)
    exact ⟨⟨Int.le_refl 0, Int.le_max_left _ _⟩, by dsimp only [Minting.row]; exact created⟩
  · intro n i ev e p f row placed at_n edit hit ok
    obtain ⟨statement, x, rfl, edit⟩ := databaseTable_edit edit (by intro h; cases h)
    cases statement <;> cases edit
    have left : row.uses < row.maxUses := by
      simp only [RegistrationToken.usable, Bool.and_eq_true, decide_eq_true_eq] at hit
      exact hit.2
    refine ⟨⟨?_, ?_⟩, ok.createdAt⟩
    · exact Int.le_trans ok.uses.1 (Int.le_add_one (Int.le_refl _))
    · exact Int.le_trans left (Int.le_max_right _ _)

/-- A challenge in the map was stored by an operation. -/
theorem challenge_inserted {u : String} {nonce : List UInt8} {expiresAt : Nat}
    (stored : s.world.challenges u = some (nonce, expiresAt)) :
    ∃ n i, At h n i ⟨.challengesInsert u nonce expiresAt, ()⟩ := by
  obtain ⟨n, i, ⟨op, x⟩, e, placed, at_n, absent, present, -⟩ := introduced_by run
    (P := fun w => w.challenges u = some (nonce, expiresAt)) (by intro h; cases h)
    (fun x w => by cases x <;> exact fun h => h) stored
  have touches : op.challengeOf = some u := by
    by_contra other
    have kept : (exec A op e.before.world).2.challenges u = e.before.world.challenges u :=
      exec_challengeOf other
    exact absent (kept.symm.trans present)
  refine ⟨n, i, ?_⟩
  cases op with
  | challengesInsert v nonce' expiresAt' =>
      obtain rfl : v = u := Option.some.inj touches
      have same : some (nonce, expiresAt) = some (nonce', expiresAt') :=
        present.symm.trans (Function.update_self ..)
      obtain ⟨rfl, rfl⟩ := Prod.mk.inj (Option.some.inj same)
      exact placed
  | challengesRemove v =>
      obtain rfl : v = u := Option.some.inj touches
      cases present.symm.trans (Function.update_self ..)
  | _ => cases touches

theorem challenges_wellFormed {u : String} {nonce : List UInt8} {expiresAt : Nat}
    (stored : s.world.challenges u = some (nonce, expiresAt)) :
    ChallengeWellFormed s.world u expiresAt := by
  obtain ⟨n, i, placed⟩ := challenge_inserted run stored
  obtain ⟨x, -, seen, -, expires⟩ := stored_challenge run placed
  obtain ⟨e, at_n⟩ := placed.entry
  refine ⟨(database_extends run at_n).users u ?_, ?_⟩
  · exact known_of_seen (i := i) run x.user (by rw [seen]; simp [Challenged.events]) at_n
  · obtain ⟨m, -, looked, -⟩ := at_of_eventsOf [_, _] seen
    obtain ⟨f, at_m⟩ := looked.entry
    have time : x.now = f.before.world.clock.secs := (looked.exec run at_m).1
    have later := clock_le run at_m
    have small := f.before.world.clock.inRange
    have sum : addU64 x.now Auth.challengeTtlSecs = x.now + Auth.challengeTtlSecs :=
      addU64_of_lt (by rw [time, Auth.challengeTtlSecs]; omega)
    rw [expires, sum, time]
    exact Nat.add_le_add_right later _

end

/-- Every state of every run is well formed. -/
theorem state_wellFormed (run : PoolRun A allowed h s) : s.world.WellFormed A where
  keys := pool_integrity run
  ids := ids_drawn run
  users := users_wellFormed run
  devices := devices_wellFormed run
  deviceKeys := run_keysValid run
  relationships := relationships_wellFormed run
  exchanges := exchanges_wellFormed run
  registrationTokens := registrationTokens_wellFormed run
  challenges := fun _ _ _ stored => challenges_wellFormed run stored

section
open Deployment

private theorem wellFormed_facts : HonestSchedule (poolExchange ++ [.env (.tick 5)]) := by
  decide +kernel

theorem state_wellFormed_exchange :
    (poolState (poolExchange ++ [.env (.tick 5)])).world.WellFormed app :=
  state_wellFormed (run_poolLog wellFormed_facts)

end
end Smqtt
