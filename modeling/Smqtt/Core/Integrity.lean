import Smqtt.Core.Operations
import Mathlib.Data.List.Nodup

/-!
What every statement keeps of the database: the primary keys stay unique, the
foreign key of devices stays satisfied, and accounts and devices are never
removed. These hold under every interleaving, so both kinds of runs inherit them.
-/

namespace Smqtt

open AtomicSteps

theorem map_updateWhere {α β : Type} {p : α → Bool} {f : α → α} {k : α → β}
    (keeps : ∀ a, k (f a) = k a) (rows : List α) :
    (updateWhere p f rows).map k = rows.map k := by
  simp only [updateWhere, List.map_map]
  apply List.map_congr_left
  intro a _
  simp only [Function.comp_apply]
  split
  · exact keeps a
  · rfl

theorem updateWhere_none {α : Type} {p : α → Bool} {f : α → α} {rows : List α}
    (none : rows.any p = false) : updateWhere p f rows = rows := by
  conv_rhs => rw [← List.map_id rows]
  refine List.map_congr_left fun r mem => ?_
  simp [List.any_eq_false.mp none r mem]

theorem mem_updateWhere {α : Type} {p : α → Bool} {f : α → α} {rows : List α} {a : α} :
    a ∈ updateWhere p f rows ↔ ∃ b ∈ rows, a = if p b then f b else b := by
  simp only [updateWhere, List.mem_map]
  exact ⟨fun ⟨b, hb, h⟩ => ⟨b, hb, h.symm⟩, fun ⟨b, hb, h⟩ => ⟨b, hb, h.symm⟩⟩

namespace Database

structure Integrity (db : Database) : Prop where
  users : (db.users.map User.userId).Nodup
  devices : (db.devices.map Device.deviceId).Nodup
  owners : ∀ d ∈ db.devices, db.hasUser d.userId = true
  relationships : (db.relationships.map Relationship.relationshipId).Nodup
  exchanges : (db.pendingExchanges.map PendingExchange.exchangeId).Nodup

/-- Accounts and devices of `db` are still there in `db'`. -/
structure Extends (db db' : Database) : Prop where
  users : ∀ u, db.hasUser u = true → db'.hasUser u = true
  devices : ∀ d ∈ db.devices, d ∈ db'.devices

theorem hasUser_iff {db : Database} {userId : String} :
    db.hasUser userId = true ↔ userId ∈ db.users.map User.userId := by
  simp [hasUser]

theorem hasUser_of_keys {db db' : Database}
    (h : db'.users.map User.userId = db.users.map User.userId) (u : String) :
    db'.hasUser u = db.hasUser u := by
  rw [Bool.eq_iff_iff, hasUser_iff, hasUser_iff, h]

theorem empty_integrity : Database.empty.Integrity :=
  ⟨.nil, .nil, fun _ h => absurd h List.not_mem_nil, .nil, .nil⟩

theorem Extends.refl (db : Database) : db.Extends db := ⟨fun _ h => h, fun _ h => h⟩

theorem Extends.trans {a b c : Database} (h : a.Extends b) (k : b.Extends c) : a.Extends c :=
  ⟨fun u hu => k.users u (h.users u hu), fun d hd => k.devices d (h.devices d hd)⟩

theorem updateUser_keys {db : Database} {userId : String} {f : User → User}
    (keeps : ∀ u, (f u).userId = u.userId) :
    (db.updateUser userId f).users.map User.userId = db.users.map User.userId :=
  map_updateWhere keeps _

end Database

private theorem nodup_snoc {α β : Type} {key : α → β} {rows : List α} {row : α}
    (h : (rows.map key).Nodup) (fresh : ∀ r ∈ rows, key r ≠ key row) :
    ((rows ++ [row]).map key).Nodup := by
  rw [List.map_append, List.map_singleton]
  refine List.Nodup.append h (List.nodup_singleton _) ?_
  intro k hk hk'
  obtain ⟨r, hr, rfl⟩ := List.mem_map.mp hk
  exact fresh r hr (List.mem_singleton.mp hk')

private theorem not_any_key {α : Type} {key : α → String} {rows : List α} {k : String}
    (h : ¬(rows.any fun r => decide (key r = k)) = true) : ∀ r ∈ rows, key r ≠ k := by
  intro r hr he
  exact h (List.any_eq_true.mpr ⟨r, hr, by simpa using he⟩)

/-- An update of user rows that keeps their ids keeps the integrity of the database. -/
theorem Database.Integrity.updateUser {db : Database} (h : db.Integrity) {userId : String}
    {f : User → User} (keeps : ∀ u, (f u).userId = u.userId) :
    (db.updateUser userId f).Integrity where
  users := by rw [updateUser_keys keeps]; exact h.users
  devices := h.devices
  owners d hd := by
    rw [hasUser_of_keys (updateUser_keys keeps)]
    exact h.owners d hd
  relationships := h.relationships
  exchanges := h.exchanges

theorem Statement.execute_integrity {s : Statement} {db db' : Database} {x : s.Answer}
    (hs : s.execute db = some (x, db')) (h : db.Integrity) : db'.Integrity := by
  cases s <;> simp only [execute, Option.ite_none_left_eq_some, Option.some.injEq,
    Prod.mk.injEq, Bool.or_eq_true, Bool.not_eq_true', not_or] at hs
  case insertUser row =>
    obtain ⟨fresh, -, rfl⟩ := hs
    refine ⟨nodup_snoc h.users (not_any_key fresh), h.devices, fun d hd => ?_,
      h.relationships, h.exchanges⟩
    rw [Database.hasUser_iff, List.map_append]
    exact List.mem_append_left _ (Database.hasUser_iff.mp (h.owners d hd))
  case insertDevice row =>
    obtain ⟨⟨fresh, owner⟩, -, rfl⟩ := hs
    refine ⟨h.users, nodup_snoc h.devices (not_any_key fresh), fun d hd => ?_,
      h.relationships, h.exchanges⟩
    rcases List.mem_append.mp hd with hd | hd
    · exact h.owners d hd
    · obtain rfl := List.mem_singleton.mp hd
      simpa [Database.hasUser] using owner
  case insertRelationship row =>
    obtain ⟨⟨fresh, -⟩, -, rfl⟩ := hs
    exact ⟨h.users, h.devices, h.owners, nodup_snoc h.relationships (not_any_key fresh),
      h.exchanges⟩
  case insertExchange row =>
    obtain ⟨⟨fresh, -⟩, -, rfl⟩ := hs
    exact ⟨h.users, h.devices, h.owners, h.relationships,
      nodup_snoc h.exchanges (not_any_key fresh)⟩
  case insertRegistrationToken row =>
    obtain ⟨-, -, rfl⟩ := hs
    exact ⟨h.users, h.devices, h.owners, h.relationships, h.exchanges⟩
  case updateTokensValidFrom now u =>
    obtain ⟨-, rfl⟩ := hs
    exact h.updateUser fun _ => rfl
  case updateSuspended b r u =>
    obtain ⟨-, rfl⟩ := hs
    exact h.updateUser fun _ => rfl
  case deleteRelationship r u =>
    obtain ⟨-, rfl⟩ := hs
    exact ⟨h.users, h.devices, h.owners,
      h.relationships.sublist (List.filter_sublist.map _), h.exchanges⟩
  case updateResponderPubkey k e =>
    obtain ⟨-, rfl⟩ := hs
    refine ⟨h.users, h.devices, h.owners, h.relationships, ?_⟩
    have keys := map_updateWhere (p := fun e' : PendingExchange => decide (e'.exchangeId = e))
      (f := fun e' => { e' with responderPubkey := some k })
      (k := PendingExchange.exchangeId) (fun _ => rfl) db.pendingExchanges
    simp only [Database.updateExchange, keys]
    exact h.exchanges
  case deleteExchange e =>
    obtain ⟨-, rfl⟩ := hs
    exact ⟨h.users, h.devices, h.owners, h.relationships,
      h.exchanges.sublist (List.filter_sublist.map _)⟩
  case purgeExchanges n =>
    obtain ⟨-, rfl⟩ := hs
    exact ⟨h.users, h.devices, h.owners, h.relationships,
      h.exchanges.sublist (List.filter_sublist.map _)⟩
  all_goals
    obtain ⟨-, rfl⟩ := hs
    exact ⟨h.users, h.devices, h.owners, h.relationships, h.exchanges⟩

theorem Statement.execute_extends {s : Statement} {db db' : Database} {x : s.Answer}
    (hs : s.execute db = some (x, db')) : db.Extends db' := by
  have same {db' : Database} (hu : db'.users.map User.userId = db.users.map User.userId)
      (hd : db'.devices = db.devices) : db.Extends db' :=
    ⟨fun u h => by rw [Database.hasUser_of_keys hu]; exact h, fun d h => by rw [hd]; exact h⟩
  cases s <;> simp only [execute, Option.ite_none_left_eq_some, Option.some.injEq,
    Prod.mk.injEq] at hs
  case insertUser row =>
    obtain ⟨-, -, rfl⟩ := hs
    refine ⟨fun u h => ?_, fun _ h => h⟩
    rw [Database.hasUser_iff, List.map_append]
    exact List.mem_append_left _ (Database.hasUser_iff.mp h)
  case insertDevice row =>
    obtain ⟨-, -, rfl⟩ := hs
    exact ⟨fun _ h => h, fun _ h => List.mem_append_left _ h⟩
  case insertRelationship row => obtain ⟨-, -, rfl⟩ := hs; exact same rfl rfl
  case insertExchange row => obtain ⟨-, -, rfl⟩ := hs; exact same rfl rfl
  case insertRegistrationToken row => obtain ⟨-, -, rfl⟩ := hs; exact same rfl rfl
  case updateTokensValidFrom now u =>
    obtain ⟨-, rfl⟩ := hs
    exact same (Database.updateUser_keys fun _ => rfl) rfl
  case updateSuspended b r u =>
    obtain ⟨-, rfl⟩ := hs
    exact same (Database.updateUser_keys fun _ => rfl) rfl
  all_goals
    obtain ⟨-, rfl⟩ := hs
    exact same rfl rfl

theorem exec_integrity (A : AppState) (op : Op) (w : World) (h : w.db.Integrity) :
    (exec A op w).2.db.Integrity :=
  exec_db_invariant A op w (fun _ _ _ _ hs => Statement.execute_integrity hs) h

theorem exec_extends (A : AppState) (op : Op) (w : World) :
    w.db.Extends (exec A op w).2.db :=
  exec_db_invariant A op w (I := fun db => w.db.Extends db)
    (fun _ _ _ _ hs h => h.trans (Statement.execute_extends hs)) (.refl _)

theorem Database.Integrity.device_eq {db : Database} (h : db.Integrity) {d e : Device}
    (hd : d ∈ db.devices) (he : e ∈ db.devices) (hid : d.deviceId = e.deviceId) : d = e :=
  List.inj_on_of_nodup_map h.devices hd he hid

theorem Database.Integrity.exchange_eq {db : Database} (h : db.Integrity)
    {d e : PendingExchange} (hd : d ∈ db.pendingExchanges) (he : e ∈ db.pendingExchanges)
    (id : d.exchangeId = e.exchangeId) : d = e :=
  List.inj_on_of_nodup_map h.exchanges hd he id

theorem find_user {db : Database} {userId : String} {user : User}
    (h : db.user userId = some user) :
    user ∈ db.users ∧ user.userId = userId :=
  ⟨List.mem_of_find?_eq_some h, by simpa using List.find?_some h⟩

theorem find_relationship {db : Database} {userId relationshipId : String} {rel : Relationship}
    (h : db.relationship userId relationshipId = some rel) :
    rel ∈ db.relationships ∧ rel.relationshipId = relationshipId ∧ rel.userId = userId :=
  ⟨List.mem_of_find?_eq_some h, by simpa using List.find?_some h⟩

theorem find_exchange {db : Database} {exchangeId : String} {row : PendingExchange}
    (h : db.exchange exchangeId = some row) :
    row ∈ db.pendingExchanges ∧ row.exchangeId = exchangeId :=
  ⟨List.mem_of_find?_eq_some h, by simpa using List.find?_some h⟩

@[simp] theorem Database.user_updateUser {db : Database} {userId : String} {f : User → User}
    (keeps : ∀ u, (f u).userId = u.userId) (v : String) :
    (db.updateUser userId f).user v =
      if v = userId then (db.user v).map f else db.user v := by
  unfold user updateUser updateWhere
  rw [List.find?_map]
  have same : ((fun u : User => decide (u.userId = v)) ∘ fun u =>
      if decide (u.userId = userId) = true then f u else u) =
      fun u => decide (u.userId = v) := by
    funext u
    simp only [Function.comp_apply]
    split
    · rw [keeps]
    · rfl
  rw [same]
  cases hf : db.users.find? fun u => u.userId = v with
  | none => simp
  | some u =>
      obtain ⟨-, rfl⟩ := find_user hf
      by_cases h : u.userId = userId <;> simp [h]

theorem Database.updateUser_absent {db : Database} {userId : String} {f : User → User}
    (h : db.hasUser userId = false) : db.updateUser userId f = db := by
  rw [updateUser, updateWhere_none h]

theorem Database.user_of_hasUser {db : Database} {userId : String}
    (h : db.hasUser userId = true) : ∃ user, db.user userId = some user := by
  cases hf : db.user userId with
  | some user => exact ⟨user, rfl⟩
  | none =>
      obtain ⟨user, hu, hid⟩ := List.any_eq_true.mp h
      exact absurd hid (List.find?_eq_none.mp hf user hu)

theorem Database.hasUser_of_user {db : Database} {userId : String} {user : User}
    (h : db.user userId = some user) : db.hasUser userId = true :=
  List.any_eq_true.mpr ⟨user, (find_user h).1, by simpa using (find_user h).2⟩

end Smqtt
