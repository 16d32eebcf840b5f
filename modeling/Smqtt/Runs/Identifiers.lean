import Smqtt.Api.RegistrationEvents
import Smqtt.Runs.Exchanges
import Smqtt.Runs.Relationships
import Smqtt.Runs.Tables

/-!
The ids of the rows. A handler draws the primary key of a row right before it stores the
row, so a key that is in the database has been drawn, and when the supply does not repeat
itself no statement ever meets a row with the key that it stores.
-/

namespace Smqtt

open AtomicSteps System

variable {A : AppState} {allowed : Scheduling} {h : PoolLog} {s : Threads} {i j m n : Nat}
  {id : String}

/-- The primary key of the row that a statement stores. -/
def Statement.newKey : Statement → Option String
  | .insertUser row => some row.userId
  | .insertDevice row => some row.deviceId
  | .insertRelationship row => some row.relationshipId
  | .insertExchange row => some row.exchangeId
  | .insertRegistrationToken row => some row.tokenId
  | _ => none

/-- The primary keys of the table that such statements store a row in. -/
def Database.keys (db : Database) : Kind → List String
  | .insertUser => db.users.map User.userId
  | .insertDevice => db.devices.map Device.deviceId
  | .insertRelationship => db.relationships.map Relationship.relationshipId
  | .insertExchange => db.pendingExchanges.map PendingExchange.exchangeId
  | .insertRegistrationToken => db.registrationTokens.map RegistrationToken.tokenId
  | _ => []

/-- How often a handler looks at the clock between the draw of a key and its use. -/
def Kind.looks : Kind → Nat
  | .insertExchange | .insertRegistrationToken => 2
  | _ => 1

/-- The key was drawn, this number of events before the last. -/
def DrawnBefore (seen : List (Event signature)) (id : String) (looks : Nat) : Prop :=
  ∃ before later, seen = before ++ ⟨.newUuid, id⟩ :: later ∧ later.length = looks

theorem DrawnBefore.mem {seen : List (Event signature)} {looks : Nat}
    (drawn : DrawnBefore seen id looks) : ⟨.newUuid, id⟩ ∈ seen := by
  obtain ⟨before, later, rfl, -⟩ := drawn
  exact List.mem_append_right _ List.mem_cons_self

section
variable (run : PoolRun A allowed h s)
include run

theorem insert_drawn {statement : Statement} {x : Option statement.Answer}
    (placed : At h n i ⟨.sql statement, x⟩) (stores : statement.newKey = some id) :
    DrawnBefore (eventsOf i (h.take n)) id statement.kind.looks := by
  cases statement with
  | insertUser row =>
      obtain ⟨c, -, spec⟩ := placed.sat run handle_stamped_sat
      obtain ⟨before, userId, now, seen, op⟩ := spec.1 rfl
      obtain rfl := Statement.insertUser.inj (Op.sql.inj op)
      obtain rfl := Option.some.inj stores
      exact ⟨before, [_], seen, rfl⟩
  | insertDevice row =>
      obtain ⟨c, -, spec⟩ := placed.sat run handle_stamped_sat
      obtain ⟨before, deviceId, userId, key, now, seen, op⟩ := spec.2 rfl
      obtain rfl := Statement.insertDevice.inj (Op.sql.inj op)
      obtain rfl := Option.some.inj stores
      exact ⟨before, [_], seen, rfl⟩
  | insertRelationship row =>
      obtain ⟨c, -, spec⟩ := placed.sat run handle_insertRelationship_sat
      obtain ⟨_, req, y, -, seen, op⟩ := spec rfl
      obtain rfl := Statement.insertRelationship.inj (Op.sql.inj op)
      obtain rfl := Option.some.inj stores
      exact ⟨[_], [_], seen, rfl⟩
  | insertExchange row =>
      obtain ⟨_, req, y, -, seen, rfl⟩ := inserted_by run placed
      obtain rfl := Option.some.inj stores
      exact ⟨[_, _], [_, _], seen, rfl⟩
  | insertRegistrationToken row =>
      obtain ⟨c, -, spec⟩ := placed.sat run handle_mint_sat
      obtain ⟨_, req, -, -, y, seen, op⟩ := spec rfl
      obtain rfl := Statement.insertRegistrationToken.inj (Op.sql.inj op)
      obtain rfl := Option.some.inj stores
      exact ⟨[_], [_, _], seen, rfl⟩
  | _ => cases stores

/-- A row of a table is stored under one key once, whatever the statements answer. -/
theorem key_stored_once (fresh : FreshIds A) {statement statement' : Statement}
    {x : Option statement.Answer} {x' : Option statement'.Answer}
    (a : At h m i ⟨.sql statement, x⟩) (b : At h n j ⟨.sql statement', x'⟩)
    (stores : statement.newKey = some id) (stores' : statement'.newKey = some id)
    (same : statement.kind = statement'.kind) : m = n := by
  obtain ⟨before, later, seen, looks⟩ := insert_drawn run a stores
  obtain ⟨before', later', seen', looks'⟩ := insert_drawn run b stores'
  obtain ⟨k, -, drawn, prior⟩ := at_of_eventsOf before seen
  obtain ⟨k', -, drawn', prior'⟩ := at_of_eventsOf before' seen'
  obtain rfl := uuid_once fresh run drawn drawn'
  obtain ⟨rfl, -⟩ := drawn.unique drawn'
  refine a.position_eq b ?_
  rw [seen, seen', ← prior, ← prior', List.length_append, List.length_append, List.length_cons,
    List.length_cons, looks, looks', same]

private theorem table_key_stored {Row : Type} {rows : Database → List Row} {key : Row → String}
    {edits : Statement → Edit Row} {kind : Kind}
    (serves : (databaseTable rows key edits).Serves (server A))
    (inserts : ∀ statement row, edits statement = .insert row →
      statement.kind = kind ∧ statement.newKey = some (key row))
    (stored : id ∈ (rows s.world.db).map key) : ∃ n i statement x,
      At h n i ⟨.sql statement, some x⟩ ∧ statement.kind = kind ∧ statement.newKey = some id := by
  obtain ⟨row, mem, rfl⟩ := List.mem_map.mp stored
  have inserted := serves.inserted run (Edit.lookup_of_mem (serves.nodup run) mem)
  rw [← List.take_length (l := h)] at inserted
  obtain ⟨ev, seen, inserted⟩ := List.any_eq_true.mp inserted
  obtain ⟨n, -, i, placed⟩ := mem_events run seen
  obtain ⟨row', edit, same⟩ := Table.inserts_iff.mp inserted
  obtain ⟨statement, x, rfl, edit⟩ := databaseTable_edit edit (by intro h; cases h)
  have same : key row' = key row := same
  rw [← same]
  exact ⟨n, i, statement, x, placed, inserts statement row' edit⟩

/-- A key that is in the database was stored by a statement that answered. -/
theorem key_stored {kind : Kind} (stored : id ∈ s.world.db.keys kind) : ∃ n i statement x,
    At h n i ⟨.sql statement, some x⟩ ∧ statement.kind = kind ∧ statement.newKey = some id := by
  cases kind with
  | insertUser =>
      refine table_key_stored run usersTable_serves (fun statement row edit => ?_) stored
      cases statement <;> cases edit
      exact ⟨rfl, rfl⟩
  | insertDevice =>
      refine table_key_stored run devicesTable_serves (fun statement row edit => ?_) stored
      cases statement <;> cases edit
      exact ⟨rfl, rfl⟩
  | insertRelationship =>
      refine table_key_stored run relationshipsTable_serves (fun statement row edit => ?_) stored
      cases statement <;> cases edit
      exact ⟨rfl, rfl⟩
  | insertExchange =>
      refine table_key_stored run exchangesTable_serves (fun statement row edit => ?_) stored
      cases statement <;> cases edit
      exact ⟨rfl, rfl⟩
  | insertRegistrationToken =>
      refine table_key_stored run registrationTokensTable_serves (fun statement row edit => ?_)
        stored
      cases statement <;> cases edit
      exact ⟨rfl, rfl⟩
  | _ => cases stored

/-- The key of a new row is not in the table yet. -/
theorem key_free (fresh : FreshIds A) {statement : Statement} {x : Option statement.Answer}
    {e : PoolEntry signature World Call Env Error Reply}
    (placed : At h n i ⟨.sql statement, x⟩) (stores : statement.newKey = some id)
    (at_n : h[n]? = some e) : id ∉ e.before.world.db.keys statement.kind := by
  intro stored
  obtain ⟨m, j, statement', x', earlier, kind, stores'⟩ := key_stored (run.take at_n).1 stored
  have lt := earlier.lt_of_take
  have same := key_stored_once run fresh ((at_take lt).mp earlier) placed stores' stores kind
  omega

end
end Smqtt
