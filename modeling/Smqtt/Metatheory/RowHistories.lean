import Smqtt.Runs.Identifiers
import Smqtt.Runs.Schedules

/-!
Every row of the database has a history of its own. Under every interleaving accounts,
devices and registration tokens stay for ever, relationships and exchanges are deleted
at most once and with fresh ids do not come back, and no statement touches a column that
is not its own.
-/

namespace Smqtt

open AtomicSteps System

variable {A : AppState} {allowed : Scheduling} {h : PoolLog} {s : Threads} {i j m n : Nat}

/-- A table whose rows are inserted by statements of one kind takes each key once. -/
theorem databaseTable_once {Row : Type} {rows : Database → List Row} {key : Row → String}
    {edits : Statement → Edit Row} (fresh : FreshIds A) (run : PoolRun A allowed h s) (kind : Kind)
    (inserts : ∀ statement row, edits statement = .insert row →
      statement.kind = kind ∧ statement.newKey = some (key row)) :
    (databaseTable rows key edits).Once h := by
  intro n i ev row placed edit
  rw [Bool.eq_false_iff]
  intro earlier
  obtain ⟨ev', mem, inserted⟩ := List.any_eq_true.mp earlier
  obtain ⟨m, lt, j, placed'⟩ := mem_events run mem
  obtain ⟨row', edit', same⟩ := Table.inserts_iff.mp inserted
  obtain ⟨statement, x, rfl, edits⟩ := databaseTable_edit edit (by intro h; cases h)
  obtain ⟨statement', x', rfl, edits'⟩ := databaseTable_edit edit' (by intro h; cases h)
  obtain ⟨made, stores⟩ := inserts statement row edits
  obtain ⟨made', stores'⟩ := inserts statement' row' edits'
  have same : key row' = key row := same
  rw [same] at stores'
  have := key_stored_once run fresh placed' placed stores' stores (made'.trans made.symm)
  omega

theorem relationshipsTable_once (fresh : FreshIds A) (run : PoolRun A allowed h s) :
    relationshipsTable.Once h := by
  refine databaseTable_once fresh run .insertRelationship fun statement row edit => ?_
  cases statement <;> cases edit
  exact ⟨rfl, rfl⟩

theorem exchangesTable_once (fresh : FreshIds A) (run : PoolRun A allowed h s) :
    exchangesTable.Once h := by
  refine databaseTable_once fresh run .insertExchange fun statement row edit => ?_
  cases statement <;> cases edit
  exact ⟨rfl, rfl⟩

/-- What no operation changes of an account. -/
def User.SameAccount (u v : User) : Prop := v.userId = u.userId ∧ v.createdAt = u.createdAt

/-- An exchange keeps its columns, and its responder key is never taken back. -/
def PendingExchange.Furthers (x y : PendingExchange) : Prop :=
  y.sealed = x.sealed ∧ (x.responderPubkey.isSome = true → y.responderPubkey.isSome = true)

/-- Only the uses of a token go up, and not beyond their limit. -/
def RegistrationToken.Spends (t t' : RegistrationToken) : Prop :=
  t' = { t with uses := t'.uses } ∧ t.uses ≤ t'.uses ∧ t'.uses ≤ max t.uses t.maxUses

theorem usersTable_preserves : usersTable.Preserves User.SameAccount := by
  refine ⟨fun u => ⟨rfl, rfl⟩, fun ev p f u v update hit same => ?_⟩
  obtain ⟨statement, -, -, edit⟩ := databaseTable_edit update (by intro h; cases h)
  cases statement <;> cases edit <;> exact same

theorem devicesTable_preserves : devicesTable.Preserves Eq := by
  refine ⟨fun _ => rfl, fun ev p f d d' update hit same => ?_⟩
  obtain ⟨statement, -, -, edit⟩ := databaseTable_edit update (by intro h; cases h)
  cases statement <;> cases edit

theorem relationshipsTable_preserves : relationshipsTable.Preserves Eq := by
  refine ⟨fun _ => rfl, fun ev p f r r' update hit same => ?_⟩
  obtain ⟨statement, -, -, edit⟩ := databaseTable_edit update (by intro h; cases h)
  cases statement <;> cases edit

theorem exchangesTable_preserves : exchangesTable.Preserves PendingExchange.Furthers := by
  refine ⟨fun x => ⟨rfl, id⟩, fun ev p f x y update hit furthers => ?_⟩
  obtain ⟨statement, -, -, edit⟩ := databaseTable_edit update (by intro h; cases h)
  cases statement <;> cases edit
  exact ⟨furthers.1, fun _ => rfl⟩

theorem registrationTokensTable_preserves :
    registrationTokensTable.Preserves RegistrationToken.Spends := by
  refine ⟨fun t => ⟨rfl, Int.le_refl _, Int.le_max_left _ _⟩,
    fun ev p f t t' update hit ⟨same, le, bound⟩ => ?_⟩
  obtain ⟨statement, -, -, edit⟩ := databaseTable_edit update (by intro h; cases h)
  cases statement <;> cases edit
  have limit : t'.maxUses = t.maxUses := by rw [same]
  have left : t'.uses < t'.maxUses := by
    simp only [RegistrationToken.usable, Bool.and_eq_true, decide_eq_true_eq] at hit
    exact hit.2
  refine ⟨by rw [same], ?_, ?_⟩
  · exact Int.le_trans le (Int.le_add_one (Int.le_refl _))
  · rw [limit] at left
    exact Int.le_trans left (Int.le_max_right _ _)

/-- What a later position of a run shows of the rows of an earlier one. -/
structure RowsOnward (es es' : List (Event signature)) (w w' : World) : Prop where
  users : ∀ u row, usersTable.phase u es w = .present row →
    ∃ row', usersTable.phase u es' w' = .present row' ∧ row.SameAccount row'
  devices : ∀ d row, devicesTable.phase d es w = .present row →
    devicesTable.phase d es' w' = .present row
  relationships : ∀ r,
    (relationshipsTable.phase r es w).Onward Eq (relationshipsTable.phase r es' w')
  exchanges : ∀ e, (exchangesTable.phase e es w).Onward PendingExchange.Furthers
    (exchangesTable.phase e es' w')
  registrationTokens : ∀ t row, registrationTokensTable.phase t es w = .present row →
    ∃ row', registrationTokensTable.phase t es' w' = .present row' ∧ row.Spends row'

/-- The rows of the database follow their tables, one key at a time. -/
structure FollowsTables (h : PoolLog) : Prop where
  users : ∀ u, Follows (usersTable.phase u) (usersTable.Moves u) h
  devices : ∀ d, Follows (devicesTable.phase d) (devicesTable.Moves d) h
  relationships : ∀ r, Follows (relationshipsTable.phase r) (relationshipsTable.Moves r) h
  exchanges : ∀ e, Follows (exchangesTable.phase e) (exchangesTable.Moves e) h
  registrationTokens : ∀ t,
    Follows (registrationTokensTable.phase t) (registrationTokensTable.Moves t) h

theorem follows_tables (fresh : FreshIds A) (run : PoolRun A allowed h s) : FollowsTables h where
  users := usersTable_serves.follows run (usersTable_serves.once usersTable_permanent run)
  devices := devicesTable_serves.follows run (devicesTable_serves.once devicesTable_permanent run)
  relationships := relationshipsTable_serves.follows run (relationshipsTable_once fresh run)
  exchanges := exchangesTable_serves.follows run (exchangesTable_once fresh run)
  registrationTokens := registrationTokensTable_serves.follows run
    (registrationTokensTable_serves.once registrationTokensTable_permanent run)

/-- Every statement moves a row as its table says, nothing else moves one, and between any
two positions of a run the rows have gone onward. -/
theorem row_histories (fresh : FreshIds A) (run : PoolRun A allowed h s) :
    FollowsTables h ∧ ∀ (m n : Nat) c d, h[m]? = some c → m ≤ n → h[n]? = some d →
      RowsOnward (events (h.take m)) (events (h.take (n + 1))) c.before.world d.after.world := by
  have tables := follows_tables fresh run
  refine ⟨tables, fun m n c d at_m le at_n => ⟨?_, ?_, ?_, ?_, ?_⟩⟩
  · intro u row present
    have path := (tables.users u).reaches run at_m le at_n
    rw [viewBefore, present] at path
    exact usersTable_preserves.stays usersTable_permanent path
  · intro d row present
    have path := (tables.devices d).reaches run at_m le at_n
    rw [viewBefore, present] at path
    obtain ⟨row', same, rfl⟩ := devicesTable_preserves.stays devicesTable_permanent path
    exact same
  · intro r
    exact relationshipsTable_preserves.onward ((tables.relationships r).reaches run at_m le at_n)
  · intro e
    exact exchangesTable_preserves.onward ((tables.exchanges e).reaches run at_m le at_n)
  · intro t row present
    have path := (tables.registrationTokens t).reaches run at_m le at_n
    rw [viewBefore, present] at path
    exact registrationTokensTable_preserves.stays registrationTokensTable_permanent path

section
open Deployment

/-- The entries of the log after the registration and after the offer of the exchange. -/
private theorem rows_facts : HonestSchedule poolExchange ∧
    ((poolLog poolExchange)[7]?.map fun c =>
      usersTable.phase "0" (events ((poolLog poolExchange).take 7)) c.before.world) =
        some (.present ⟨"0", 100, false, none, 0⟩) ∧
    (poolLog poolExchange)[47]?.isSome = true := by
  decide +kernel

theorem row_histories_exchange : FollowsTables (poolLog poolExchange) ∧
    ∃ d row, (poolLog poolExchange)[47]? = some d ∧
      usersTable.phase "0" (events ((poolLog poolExchange).take 48)) d.after.world =
        .present row := by
  obtain ⟨honest, registered, last⟩ := rows_facts
  obtain ⟨c, at_c, present⟩ := Option.map_eq_some_iff.mp registered
  obtain ⟨d, at_d⟩ := Option.isSome_iff_exists.mp last
  obtain ⟨tables, onward⟩ := row_histories freshIds (run_poolLog honest)
  obtain ⟨row, kept, -⟩ := (onward 7 47 c d at_c (by decide) at_d).users "0" _ present
  exact ⟨tables, d, row, at_d, kept⟩

end
end Smqtt
