import Smqtt.Library.KeyedTable
import Smqtt.Runs.Interleaved

/-!
The database as five tables with primary keys. Every statement that answers is one edit
of one table and leaves the others alone.
-/

namespace Smqtt

open AtomicSteps System

variable {A : AppState}

/-- A table of the database and what each statement that answers does to it. -/
def databaseTable {Row : Type} (rows : Database → List Row) (key : Row → String)
    (edits : Statement → Edit Row) : Table signature World Row String where
  rows w := rows w.db
  key
  edit
    | ⟨.sql statement, some _⟩ => edits statement
    | _ => .keep

def usersTable : Table signature World User String :=
  databaseTable Database.users User.userId fun
    | .insertUser row => .insert row
    | .updateTokensValidFrom now u =>
        .update (fun v => v.userId = u) fun v => { v with tokensValidFrom := now }
    | .updateSuspended suspended reason u =>
        .update (fun v => v.userId = u) fun v =>
          { v with suspended := suspended, suspendReason := reason }
    | _ => .keep

def devicesTable : Table signature World Device String :=
  databaseTable Database.devices Device.deviceId fun
    | .insertDevice row => .insert row
    | _ => .keep

def relationshipsTable : Table signature World Relationship String :=
  databaseTable Database.relationships Relationship.relationshipId fun
    | .insertRelationship row => .insert row
    | .deleteRelationship r u => .delete fun row => row.relationshipId = r && row.userId = u
    | _ => .keep

def exchangesTable : Table signature World PendingExchange String :=
  databaseTable Database.pendingExchanges PendingExchange.exchangeId fun
    | .insertExchange row => .insert row
    | .updateResponderPubkey key e =>
        .update (fun row => row.exchangeId = e) fun row => { row with responderPubkey := some key }
    | .deleteExchange e => .delete fun row => row.exchangeId = e
    | .purgeExchanges now => .delete fun row => row.expiresAt < now
    | _ => .keep

def registrationTokensTable : Table signature World RegistrationToken String :=
  databaseTable Database.registrationTokens RegistrationToken.tokenId fun
    | .insertRegistrationToken row => .insert row
    | .consumeRegistrationToken hash now =>
        .update (RegistrationToken.usable hash now) fun t => { t with uses := t.uses + 1 }
    | _ => .keep

theorem databaseTable_serves {Row : Type} {rows : Database → List Row} {key : Row → String}
    {edits : Statement → Edit Row} (empty : rows .empty = [])
    (execute : ∀ (statement : Statement) db x db', statement.execute db = some (x, db') →
      rows db' = (edits statement).apply (rows db) ∧
        (edits statement).Respects key (rows db)) :
    (databaseTable rows key edits).Serves (server A) := by
  have step (op : Op) (w : World) :
      rows (exec A op w).2.db =
          ((databaseTable rows key edits).edit ⟨op, (exec A op w).1⟩).apply (rows w.db) ∧
        ((databaseTable rows key edits).edit ⟨op, (exec A op w).1⟩).Respects key (rows w.db) := by
    cases op with
    | sql statement =>
        rcases exec_sql_cases A w statement with failed | ⟨x, db, -, executed, result⟩
        · rw [failed]
          exact ⟨rfl, trivial⟩
        · rw [result]
          exact execute statement w.db x db executed
    | forward session topic =>
        simp only [exec]
        split <;> exact ⟨rfl, trivial⟩
    | _ => exact ⟨rfl, trivial⟩
  exact ⟨empty, fun x w => by cases x <;> rfl, fun op w => (step op w).1, fun op w => (step op w).2⟩

theorem usersTable_serves : usersTable.Serves (server A) := by
  refine databaseTable_serves rfl fun statement db x db' executed => ?_
  cases statement with
  | insertUser row =>
      simp only [Statement.execute, Option.ite_none_left_eq_some, Option.some.injEq,
        Prod.mk.injEq] at executed
      obtain ⟨new, -, rfl⟩ := executed
      exact ⟨rfl, by simpa [Edit.Respects, Database.hasUser] using new⟩
  | updateTokensValidFrom now u =>
      obtain ⟨-, rfl⟩ := Prod.mk.inj (Option.some.inj executed)
      exact ⟨rfl, fun _ _ => rfl⟩
  | updateSuspended b r u =>
      obtain ⟨-, rfl⟩ := Prod.mk.inj (Option.some.inj executed)
      exact ⟨rfl, fun _ _ => rfl⟩
  | _ => exact ⟨(Statement.execute_frame executed).1 (by intro h; cases h), trivial⟩

theorem devicesTable_serves : devicesTable.Serves (server A) := by
  refine databaseTable_serves rfl fun statement db x db' executed => ?_
  cases statement with
  | insertDevice row =>
      simp only [Statement.execute, Option.ite_none_left_eq_some, Option.some.injEq,
        Prod.mk.injEq] at executed
      obtain ⟨new, -, rfl⟩ := executed
      rw [Bool.or_eq_true, not_or] at new
      exact ⟨rfl, by simpa [Edit.Respects] using new.1⟩
  | _ => exact ⟨(Statement.execute_frame executed).2.1 (by intro h; cases h), trivial⟩

theorem relationshipsTable_serves : relationshipsTable.Serves (server A) := by
  refine databaseTable_serves rfl fun statement db x db' executed => ?_
  cases statement with
  | insertRelationship row =>
      simp only [Statement.execute, Option.ite_none_left_eq_some, Option.some.injEq,
        Prod.mk.injEq] at executed
      obtain ⟨new, -, rfl⟩ := executed
      rw [Bool.or_eq_true, not_or] at new
      exact ⟨rfl, by simpa [Edit.Respects] using new.1⟩
  | deleteRelationship r u =>
      obtain ⟨-, rfl⟩ := Prod.mk.inj (Option.some.inj executed)
      exact ⟨rfl, trivial⟩
  | _ => exact ⟨(Statement.execute_frame executed).2.2.1 (by intro h; cases h), trivial⟩

theorem exchangesTable_serves : exchangesTable.Serves (server A) := by
  refine databaseTable_serves rfl fun statement db x db' executed => ?_
  cases statement with
  | insertExchange row =>
      simp only [Statement.execute, Option.ite_none_left_eq_some, Option.some.injEq,
        Prod.mk.injEq] at executed
      obtain ⟨new, -, rfl⟩ := executed
      rw [Bool.or_eq_true, not_or] at new
      exact ⟨rfl, by simpa [Edit.Respects] using new.1⟩
  | updateResponderPubkey key e =>
      obtain ⟨-, rfl⟩ := Prod.mk.inj (Option.some.inj executed)
      exact ⟨rfl, fun _ _ => rfl⟩
  | deleteExchange e =>
      obtain ⟨-, rfl⟩ := Prod.mk.inj (Option.some.inj executed)
      exact ⟨rfl, trivial⟩
  | purgeExchanges now =>
      obtain ⟨-, rfl⟩ := Prod.mk.inj (Option.some.inj executed)
      exact ⟨rfl, trivial⟩
  | _ => exact ⟨(Statement.execute_frame executed).2.2.2.1 (by intro h; cases h), trivial⟩

theorem registrationTokensTable_serves : registrationTokensTable.Serves (server A) := by
  refine databaseTable_serves rfl fun statement db x db' executed => ?_
  cases statement with
  | insertRegistrationToken row =>
      simp only [Statement.execute, Option.ite_none_left_eq_some, Option.some.injEq,
        Prod.mk.injEq] at executed
      obtain ⟨new, -, rfl⟩ := executed
      exact ⟨rfl, by simpa [Edit.Respects] using new⟩
  | consumeRegistrationToken hash now =>
      obtain ⟨-, rfl⟩ := Prod.mk.inj (Option.some.inj executed)
      exact ⟨rfl, fun _ _ => rfl⟩
  | _ => exact ⟨(Statement.execute_frame executed).2.2.2.2 (by intro h; cases h), trivial⟩

theorem databaseTable_edit {Row : Type} {rows : Database → List Row} {key : Row → String}
    {edits : Statement → Edit Row} {ev : Event signature} {edit : Edit Row}
    (edited : (databaseTable rows key edits).edit ev = edit) (moves : edit ≠ .keep) :
    ∃ statement x, ev = ⟨.sql statement, some x⟩ ∧ edits statement = edit := by
  obtain ⟨op, x⟩ := ev
  cases op with
  | sql statement =>
      cases x with
      | some x => exact ⟨statement, x, rfl, edited⟩
      | none => exact absurd edited.symm moves
  | _ => exact absurd edited.symm moves

theorem databaseTable_permanent {Row : Type} {rows : Database → List Row} {key : Row → String}
    {edits : Statement → Edit Row} (never : ∀ statement p, edits statement ≠ .delete p) :
    (databaseTable rows key edits).Permanent := by
  intro ev p deletes
  obtain ⟨statement, -, -, edit⟩ := databaseTable_edit deletes (by intro h; cases h)
  exact never statement p edit

theorem usersTable_permanent : usersTable.Permanent :=
  databaseTable_permanent fun statement p => by cases statement <;> intro h <;> cases h

theorem devicesTable_permanent : devicesTable.Permanent :=
  databaseTable_permanent fun statement p => by cases statement <;> intro h <;> cases h

theorem registrationTokensTable_permanent : registrationTokensTable.Permanent :=
  databaseTable_permanent fun statement p => by cases statement <;> intro h <;> cases h

end Smqtt
