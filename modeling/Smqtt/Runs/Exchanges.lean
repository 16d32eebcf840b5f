import Smqtt.Api.ExchangeEvents
import Smqtt.Runs.Interleaved

/-!
The rows of the key exchange in interleaved runs: which operations add, change
and remove them, and that with fresh ids a row is told apart by its id for the
whole run.
-/

namespace Smqtt

open AtomicSteps System

/-- What never changes in a row. -/
def PendingExchange.sealed (row : PendingExchange) : PendingExchange :=
  { row with responderPubkey := none }

theorem PendingExchange.of_sealed {row row' : PendingExchange} (h : row.sealed = row') :
    row.exchangeId = row'.exchangeId ∧ row.initiatorId = row'.initiatorId ∧
      row.responderId = row'.responderId ∧ row.initiatorPubkey = row'.initiatorPubkey := by
  subst h
  exact ⟨rfl, rfl, rfl, rfl⟩

theorem Statement.execute_exchange_origin {statement : Statement} {db db' : Database}
    {x : statement.Answer} (executed : statement.execute db = some (x, db'))
    {row : PendingExchange} (h : row ∈ db'.pendingExchanges) :
    row ∈ db.pendingExchanges ∨ statement = .insertExchange row ∨
    ∃ key old, statement = .updateResponderPubkey key old.exchangeId ∧
      old ∈ db.pendingExchanges ∧ row = { old with responderPubkey := some key } := by
  cases statement with
  | insertExchange new =>
      simp only [Statement.execute, Option.ite_none_left_eq_some, Option.some.injEq,
        Prod.mk.injEq] at executed
      obtain ⟨-, -, rfl⟩ := executed
      rcases List.mem_append.mp h with old | new
      · exact Or.inl old
      · obtain rfl := List.mem_singleton.mp new
        exact Or.inr (Or.inl rfl)
  | updateResponderPubkey key e =>
      obtain ⟨-, rfl⟩ := Prod.mk.inj (Option.some.inj executed)
      obtain ⟨old, mem, rfl⟩ := mem_updateWhere.mp h
      split
      · rename_i same
        obtain rfl := of_decide_eq_true same
        exact Or.inr (Or.inr ⟨key, old, rfl, mem, rfl⟩)
      · exact Or.inl mem
  | deleteExchange e =>
      obtain ⟨-, rfl⟩ := Prod.mk.inj (Option.some.inj executed)
      exact Or.inl (List.mem_filter.mp h).1
  | purgeExchanges now =>
      obtain ⟨-, rfl⟩ := Prod.mk.inj (Option.some.inj executed)
      exact Or.inl (List.mem_filter.mp h).1
  | _ =>
      rw [(Statement.execute_frame executed).2.2.2.1 (by intro h; cases h)] at h
      exact Or.inl h

theorem Statement.execute_exchange_kept {statement : Statement} {db db' : Database}
    {x : statement.Answer} (executed : statement.execute db = some (x, db'))
    {row : PendingExchange} (mem : row ∈ db.pendingExchanges) :
    (∃ row' ∈ db'.pendingExchanges, row'.sealed = row.sealed ∧
      (row.responderPubkey.isSome = true → row'.responderPubkey.isSome = true)) ∨
    statement = .deleteExchange row.exchangeId ∨
    ∃ now, statement = .purgeExchanges now ∧ row.expiresAt < now := by
  cases statement with
  | insertExchange new =>
      simp only [Statement.execute, Option.ite_none_left_eq_some, Option.some.injEq,
        Prod.mk.injEq] at executed
      obtain ⟨-, -, rfl⟩ := executed
      exact Or.inl ⟨row, List.mem_append_left _ mem, rfl, fun h => h⟩
  | updateResponderPubkey key e =>
      obtain ⟨-, rfl⟩ := Prod.mk.inj (Option.some.inj executed)
      refine Or.inl ⟨_, mem_updateWhere.mpr ⟨row, mem, rfl⟩, ?_⟩
      split
      · exact ⟨rfl, fun _ => rfl⟩
      · exact ⟨rfl, fun h => h⟩
  | deleteExchange e =>
      obtain ⟨-, rfl⟩ := Prod.mk.inj (Option.some.inj executed)
      by_cases id : row.exchangeId = e
      · exact Or.inr (Or.inl (by rw [id]))
      · exact Or.inl ⟨row, List.mem_filter.mpr ⟨mem, by simpa using id⟩, rfl, fun h => h⟩
  | purgeExchanges now =>
      obtain ⟨-, rfl⟩ := Prod.mk.inj (Option.some.inj executed)
      by_cases expired : row.expiresAt < now
      · exact Or.inr (Or.inr ⟨now, rfl, expired⟩)
      · exact Or.inl ⟨row, List.mem_filter.mpr ⟨mem, by simpa using expired⟩, rfl, fun h => h⟩
  | _ =>
      rw [← (Statement.execute_frame executed).2.2.2.1 (by intro h; cases h)] at mem
      exact Or.inl ⟨row, mem, rfl, fun h => h⟩

section
variable {A : AppState} {op : Op} {w : World} {row : PendingExchange}

/-- A row after an operation was there before, was just inserted, or has just got a
responder key. -/
theorem exec_exchange_origin (h : row ∈ (exec A op w).2.db.pendingExchanges) :
    row ∈ w.db.pendingExchanges ∨
    (∃ x, (⟨op, (exec A op w).1⟩ : Event signature) = ⟨.sql (.insertExchange row), some x⟩) ∨
    ∃ key old, op = .sql (.updateResponderPubkey key old.exchangeId) ∧
      A.outside.fails w.statements = false ∧ old ∈ w.db.pendingExchanges ∧
      row = { old with responderPubkey := some key } := by
  cases op with
  | sql statement =>
      rcases exec_sql_cases A w statement with failed | ⟨x, db, answers, executed, result⟩
      · rw [failed] at h
        exact Or.inl h
      · rw [result] at h
        rcases Statement.execute_exchange_origin executed h with
          old | rfl | ⟨key, old, rfl, mem, rfl⟩
        · exact Or.inl old
        · exact Or.inr (Or.inl ⟨x, by rw [result]⟩)
        · exact Or.inr (Or.inr ⟨key, old, rfl, answers, mem, rfl⟩)
  | forward session topic =>
      rw [exec_exchanges A (.forward session topic) w nofun] at h
      exact Or.inl h
  | _ => exact Or.inl h

/-- An operation keeps a row and its key, but for the two deletes. -/
theorem exec_exchange_kept (op : Op) (mem : row ∈ w.db.pendingExchanges) :
    (∃ row' ∈ (exec A op w).2.db.pendingExchanges, row'.sealed = row.sealed ∧
      (row.responderPubkey.isSome = true → row'.responderPubkey.isSome = true)) ∨
    op = .sql (.deleteExchange row.exchangeId) ∨
    ∃ now, op = .sql (.purgeExchanges now) ∧ row.expiresAt < now := by
  have same : (∃ row' ∈ w.db.pendingExchanges, row'.sealed = row.sealed ∧
      (row.responderPubkey.isSome = true → row'.responderPubkey.isSome = true)) :=
    ⟨row, mem, rfl, fun h => h⟩
  cases op with
  | sql statement =>
      rcases exec_sql_cases A w statement with failed | ⟨x, db, -, executed, result⟩
      · rw [failed]
        exact Or.inl same
      · rw [result]
        rcases Statement.execute_exchange_kept executed mem with
          kept | rfl | ⟨now, rfl, expired⟩
        · exact Or.inl kept
        · exact Or.inr (Or.inl rfl)
        · exact Or.inr (Or.inr ⟨now, rfl, expired⟩)
  | forward session topic =>
      rw [exec_exchanges A (.forward session topic) w nofun]
      exact Or.inl same
  | _ => exact Or.inl same

end

theorem Initiating.row_sealed {A : AppState} {req : Exchange.InitiateRequest}
    (x : Initiating A req) : x.row.sealed = x.row := by
  simp only [PendingExchange.sealed, Initiating.row]

section
variable {A : AppState} {allowed : Scheduling} {h : PoolLog} {s : Threads} {i j m n : Nat}
  {row row' : PendingExchange}

/-- The passage of `initiate` behind an inserted row. -/
theorem inserted_by (run : PoolRun A allowed h s) {x : Option Unit}
    (a : At h n i ⟨.sql (.insertExchange row), x⟩) :
    ∃ authorization req, ∃ y : Initiating A req,
      (requests (h.take n))[i]? = some (.initiateExchange authorization req) ∧
        eventsOf i (h.take n) = y.events ∧ row = y.row := by
  obtain ⟨c, request, spec⟩ := a.sat run handle_insertExchange_sat
  obtain ⟨authorization, req, y, rfl, seen, op⟩ := spec rfl
  exact ⟨authorization, req, y, request, seen, Statement.insertExchange.inj (Op.sql.inj op)⟩

/-- An exchange id is inserted once. -/
theorem inserted_once (fresh : FreshIds A) (run : PoolRun A allowed h s) {x y : Option Unit}
    (a : At h m i ⟨.sql (.insertExchange row), x⟩)
    (b : At h n j ⟨.sql (.insertExchange row'), y⟩) (same : row.exchangeId = row'.exchangeId) :
    m = n := by
  obtain ⟨_, _, v, -, seen, rfl⟩ := inserted_by run a
  obtain ⟨_, _, v', -, seen', rfl⟩ := inserted_by run b
  obtain ⟨k, -, drawn, -⟩ := at_of_eventsOf [_, _] seen
  obtain ⟨k', -, drawn', -⟩ := at_of_eventsOf [_, _] seen'
  have same : v.exchangeId = v'.exchangeId := same
  rw [← same] at drawn'
  obtain rfl := uuid_once fresh run drawn drawn'
  obtain ⟨rfl, -⟩ := drawn.unique drawn'
  refine a.position_eq b ?_
  rw [seen, seen']
  rfl

/-- A row that is present was inserted, and only its responder key may have changed. -/
theorem row_inserted (run : PoolRun A allowed h s)
    (mem : row ∈ s.world.db.pendingExchanges) :
    ∃ n i x, At h n i ⟨.sql (.insertExchange row.sealed), some x⟩ := by
  obtain ⟨n, i, ev, e, placed, at_n, absent, present, -⟩ := introduced_by run
    (P := fun w => ∃ r ∈ w.db.pendingExchanges, r.sealed = row.sealed)
    (by rintro ⟨r, mem, -⟩; cases mem) (fun x w => by cases x <;> exact fun h => h)
    ⟨row, mem, rfl⟩
  obtain ⟨r, mem, same⟩ := present
  have answer := (placed.exec run at_n).1
  rcases exec_exchange_origin mem with old | ⟨x, inserted⟩ |
    ⟨key, old, -, -, before, rfl⟩
  · exact absurd ⟨r, old, same⟩ absent
  · have event : ev = ⟨.sql (.insertExchange r), some x⟩ := by
      obtain ⟨op, response⟩ := ev
      have answer : response = (exec A op e.before.world).1 := answer
      subst answer
      exact inserted
    rw [event] at placed
    obtain ⟨_, _, y, -, -, rfl⟩ := inserted_by run placed
    rw [y.row_sealed] at same
    rw [same] at placed
    exact ⟨n, i, x, placed⟩
  · exact absurd ⟨old, before, same⟩ absent

theorem row_inserted_before (run : PoolRun A allowed h s)
    {e : PoolEntry signature World Call Env Error Reply} (at_n : h[n]? = some e)
    (mem : row ∈ e.before.world.db.pendingExchanges) :
    ∃ m < n, ∃ i x, At h m i ⟨.sql (.insertExchange row.sealed), some x⟩ := by
  obtain ⟨m, i, x, placed⟩ := row_inserted (run.take at_n).1 mem
  exact ⟨m, placed.lt_of_take, i, x, (at_take placed.lt_of_take).mp placed⟩

/-- Rows with one id, at whatever times, differ in the responder key only. -/
theorem same_exchange (fresh : FreshIds A) (run : PoolRun A allowed h s)
    {e e' : PoolEntry signature World Call Env Error Reply} (at_m : h[m]? = some e)
    (mem : row ∈ e.before.world.db.pendingExchanges) (at_n : h[n]? = some e')
    (mem' : row' ∈ e'.before.world.db.pendingExchanges) (same : row.exchangeId = row'.exchangeId) :
    row.sealed = row'.sealed := by
  obtain ⟨k, -, i, x, placed⟩ := row_inserted_before run at_m mem
  obtain ⟨k', -, i', x', placed'⟩ := row_inserted_before run at_n mem'
  obtain rfl := inserted_once fresh run placed placed' same
  have event := (placed.unique placed').2
  exact Statement.insertExchange.inj (Op.sql.inj (congrArg Event.op event))

/-- A selected row is in the table. -/
theorem selected_row (run : PoolRun A allowed h s) {id : String}
    (a : At h n i ⟨.sql (.selectExchange id), some (some row)⟩)
    {e : PoolEntry signature World Call Env Error Reply} (at_n : h[n]? = some e) :
    row ∈ e.before.world.db.pendingExchanges ∧ row.exchangeId = id := by
  have answer : some (some row) = (exec A (.sql (.selectExchange id)) e.before.world).1 :=
    (a.exec run at_n).1
  rcases exec_sql_cases A e.before.world (.selectExchange id) with
    failed | ⟨y, db, -, executed, result⟩
  · rw [failed] at answer
    cases answer
  · rw [result] at answer
    have found : e.before.world.db.exchange id = some row :=
      (Prod.mk.inj (Option.some.inj executed)).1.trans (Option.some.inj answer).symm
    exact find_exchange found

/-- The row an exchange handler has read is the inserted one, up to its key. -/
theorem read_sealed (fresh : FreshIds A) (run : PoolRun A allowed h s)
    {x : Option Unit}
    (inserted : At h n i ⟨.sql (.insertExchange row), x⟩) {read : PendingExchange}
    (select : At h m j ⟨.sql (.selectExchange row.exchangeId), some (some read)⟩) :
    read.sealed = row := by
  obtain ⟨c, at_m⟩ := select.entry
  obtain ⟨mem, id⟩ := selected_row run select at_m
  obtain ⟨k, -, l, y, placed⟩ := row_inserted_before run at_m mem
  obtain rfl := inserted_once fresh run placed inserted id
  have event := (placed.unique inserted).2
  exact Statement.insertExchange.inj (Op.sql.inj (congrArg Event.op event))

/-- A key that is there was written by an operation. -/
theorem key_written (run : PoolRun A allowed h s) {row' : PendingExchange} {key : List UInt8}
    (mem : row' ∈ s.world.db.pendingExchanges) (has : row'.responderPubkey = some key) :
    ∃ m i rows, At h m i ⟨.sql (.updateResponderPubkey key row'.exchangeId), rows⟩ := by
  obtain ⟨m, i, ev, e, placed, at_m, absent, present, -⟩ := introduced_by run
    (P := fun w => ∃ r ∈ w.db.pendingExchanges,
      r.exchangeId = row'.exchangeId ∧ r.responderPubkey = some key)
    (by rintro ⟨r, mem, -⟩; cases mem) (fun x w => by cases x <;> exact fun h => h)
    ⟨row', mem, rfl, has⟩
  obtain ⟨r, mem, id, has⟩ := present
  obtain ⟨op, response⟩ := ev
  rcases exec_exchange_origin mem with old | ⟨y, inserts⟩ | ⟨key', old, op, -, before, rfl⟩
  · exact absurd ⟨r, old, id, has⟩ absent
  · -- a row is inserted without a key
    have answer : response = (exec A op e.before.world).1 := (placed.exec run at_m).1
    subst answer
    rw [inserts] at placed
    obtain ⟨_, _, z, -, -, rfl⟩ := inserted_by run placed
    cases has
  · obtain rfl : key' = key := Option.some.inj has
    obtain rfl := op
    rw [← id]
    exact ⟨m, i, response, placed⟩

/-- With fresh ids, the next id names no stored row. -/
theorem next_exchange_id_free (fresh : FreshIds A) (run : PoolRun A allowed h s)
    (mem : row ∈ s.world.db.pendingExchanges) :
    row.exchangeId ≠ A.outside.uuid s.world.draws := by
  obtain ⟨n, i, x, inserted⟩ := row_inserted run mem
  obtain ⟨_, _, y, -, seen, same⟩ := inserted_by run inserted
  obtain ⟨m, -, at_m, -⟩ := at_of_eventsOf [_, _] seen
  obtain ⟨d, used, drawn, -⟩ := uuid_drawn run at_m
  intro next
  have id : y.exchangeId = row.exchangeId := (PendingExchange.of_sealed same).1.symm
  have := fresh (drawn.symm.trans (id.trans next))
  omega

end
end Smqtt
