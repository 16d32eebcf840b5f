import Smqtt.Runs.Interleaved

/-!
The row of a user in interleaved runs: it stays once it is there, one statement
moves its cutoff and one its suspension.
-/

namespace Smqtt

open AtomicSteps System

variable {A : AppState} {u : String} {user : User}

theorem Statement.execute_user {statement : Statement} {db db' : Database} {x : statement.Answer}
    (executed : statement.execute db = some (x, db')) (row : db.user u = some user) :
    ∃ user', db'.user u = some user' ∧
      (user'.tokensValidFrom = user.tokensValidFrom ∨
        ∃ now, statement = .updateTokensValidFrom now u ∧ user'.tokensValidFrom = now) ∧
      (user'.suspended = user.suspended ∨
        ∃ b r, statement = .updateSuspended b r u ∧ user'.suspended = b) := by
  cases statement with
  | insertUser new =>
      simp only [Statement.execute, Option.ite_none_left_eq_some, Option.some.injEq,
        Prod.mk.injEq] at executed
      obtain ⟨-, -, rfl⟩ := executed
      refine ⟨user, ?_, Or.inl rfl, Or.inl rfl⟩
      have found : (db.users.find? fun v => v.userId = u) = some user := row
      simp only [Database.user, List.find?_append, found, Option.some_or]
  | updateTokensValidFrom now v =>
      obtain ⟨-, rfl⟩ := Prod.mk.inj (Option.some.inj executed)
      simp only [Database.user_updateUser, implies_true, row]
      by_cases own : u = v
      · subst own
        rw [if_pos rfl]
        exact ⟨_, rfl, Or.inr ⟨now, rfl, rfl⟩, Or.inl rfl⟩
      · rw [if_neg own]
        exact ⟨user, rfl, Or.inl rfl, Or.inl rfl⟩
  | updateSuspended b r v =>
      obtain ⟨-, rfl⟩ := Prod.mk.inj (Option.some.inj executed)
      simp only [Database.user_updateUser, implies_true, row]
      by_cases own : u = v
      · subst own
        rw [if_pos rfl]
        exact ⟨_, rfl, Or.inl rfl, Or.inr ⟨b, r, rfl, rfl⟩⟩
      · rw [if_neg own]
        exact ⟨user, rfl, Or.inl rfl, Or.inl rfl⟩
  | _ =>
      refine ⟨user, ?_, Or.inl rfl, Or.inl rfl⟩
      rw [Database.user, (Statement.execute_frame executed).1 (by intro h; cases h)]
      exact row

theorem exec_user {w : World} (op : Op) (row : w.db.user u = some user) :
    ∃ user', (exec A op w).2.db.user u = some user' ∧
      (user'.tokensValidFrom = user.tokensValidFrom ∨
        ∃ now, op = .sql (.updateTokensValidFrom now u) ∧ user'.tokensValidFrom = now) ∧
      (user'.suspended = user.suspended ∨
        ∃ b r, op = .sql (.updateSuspended b r u) ∧ user'.suspended = b) := by
  have same (kept : (exec A op w).2.db.users = w.db.users) : ∃ user',
      (exec A op w).2.db.user u = some user' ∧
      (user'.tokensValidFrom = user.tokensValidFrom ∨
        ∃ now, op = .sql (.updateTokensValidFrom now u) ∧ user'.tokensValidFrom = now) ∧
      (user'.suspended = user.suspended ∨
        ∃ b r, op = .sql (.updateSuspended b r u) ∧ user'.suspended = b) := by
    refine ⟨user, ?_, Or.inl rfl, Or.inl rfl⟩
    rw [Database.user, kept]
    exact row
  cases op with
  | sql statement =>
      rcases exec_sql_cases A w statement with failed | ⟨x, db, -, executed, result⟩
      · exact same (by rw [failed]; rfl)
      · rw [result]
        obtain ⟨user', row', cutoff, suspended⟩ := Statement.execute_user executed row
        refine ⟨user', row', ?_, ?_⟩
        · rcases cutoff with kept | ⟨now, rfl, written⟩
          · exact Or.inl kept
          · exact Or.inr ⟨now, rfl, written⟩
        · rcases suspended with kept | ⟨b, r, rfl, written⟩
          · exact Or.inl kept
          · exact Or.inr ⟨b, r, rfl, written⟩
  | _ => exact same (exec_users A _ w (by intro h; cases h))

/-- An operation leaves a cutoff alone, or is an UPDATE of it that found the row. -/
theorem exec_cutoff {w : World} {ev : Event signature} (answer : ev.answer = (exec A ev.op w).1)
    (row : w.db.user u = some user) : ∃ user', (exec A ev.op w).2.db.user u = some user' ∧
      (user'.tokensValidFrom = user.tokensValidFrom ∨ ∃ rows, rows ≠ 0 ∧
        ev = ⟨.sql (.updateTokensValidFrom user'.tokensValidFrom u), some rows⟩) := by
  obtain ⟨op, response⟩ := ev
  have answer : response = (exec A op w).1 := answer
  obtain ⟨user', row', cutoff, -⟩ := exec_user (A := A) op row
  refine ⟨user', row', ?_⟩
  rcases cutoff with kept | ⟨now, rfl, written⟩
  · exact Or.inl kept
  · rcases exec_sql_cases A w (.updateTokensValidFrom now u) with
      failed | ⟨rows, db, -, executed, result⟩
    · rw [failed] at row'
      exact Or.inl (by rw [Option.some.inj (row.symm.trans row')])
    · obtain ⟨rfl, -⟩ := Prod.mk.inj (Option.some.inj executed)
      rw [result] at answer
      obtain ⟨mem, id⟩ := find_user row
      refine Or.inr ⟨_, ?_, by rw [answer, written]⟩
      exact Nat.ne_of_gt (List.countP_pos_iff.mpr ⟨user, mem, by simpa using id⟩)

theorem Statement.execute_user_origin {statement : Statement} {db db' : Database}
    {x : statement.Answer} (executed : statement.execute db = some (x, db'))
    (row : db'.user u = some user) :
    (∃ old, db.user u = some old) ∨ statement = .insertUser user := by
  cases statement with
  | insertUser new =>
      simp only [Statement.execute, Option.ite_none_left_eq_some, Option.some.injEq,
        Prod.mk.injEq] at executed
      obtain ⟨-, -, rfl⟩ := executed
      cases before : db.user u with
      | some old => exact Or.inl ⟨old, rfl⟩
      | none =>
          have appended : (db.users ++ [new]).find? (fun v => v.userId = u) = some user := row
          rw [List.find?_append, show db.users.find? (fun v => v.userId = u) = none from before,
            Option.none_or] at appended
          obtain rfl := List.mem_singleton.mp (List.mem_of_find?_eq_some appended)
          exact Or.inr rfl
  | updateTokensValidFrom now v =>
      obtain ⟨-, rfl⟩ := Prod.mk.inj (Option.some.inj executed)
      simp only [Database.user_updateUser, implies_true] at row
      split at row
      · obtain ⟨old, before, -⟩ := Option.map_eq_some_iff.mp row
        exact Or.inl ⟨old, before⟩
      · exact Or.inl ⟨user, row⟩
  | updateSuspended b r v =>
      obtain ⟨-, rfl⟩ := Prod.mk.inj (Option.some.inj executed)
      simp only [Database.user_updateUser, implies_true] at row
      split at row
      · obtain ⟨old, before, -⟩ := Option.map_eq_some_iff.mp row
        exact Or.inl ⟨old, before⟩
      · exact Or.inl ⟨user, row⟩
  | _ =>
      rw [Database.user, (Statement.execute_frame executed).1 (by intro h; cases h)] at row
      exact Or.inl ⟨user, row⟩

/-- A row is old, or just inserted. -/
theorem exec_user_origin {w : World} {op : Op} (row : (exec A op w).2.db.user u = some user) :
    (∃ old, w.db.user u = some old) ∨ op = .sql (.insertUser user) := by
  have same (kept : (exec A op w).2.db.users = w.db.users) :
      (∃ old, w.db.user u = some old) ∨ op = .sql (.insertUser user) := by
    rw [Database.user, kept] at row
    exact Or.inl ⟨user, row⟩
  cases op with
  | sql statement =>
      rcases exec_sql_cases A w statement with failed | ⟨x, db, -, executed, result⟩
      · exact same (by rw [failed]; rfl)
      · rw [result] at row
        exact (Statement.execute_user_origin executed row).imp id fun inserted => by rw [inserted]
  | _ => exact same (exec_users A _ w (by intro h; cases h))

/-- New accounts are not suspended and have no cutoff. -/
theorem handle_newUser_sat (c : Call) : Prog.Sat
    (fun (_ : List (Event signature)) ev => ev.op.kind = .insertUser →
      ∃ id now, ev.op = .sql (.insertUser ⟨id, now, false, none, 0⟩))
    (fun _ _ => True) [] (handle A c) := by
  cases c
  case register req =>
    refine reply_sat ((register_insertsUser req).sat fun _ ev inserts kind => ?_)
    rcases inserts with other | new
    · exact absurd (by rw [Op.part, kind]; rfl) other
    · exact new
  all_goals exact spared_sat .insertUser (by decide) rfl

/-- A cutoff that is not zero was written by an UPDATE that found the row. -/
theorem cutoff_written {allowed : Scheduling} {h : PoolLog} {s : Threads}
    (run : PoolRun A allowed h s) (row : s.world.db.user u = some user)
    (moved : user.tokensValidFrom ≠ 0) : ∃ n i rows, rows ≠ 0 ∧
      At h n i ⟨.sql (.updateTokensValidFrom user.tokensValidFrom u), some rows⟩ := by
  obtain ⟨n, i, ev, e, placed, at_n, absent, present, -⟩ := introduced_by run
    (P := fun w => ∃ x, w.db.user u = some x ∧ x.tokensValidFrom = user.tokensValidFrom)
    (by rintro ⟨x, row, -⟩; cases row) (fun x w => by cases x <;> exact fun h => h)
    ⟨user, row, rfl⟩
  obtain ⟨x, after, written⟩ := present
  have answer := (placed.exec run at_n).1
  obtain ⟨op, response⟩ := ev
  have answer : response = (exec A op e.before.world).1 := answer
  have after : (exec A op e.before.world).2.db.user u = some x := after
  rcases exec_user_origin after with ⟨old, before⟩ | rfl
  · obtain ⟨x', after', cutoff⟩ :=
      exec_cutoff (show Event.answer ⟨op, response⟩ = (exec A op _).1 from answer) before
    obtain rfl := Option.some.inj (after.symm.trans after')
    rcases cutoff with kept | ⟨rows, found, update⟩
    · exact absurd ⟨old, before, kept.symm.trans written⟩ absent
    · rw [update, written] at placed
      exact ⟨n, i, rows, found, placed⟩
  · -- an account starts without a cutoff
    obtain ⟨c, -, spec⟩ := placed.sat run handle_newUser_sat
    obtain ⟨id, now, inserted⟩ := spec rfl
    obtain rfl := Statement.insertUser.inj (Op.sql.inj inserted)
    exact absurd written.symm moved

/-- A user that a SELECT has found is there from then on. -/
theorem known_since {allowed : Scheduling} {h : PoolLog} {s : Threads} {j m n : Nat}
    {e : PoolEntry signature World Call Env Error Reply} (run : PoolRun A allowed h s)
    {user : User} (found : At h m j ⟨.sql (.selectUser u), some (some user)⟩) (lt : m < n)
    (at_n : h[n]? = some e) : e.before.world.db.hasUser u = true := by
  obtain ⟨f, at_m⟩ := found.entry
  obtain ⟨db, executed, -⟩ := answered_by run found at_m
  obtain ⟨row, -⟩ := Prod.mk.inj (Option.some.inj executed)
  exact (database_extends (run.take at_n).1 ((List.getElem?_take_of_lt lt).trans at_m)).users u
    (Database.hasUser_of_user row)

end Smqtt
