import Smqtt.Api.RelationshipEvents
import Smqtt.Runs.Interleaved

/-!
The relationship rows in interleaved runs: a row goes back to the request of its
owner that stored it, under an id drawn for it.
-/

namespace Smqtt

open AtomicSteps System

/-- A row is stored by its insert only. -/
theorem Statement.execute_relationship_origin {statement : Statement} {db db' : Database}
    {x : statement.Answer} (executed : statement.execute db = some (x, db'))
    {row : Relationship} (h : row ∈ db'.relationships) :
    row ∈ db.relationships ∨ statement = .insertRelationship row := by
  cases statement with
  | insertRelationship new =>
      simp only [Statement.execute, Option.ite_none_left_eq_some, Option.some.injEq,
        Prod.mk.injEq] at executed
      obtain ⟨-, -, rfl⟩ := executed
      rcases List.mem_append.mp h with old | new
      · exact Or.inl old
      · obtain rfl := List.mem_singleton.mp new
        exact Or.inr rfl
  | deleteRelationship r u =>
      obtain ⟨-, rfl⟩ := Prod.mk.inj (Option.some.inj executed)
      exact Or.inl (List.mem_filter.mp h).1
  | _ =>
      rw [(Statement.execute_frame executed).2.2.1 (by intro h; cases h)] at h
      exact Or.inl h

theorem exec_relationship_origin {A : AppState} {op : Op} {w : World} {row : Relationship}
    (h : row ∈ (exec A op w).2.db.relationships) :
    row ∈ w.db.relationships ∨ op = .sql (.insertRelationship row) := by
  cases op with
  | sql statement =>
      rcases exec_sql_cases A w statement with failed | ⟨x, db, -, executed, result⟩
      · rw [failed] at h
        exact Or.inl h
      · rw [result] at h
        rcases Statement.execute_relationship_origin executed h with old | rfl
        · exact Or.inl old
        · exact Or.inr rfl
  | forward session topic =>
      rw [exec_relationships A (.forward session topic) w nofun] at h
      exact Or.inl h
  | _ => exact Or.inl h

/-- A row goes by the delete of its owner only. -/
theorem Statement.execute_relationship_kept {statement : Statement} {db db' : Database}
    {x : statement.Answer} (executed : statement.execute db = some (x, db'))
    {row : Relationship} (mem : row ∈ db.relationships) :
    row ∈ db'.relationships ∨ statement = .deleteRelationship row.relationshipId row.userId := by
  cases statement with
  | insertRelationship new =>
      simp only [Statement.execute, Option.ite_none_left_eq_some, Option.some.injEq,
        Prod.mk.injEq] at executed
      obtain ⟨-, -, rfl⟩ := executed
      exact Or.inl (List.mem_append_left _ mem)
  | deleteRelationship r u =>
      obtain ⟨-, rfl⟩ := Prod.mk.inj (Option.some.inj executed)
      by_cases named : row.relationshipId = r ∧ row.userId = u
      · obtain ⟨rfl, rfl⟩ := named
        exact Or.inr rfl
      · exact Or.inl (List.mem_filter.mpr ⟨mem, by simpa [imp_iff_not_or] using named⟩)
  | _ =>
      rw [← (Statement.execute_frame executed).2.2.1 (by intro h; cases h)] at mem
      exact Or.inl mem

theorem exec_relationship_kept {A : AppState} (op : Op) {w : World} {row : Relationship}
    (mem : row ∈ w.db.relationships) : row ∈ (exec A op w).2.db.relationships ∨
      op = .sql (.deleteRelationship row.relationshipId row.userId) := by
  cases op with
  | sql statement =>
      rcases exec_sql_cases A w statement with failed | ⟨x, db, -, executed, result⟩
      · rw [failed]
        exact Or.inl mem
      · rw [result]
        rcases Statement.execute_relationship_kept executed mem with kept | rfl
        · exact Or.inl kept
        · exact Or.inr rfl
  | forward session topic =>
      rw [exec_relationships A (.forward session topic) w nofun]
      exact Or.inl mem
  | _ => exact Or.inl mem

section
variable {A : AppState} {allowed : Scheduling} {h : PoolLog} {s : Threads} {row : Relationship}

/-- Behind a row stands the passage of `create` that inserted it. -/
theorem relationship_inserted (run : PoolRun A allowed h s)
    (mem : row ∈ s.world.db.relationships) :
    ∃ n i authorization req, ∃ y : Granting authorization,
      At h n i ⟨.sql (.insertRelationship row), some ()⟩ ∧
        (requests (h.take n))[i]? = some (.createRelationship authorization req) ∧
          eventsOf i (h.take n) = y.events ∧ row = y.row req := by
  obtain ⟨n, i, ev, e, placed, at_n, absent, present, -⟩ := introduced_by run
    (P := fun w => row ∈ w.db.relationships) (fun mem => nomatch mem)
    (fun x w => by cases x <;> exact fun h => h) mem
  rcases exec_relationship_origin present with old | inserts
  · exact absurd old absent
  · obtain ⟨op, x⟩ := ev
    obtain rfl : op = .sql (.insertRelationship row) := inserts
    obtain ⟨c, request, spec⟩ := placed.sat run handle_insertRelationship_sat
    obtain ⟨authorization, req, y, rfl, seen, op⟩ := spec rfl
    refine ⟨n, i, authorization, req, y, ?_, request, seen,
      Statement.insertRelationship.inj (Op.sql.inj op)⟩
    rcases exec_sql_cases A e.before.world (.insertRelationship row) with
      failed | ⟨answer, db, -, -, result⟩
    · have present : row ∈
          (exec A (.sql (.insertRelationship row)) e.before.world).2.db.relationships := present
      rw [failed] at present
      exact absurd present absent
    · have answered := (placed.exec run at_n).1
      rwa [show x = some () from answered.trans (congrArg Prod.fst result)] at placed

/-- Between the two positions no relationship of the user is deleted. -/
def Unrevoked (h : PoolLog) (u : String) (m n : Nat) : Prop :=
  ∀ k i r x, m ≤ k → k < n → ¬At h k i ⟨.sql (.deleteRelationship r u), x⟩

/-- An inserted row that is not revoked is there. -/
theorem inserted_kept (run : PoolRun A allowed h s) {m n i : Nat}
    (inserted : At h m i ⟨.sql (.insertRelationship row), some ()⟩) (lt : m < n)
    (unrevoked : Unrevoked h row.userId m n)
    {e : PoolEntry signature World Call Env Error Reply} (at_n : h[n]? = some e) :
    row ∈ e.before.world.db.relationships := by
  obtain ⟨c, at_m⟩ := inserted.entry
  refine ((at_take lt).mpr inserted).onward (run.take at_n).1
    (I := fun w => row ∈ w.db.relationships) (by rw [List.getElem?_take_of_lt lt]; exact at_m)
    ?_ ?_ ?_
  · obtain ⟨db, executed, after⟩ := answered_by run inserted at_m
    rw [← (inserted.exec run at_m).2, after]
    simp only [Statement.execute, Option.ite_none_left_eq_some, Option.some.injEq,
      Prod.mk.injEq] at executed
    obtain ⟨-, -, rfl⟩ := executed
    exact List.mem_append_right _ (List.mem_singleton_self row)
  · intro k j ev c' gt a _ before
    rcases exec_relationship_kept (A := A) ev.op before with kept | deletes
    · exact kept
    · obtain ⟨op, x⟩ := ev
      obtain rfl : op = _ := deletes
      have below := a.lt_of_take
      exact absurd ((at_take below).mp a) (unrevoked k j _ x (Nat.le_of_lt gt) below)
  · intro x w before
    cases x <;> exact before

/-- With fresh ids, the next id names no stored row. -/
theorem next_id_free (fresh : FreshIds A) (run : PoolRun A allowed h s)
    (mem : row ∈ s.world.db.relationships) :
    row.relationshipId ≠ A.outside.uuid s.world.draws := by
  obtain ⟨n, i, _, _, y, -, -, seen, rfl⟩ := relationship_inserted run mem
  obtain ⟨m, -, at_m, -⟩ := at_of_eventsOf [_] seen
  obtain ⟨d, used, drawn, -⟩ := uuid_drawn run at_m
  intro same
  have same : y.relationshipId = A.outside.uuid s.world.draws := same
  have := fresh (drawn.symm.trans same)
  omega

end
end Smqtt
