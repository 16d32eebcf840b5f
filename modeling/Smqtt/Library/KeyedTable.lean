import Smqtt.Library.Refinement

/-!
Tables with a primary key, as lists of rows and as maps. An edit of the list is an edit
of the row under every single key, so each key has a history of its own: its row is
inserted, updated and deleted. When no key is inserted twice a deleted row does not
come back, and what the updates preserve is preserved from any position of a run to any
later one.
-/

namespace AtomicSteps

variable {Row Key : Type}

/-- What one statement does to a table. -/
inductive Edit (Row : Type)
  | keep
  | insert (row : Row)
  | update (p : Row → Bool) (f : Row → Row)
  | delete (p : Row → Bool)

namespace Edit

def apply : Edit Row → List Row → List Row
  | .keep, rows => rows
  | .insert row, rows => rows ++ [row]
  | .update p f, rows => rows.map fun r => if p r then f r else r
  | .delete p, rows => rows.filter fun r => !p r

/-- The effect on what stands under one key. -/
def onKey [DecidableEq Key] (key : Row → Key) (k : Key) : Edit Row → Option Row → Option Row
  | .keep, x => x
  | .insert row, x => if key row = k then some row else x
  | .update p f, x => x.map fun r => if p r then f r else r
  | .delete p, x => x.filter fun r => !p r

/-- The primary key is respected: a new row has a new key, and updates leave keys alone. -/
def Respects (key : Row → Key) (rows : List Row) : Edit Row → Prop
  | .keep | .delete _ => True
  | .insert row => ∀ r ∈ rows, key r ≠ key row
  | .update p f => ∀ r, p r = true → key (f r) = key r

variable {key : Row → Key} {rows : List Row} {edit : Edit Row}

theorem Respects.nodup (respects : edit.Respects key rows) (nodup : (rows.map key).Nodup) :
    ((edit.apply rows).map key).Nodup := by
  cases edit with
  | keep => exact nodup
  | insert row =>
      rw [apply, List.map_append, List.nodup_append]
      refine ⟨nodup, List.nodup_singleton _, ?_⟩
      intro a old b new same
      obtain ⟨r, mem, rfl⟩ := List.mem_map.mp old
      obtain rfl : b = key row := List.mem_singleton.mp new
      exact respects r mem same
  | update p f =>
      have keys : (apply (.update p f) rows).map key = rows.map key := by
        rw [apply, List.map_map]
        refine List.map_congr_left fun r _ => ?_
        by_cases hit : p r = true
        · simpa [hit] using respects r hit
        · simp [hit]
      rwa [keys]
  | delete p => exact nodup.sublist (List.filter_sublist.map key)

variable [DecidableEq Key] {k : Key}

/-- The row under a key. -/
def lookup (key : Row → Key) (k : Key) (rows : List Row) : Option Row :=
  rows.find? fun r => key r = k

theorem lookup_some {row : Row} (found : lookup key k rows = some row) :
    row ∈ rows ∧ key row = k :=
  ⟨List.mem_of_find?_eq_some found, by simpa using List.find?_some found⟩

theorem lookup_none : lookup key k rows = none ↔ ∀ r ∈ rows, key r ≠ k := by
  simp [lookup, List.find?_eq_none]

theorem lookup_of_mem (nodup : (rows.map key).Nodup) {row : Row} (mem : row ∈ rows) :
    lookup key (key row) rows = some row := by
  cases found : lookup key (key row) rows with
  | none => exact absurd rfl (lookup_none.mp found row mem)
  | some row' =>
      obtain ⟨mem', same⟩ := lookup_some found
      rw [List.inj_on_of_nodup_map nodup mem' mem same]

/-- An edit of the table is an edit under every key. -/
theorem Respects.lookup_apply (respects : edit.Respects key rows)
    (nodup : (rows.map key).Nodup) (k : Key) :
    lookup key k (edit.apply rows) = edit.onKey key k (lookup key k rows) := by
  cases edit with
  | keep => rfl
  | insert row =>
      rw [apply, lookup, List.find?_append, onKey]
      by_cases own : key row = k
      · have absent : rows.find? (fun r => decide (key r = k)) = none :=
          lookup_none.mpr fun r mem => own ▸ respects r mem
        simp [absent, own]
      · simp [own, lookup]
  | update p f =>
      have same : ((fun r => decide (key r = k)) ∘ fun r => if p r then f r else r) =
          fun r => decide (key r = k) := by
        funext r
        by_cases hit : p r = true
        · simp [hit, respects r hit]
        · simp [hit]
      rw [apply, lookup, List.find?_map, same]
      rfl
  | delete p =>
      rw [apply, onKey]
      cases found : lookup key k rows with
      | none =>
          rw [Option.filter_none]
          exact lookup_none.mpr fun r mem =>
            lookup_none.mp found r (List.mem_of_mem_filter mem)
      | some row =>
          obtain ⟨mem, rfl⟩ := lookup_some found
          by_cases hit : p row = true
          · rw [Option.filter_some, if_neg (by simp [hit])]
            refine lookup_none.mpr fun r mem' same => ?_
            obtain ⟨old, left⟩ := List.mem_filter.mp mem'
            rw [List.inj_on_of_nodup_map nodup old mem same, hit] at left
            cases left
          · rw [Option.filter_some, if_pos (by simpa using hit)]
            refine lookup_of_mem (nodup.sublist (List.filter_sublist.map key)) ?_
            exact List.mem_filter.mpr ⟨mem, by simpa using hit⟩

end Edit

/-- What has become of a key. -/
inductive Phase (Row : Type)
  | unknown
  | present (row : Row)
  | gone
  deriving DecidableEq

/-- Later than a phase: a row stays in relation to itself or goes, and nothing returns. -/
inductive Phase.Onward (R : Row → Row → Prop) : Phase Row → Phase Row → Prop
  | unknown (q : Phase Row) : Onward R .unknown q
  | kept {row row' : Row} (related : R row row') : Onward R (.present row) (.present row')
  | gone (p : Phase Row) : Onward R p .gone

/-- A table of the world, and what each operation with its answer does to it. -/
structure Table (S : Signature) (W Row Key : Type) where
  rows : W → List Row
  key : Row → Key
  edit : Event S → Edit Row

namespace Table

variable {S : Signature} {W Req Env ε α : Type} [DecidableEq Key]

section
variable (T : Table S W Row Key)

/-- The event inserts a row under the key. -/
def inserts (k : Key) (ev : Event S) : Bool :=
  match T.edit ev with
  | .insert row => T.key row = k
  | _ => false

def phase (k : Key) (es : List (Event S)) (w : W) : Phase Row :=
  match Edit.lookup T.key k (T.rows w) with
  | some row => .present row
  | none => if es.any (T.inserts k) then .gone else .unknown

/-- How an operation moves a key. -/
inductive Moves (k : Key) (ev : Event S) : Phase Row → Phase Row → Prop
  | insert {row : Row} (edit : T.edit ev = .insert row) (key : T.key row = k) :
      Moves k ev .unknown (.present row)
  | update {p : Row → Bool} {f : Row → Row} {row : Row} (edit : T.edit ev = .update p f)
      (hit : p row = true) : Moves k ev (.present row) (.present (f row))
  | delete {p : Row → Bool} {row : Row} (edit : T.edit ev = .delete p) (hit : p row = true) :
      Moves k ev (.present row) .gone

/-- The operations of the system do to the table what its edits say. -/
structure Serves (Y : System S W Req Env ε α) : Prop where
  start : T.rows Y.start = []
  env : ∀ x w, T.rows (Y.environment x w) = T.rows w
  exec : ∀ op w, T.rows (Y.exec op w).2 = (T.edit ⟨op, (Y.exec op w).1⟩).apply (T.rows w)
  respects : ∀ op w, (T.edit ⟨op, (Y.exec op w).1⟩).Respects T.key (T.rows w)

/-- No row is ever deleted. -/
def Permanent : Prop := ∀ ev p, T.edit ev ≠ .delete p

end

variable {T : Table S W Row Key} {k : Key} {es : List (Event S)} {ev : Event S} {w : W}

theorem inserts_eq {row : Row} (edit : T.edit ev = .insert row) :
    T.inserts k ev = decide (T.key row = k) := by
  rw [inserts, edit]

theorem inserts_iff : T.inserts k ev = true ↔ ∃ row, T.edit ev = .insert row ∧ T.key row = k := by
  unfold inserts
  cases edit : T.edit ev <;> simp

theorem phase_present {row : Row} (found : Edit.lookup T.key k (T.rows w) = some row) :
    T.phase k es w = .present row := by
  rw [phase, found]

theorem phase_absent (absent : Edit.lookup T.key k (T.rows w) = none) :
    T.phase k es w = if es.any (T.inserts k) then .gone else .unknown := by
  rw [phase, absent]

section
variable {Y : System S W Req Env ε α}
  {allowed : Assumption (Pool S W Req ε α) (PoolAction Req Env) (Option (Event S))}
  {h : System.PoolHistory S W Req Env ε α} {s : Pool S W Req ε α}

/-- No key is inserted a second time. -/
def Once (T : Table S W Row Key) (h : System.PoolHistory S W Req Env ε α) : Prop :=
  ∀ n i ev row, System.At h n i ev → T.edit ev = .insert row →
    (System.events (h.take n)).any (T.inserts (T.key row)) = false

omit [DecidableEq Key] in
theorem Serves.nodup (serves : T.Serves Y) (run : Run Y.pool allowed h s) :
    ((T.rows s.world).map T.key).Nodup := by
  refine System.pool_invariant (I := fun w => ((T.rows w).map T.key).Nodup) ?_ ?_ ?_ run
  · rw [serves.start]
    exact .nil
  · intro op w nodup
    rw [serves.exec]
    exact (serves.respects op w).nodup nodup
  · intro x w nodup
    rwa [serves.env]

/-- At a position of a run the operation edits the row under every key. -/
theorem Serves.lookup_at (serves : T.Serves Y) (run : Run Y.pool allowed h s) {n i : Nat}
    (placed : System.At h n i ev) {e : System.PoolEntry S W Req Env ε α} (at_n : h[n]? = some e)
    (k : Key) : Edit.lookup T.key k (T.rows (Y.exec ev.op e.before.world).2) =
      (T.edit ev).onKey T.key k (Edit.lookup T.key k (T.rows e.before.world)) := by
  have respects := serves.respects ev.op e.before.world
  rw [serves.exec]
  rw [← (placed.exec run at_n).1] at respects ⊢
  exact respects.lookup_apply (serves.nodup (run.take at_n).1) k

omit [DecidableEq Key] in
/-- What holds of a row when it is inserted, and survives updates and what else happens in
the world, holds of every row of every state reached. -/
theorem Serves.rows_satisfy (serves : T.Serves Y) (run : Run Y.pool allowed h s)
    {I : W → Row → Prop}
    (insert : ∀ n i ev e row, System.At h n i ev → h[n]? = some e → T.edit ev = .insert row →
      I e.before.world row)
    (update : ∀ n i ev e p f row, System.At h n i ev → h[n]? = some e →
      T.edit ev = .update p f → p row = true → I e.before.world row → I e.before.world (f row))
    (op : ∀ op w row, I w row → I (Y.exec op w).2 row)
    (env : ∀ x w row, I w row → I (Y.environment x w) row) :
    ∀ row ∈ T.rows s.world, I s.world row := by
  refine (System.induction_events run (I := fun _ w => ∀ row ∈ T.rows w, I w row)
    (fun row mem => ?_) ?_ ?_).1
  · rw [serves.start] at mem
    cases mem
  · intro n i ev e placed at_n before row mem
    refine op ev.op _ row ?_
    rw [serves.exec, ← (placed.exec run at_n).1] at mem
    cases edit : T.edit ev with
    | keep => exact before row (by simpa [edit, Edit.apply] using mem)
    | insert new =>
        rw [show T.edit ⟨ev.op, ev.answer⟩ = .insert new from edit] at mem
        rcases List.mem_append.mp mem with old | here
        · exact before row old
        · rw [List.mem_singleton.mp here]
          exact insert n i ev e new placed at_n edit
    | update p f =>
        rw [show T.edit ⟨ev.op, ev.answer⟩ = .update p f from edit] at mem
        obtain ⟨old, there, rfl⟩ := List.mem_map.mp mem
        split
        · rename_i hit
          exact update n i ev e p f old placed at_n edit hit (before old there)
        · exact before old there
    | delete p =>
        rw [show T.edit ⟨ev.op, ev.answer⟩ = .delete p from edit] at mem
        exact before row (List.mem_filter.mp mem).1
  · intro es x w before row mem
    rw [serves.env] at mem
    exact env x w row (before row mem)

/-- What stands in the table was inserted. -/
theorem Serves.inserted (serves : T.Serves Y) (run : Run Y.pool allowed h s) {row : Row}
    (found : Edit.lookup T.key k (T.rows s.world) = some row) :
    (System.events h).any (T.inserts k) = true := by
  refine (System.induction_events run
    (I := fun es w => ∀ row, Edit.lookup T.key k (T.rows w) = some row →
      es.any (T.inserts k) = true) (fun row found => ?_) ?_ ?_).1 row found
  · rw [serves.start] at found
    cases found
  · intro n i ev e placed at_n before row found
    rw [serves.lookup_at run placed at_n] at found
    rw [List.any_append]
    cases old : Edit.lookup T.key k (T.rows e.before.world) with
    | some row' => rw [before row' old, Bool.true_or]
    | none =>
        have here : T.inserts k ev = true := by
          rw [old] at found
          unfold inserts
          cases edit : T.edit ev with
          | insert new =>
              rw [edit, Edit.onKey] at found
              split at found
              · simpa
              · cases found
          | _ => rw [edit] at found; cases found
        simp [here]
  · intro es x w before
    rw [serves.env]
    exact before

/-- A permanent table keeps every key it was given. -/
theorem Serves.kept (serves : T.Serves Y) (permanent : T.Permanent)
    (run : Run Y.pool allowed h s) (inserted : (System.events h).any (T.inserts k) = true) :
    ∃ row, Edit.lookup T.key k (T.rows s.world) = some row := by
  refine (System.induction_events run
    (I := fun es w => es.any (T.inserts k) = true →
      ∃ row, Edit.lookup T.key k (T.rows w) = some row) (fun none => ?_) ?_ ?_).1 inserted
  · cases none
  · intro n i ev e placed at_n before inserted
    rw [serves.lookup_at run placed at_n]
    rw [List.any_append, Bool.or_eq_true] at inserted
    cases edit : T.edit ev with
    | insert new =>
        by_cases own : T.key new = k
        · exact ⟨new, by rw [Edit.onKey, if_pos own]⟩
        · rw [Edit.onKey, if_neg own]
          refine before (inserted.resolve_right ?_)
          simp [inserts, edit, own]
    | delete p => exact absurd edit (permanent ev p)
    | keep =>
        obtain ⟨row, found⟩ := before (inserted.resolve_right (by simp [inserts, edit]))
        exact ⟨row, found⟩
    | update p f =>
        obtain ⟨row, found⟩ := before (inserted.resolve_right (by simp [inserts, edit]))
        exact ⟨_, by rw [found]; rfl⟩
  · intro es x w before inserted
    rw [serves.env]
    exact before inserted

theorem Serves.once (serves : T.Serves Y) (permanent : T.Permanent)
    (run : Run Y.pool allowed h s) : T.Once h := by
  intro n i ev row placed edit
  obtain ⟨e, at_n⟩ := placed.entry
  rw [Bool.eq_false_iff]
  intro earlier
  obtain ⟨row', found⟩ := serves.kept permanent (run.take at_n).1 earlier
  have respects := serves.respects ev.op e.before.world
  have stored : T.edit ⟨ev.op, ev.answer⟩ = .insert row := edit
  rw [← (placed.exec run at_n).1, stored] at respects
  obtain ⟨mem, same⟩ := Edit.lookup_some found
  exact respects row' mem same

section
variable (serves : T.Serves Y) (run : Run Y.pool allowed h s) (once : T.Once h) {n i : Nat}
  (placed : System.At h n i ev) {e : System.PoolEntry S W Req Env ε α} (at_n : h[n]? = some e)
include serves run once placed at_n

/-- A row that is there stays, is updated or goes. -/
theorem present_moves {row : Row}
    (found : Edit.lookup T.key k (T.rows e.before.world) = some row) :
    T.phase k (System.events (h.take n) ++ [ev]) (Y.exec ev.op e.before.world).2 = .present row ∨
      T.Moves k ev (.present row)
        (T.phase k (System.events (h.take n) ++ [ev]) (Y.exec ev.op e.before.world).2) := by
  have after := serves.lookup_at run placed at_n k
  have offered := serves.inserted (run.take at_n).1 found
  rw [found] at after
  cases edit : T.edit ev with
  | keep => exact Or.inl (phase_present (by rw [after, edit]; rfl))
  | insert new =>
      have other : T.key new ≠ k := by
        rintro rfl
        rw [once n i ev new placed edit] at offered
        cases offered
      exact Or.inl (phase_present (by rw [after, edit, Edit.onKey, if_neg other]))
  | update p f =>
      by_cases hit : p row = true
      · have updated : Edit.lookup T.key k (T.rows (Y.exec ev.op e.before.world).2) =
            some (f row) := by
          rw [after, edit]
          simp [Edit.onKey, hit]
        rw [phase_present updated]
        exact Or.inr (.update edit hit)
      · exact Or.inl (phase_present (by rw [after, edit]; simp [Edit.onKey, hit]))
  | delete p =>
      by_cases hit : p row = true
      · rw [phase_absent (by rw [after, edit]; simp [Edit.onKey, hit]), if_pos (by simp [offered])]
        exact Or.inr (.delete edit hit)
      · exact Or.inl (phase_present (by rw [after, edit]; simp [Edit.onKey, hit]))

/-- A row that is not there is inserted for the first time or stays away. -/
theorem absent_moves (absent : Edit.lookup T.key k (T.rows e.before.world) = none) :
    T.phase k (System.events (h.take n) ++ [ev]) (Y.exec ev.op e.before.world).2 =
        T.phase k (System.events (h.take n)) e.before.world ∨
      T.Moves k ev (T.phase k (System.events (h.take n)) e.before.world)
        (T.phase k (System.events (h.take n) ++ [ev]) (Y.exec ev.op e.before.world).2) := by
  have after := serves.lookup_at run placed at_n k
  rw [absent] at after
  rw [phase_absent absent]
  by_cases own : T.inserts k ev = true
  · obtain ⟨row, edit, rfl⟩ := inserts_iff.mp own
    rw [edit, Edit.onKey, if_pos rfl] at after
    rw [phase_present after, once n i ev row placed edit]
    exact Or.inr (.insert edit rfl)
  · left
    have still : Edit.lookup T.key k (T.rows (Y.exec ev.op e.before.world).2) = none := by
      rw [after]
      cases edit : T.edit ev with
      | insert row => simpa [Edit.onKey, inserts_eq edit] using own
      | _ => rfl
    rw [phase_absent still, List.any_append]
    simp [own]

end

/-- Every operation moves the row of a key as its edit says, and nothing else does. -/
theorem Serves.follows (serves : T.Serves Y) (run : Run Y.pool allowed h s) (once : T.Once h)
    (k : Key) : System.Follows (T.phase k) (T.Moves k) h := by
  refine System.follows_of_events run ?_ ?_
  · intro es x w
    rw [phase, phase, serves.env]
  intro n i ev e placed at_n
  rw [System.viewBefore]
  cases found : Edit.lookup T.key k (T.rows e.before.world) with
  | some row =>
      rw [phase_present found]
      exact present_moves serves run once placed at_n found
  | none => exact absent_moves serves run once placed at_n found

end

section
variable {R : Row → Row → Prop} {p q : Phase Row}

/-- Every update stays in relation to the row that a history began with. -/
def Preserves (T : Table S W Row Key) (R : Row → Row → Prop) : Prop :=
  (∀ r, R r r) ∧
    ∀ ev p f r r', T.edit ev = .update p f → p r' = true → R r r' → R r (f r')

omit [DecidableEq Key] in
theorem Preserves.onward (preserves : T.Preserves R)
    (path : Relation.ReflTransGen (System.Moved (T.Moves k)) p q) : p.Onward R q := by
  induction path with
  | refl =>
      cases p with
      | unknown => exact .unknown _
      | present row => exact .kept (preserves.1 row)
      | gone => exact .gone _
  | tail _ moved ih =>
      obtain ⟨ev, move⟩ := moved
      cases ih with
      | unknown => exact .unknown _
      | kept related =>
          cases move with
          | update edit hit => exact .kept (preserves.2 ev _ _ _ _ edit hit related)
          | delete => exact .gone _
      | gone => cases move

omit [DecidableEq Key] in
/-- In a permanent table nothing goes. -/
theorem Preserves.stays (preserves : T.Preserves R) (permanent : T.Permanent) {row : Row}
    (path : Relation.ReflTransGen (System.Moved (T.Moves k)) (.present row) q) :
    ∃ row', q = .present row' ∧ R row row' := by
  induction path with
  | refl => exact ⟨row, rfl, preserves.1 row⟩
  | tail _ moved ih =>
      obtain ⟨ev, move⟩ := moved
      obtain ⟨row', rfl, related⟩ := ih
      cases move with
      | update edit hit => exact ⟨_, rfl, preserves.2 ev _ _ _ _ edit hit related⟩
      | delete edit => exact absurd edit (permanent ev _)

end
end Table
end AtomicSteps
