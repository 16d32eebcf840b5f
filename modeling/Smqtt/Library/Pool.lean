import Smqtt.Library.Machine
import Smqtt.Library.Prog

/-!
A system of programs over one shared world, run in two ways.

`atomic` executes the program of every call without interruption. `pool` lets
any number of calls be in flight and executes one operation of one of them at a
time. The history of a pool names the thread of every operation, so what a
single program guarantees (`Prog.Sat`) becomes a statement about positions in
the history, and `atomic_simulated` says that uninterrupted runs are pool runs.
-/

namespace AtomicSteps

structure System (S : Signature) (W Req Env ε α : Type) where
  start : W
  exec : (op : S.Op) → W → S.Answer op × W
  handler : Req → Prog S ε α
  environment : Env → W → W

structure Pool (S : Signature) (W Req ε α : Type) where
  world : W
  threads : List (Req × Prog S ε α)

inductive AtomicAction (Req Env : Type)
  | call (request : Req)
  | env (event : Env)
  deriving DecidableEq

inductive PoolAction (Req Env : Type)
  | spawn (request : Req)
  | step (thread : Nat)
  | env (event : Env)
  deriving DecidableEq

namespace System

variable {S : Signature} {W Req Env ε α : Type} (Y : System S W Req Env ε α)

def atomic : Machine W (AtomicAction Req Env) (Option (Except ε α)) where
  start := Y.start
  perform
    | .call r, w => (some ((Y.handler r).run Y.exec w).1, ((Y.handler r).run Y.exec w).2)
    | .env e, w => (none, Y.environment e w)

def pool : Machine (Pool S W Req ε α) (PoolAction Req Env) (Option (Event S)) where
  start := ⟨Y.start, []⟩
  perform
    | .spawn r, s => (none, ⟨s.world, s.threads ++ [(r, Y.handler r)]⟩)
    | .step i, s =>
        match s.threads[i]? with
        | some (r, .call op next) =>
            (some ⟨op, (Y.exec op s.world).1⟩,
              ⟨(Y.exec op s.world).2, s.threads.set i (r, next (Y.exec op s.world).1)⟩)
        | _ => (none, s)
    | .env e, s => (none, ⟨Y.environment e s.world, s.threads⟩)

@[simp] theorem pool_spawn (r : Req) (s : Pool S W Req ε α) :
    Y.pool.perform (.spawn r) s = (none, ⟨s.world, s.threads ++ [(r, Y.handler r)]⟩) := rfl

@[simp] theorem pool_env (e : Env) (s : Pool S W Req ε α) :
    Y.pool.perform (.env e) s = (none, ⟨Y.environment e s.world, s.threads⟩) := rfl

theorem pool_step_call {i : Nat} {s : Pool S W Req ε α} {r : Req} {op : S.Op}
    {next : S.Answer op → Prog S ε α} (h : s.threads[i]? = some (r, .call op next)) :
    Y.pool.perform (.step i) s =
      (some ⟨op, (Y.exec op s.world).1⟩,
        ⟨(Y.exec op s.world).2, s.threads.set i (r, next (Y.exec op s.world).1)⟩) := by
  simp only [pool, h]

/-- A scheduled thread either executes its next operation or has none left. -/
theorem pool_step_cases (i : Nat) (s : Pool S W Req ε α) :
    (∃ r op next, s.threads[i]? = some (r, .call op next) ∧
      Y.pool.perform (.step i) s =
        (some ⟨op, (Y.exec op s.world).1⟩,
          ⟨(Y.exec op s.world).2, s.threads.set i (r, next (Y.exec op s.world).1)⟩)) ∨
    Y.pool.perform (.step i) s = (none, s) := by
  cases h : s.threads[i]? with
  | none => exact Or.inr (by simp only [pool, h])
  | some t =>
      obtain ⟨r, p⟩ := t
      cases p with
      | done a => exact Or.inr (by simp only [pool, h])
      | fail e => exact Or.inr (by simp only [pool, h])
      | call op next => exact Or.inl ⟨r, op, next, rfl, Y.pool_step_call h⟩

section Invariants
variable {Y} {I : W → Prop} {R : W → W → Prop}

/-- What every operation and every outside event preserves holds in every state
of an uninterrupted run. -/
theorem atomic_invariant
    {allowed : Assumption W (AtomicAction Req Env) (Option (Except ε α))}
    {h : History W (AtomicAction Req Env) (Option (Except ε α))} {w : W}
    (base : I Y.start) (op : ∀ op w, I w → I (Y.exec op w).2)
    (env : ∀ e w, I w → I (Y.environment e w)) (run : Run Y.atomic allowed h w) : I w := by
  refine run.invariant (I := fun _ w => I w) base ?_
  intro h w a _ hw _
  cases a with
  | env e => exact env e w hw
  | call r =>
      have uses : (Y.handler r).Uses fun _ => True := Prog.uses_all _
      exact uses.run_preserves (fun o _ v hv => op o v hv) hw

/-- A preorder that every operation and every outside event climbs orders the
states of an uninterrupted run. -/
theorem atomic_monotone
    {allowed : Assumption W (AtomicAction Req Env) (Option (Except ε α))}
    {h k : History W (AtomicAction Req Env) (Option (Except ε α))} {w v : W}
    (refl : ∀ w, R w w) (trans : ∀ u v w, R u v → R v w → R u w)
    (op : ∀ op w, R w (Y.exec op w).2) (env : ∀ e w, R w (Y.environment e w))
    (first : Run Y.atomic allowed h v) (run : Run Y.atomic allowed (h ++ k) w) : R v w := by
  refine run.continuation (J := fun _ w => R v w) ?_ ?_
  · intro s hs
    rw [first.unique hs]
    exact refl s
  · intro k s a _ hs _ _
    refine trans _ _ _ hs ?_
    cases a with
    | env e => exact env e s
    | call r =>
        have uses : (Y.handler r).Uses fun _ => True := Prog.uses_all _
        exact uses.run_preserves (I := R s) (fun o _ v hv => trans _ _ _ hv (op o v)) (refl s)

theorem pool_invariant
    {allowed : Assumption (Pool S W Req ε α) (PoolAction Req Env) (Option (Event S))}
    {h : History (Pool S W Req ε α) (PoolAction Req Env) (Option (Event S))}
    {s : Pool S W Req ε α}
    (base : I Y.start) (op : ∀ op w, I w → I (Y.exec op w).2)
    (env : ∀ e w, I w → I (Y.environment e w)) (run : Run Y.pool allowed h s) :
    I s.world := by
  refine run.invariant (I := fun _ s => I s.world) base ?_
  intro h s a _ hs _
  cases a with
  | spawn r => exact hs
  | env e => exact env e s.world hs
  | step i =>
      rcases Y.pool_step_cases i s with ⟨r, o, next, -, hp⟩ | hp
      · rw [hp]
        exact op o s.world hs
      · rw [hp]
        exact hs

theorem pool_monotone
    {allowed : Assumption (Pool S W Req ε α) (PoolAction Req Env) (Option (Event S))}
    {h k : History (Pool S W Req ε α) (PoolAction Req Env) (Option (Event S))}
    {s t : Pool S W Req ε α}
    (refl : ∀ w, R w w) (trans : ∀ u v w, R u v → R v w → R u w)
    (op : ∀ op w, R w (Y.exec op w).2) (env : ∀ e w, R w (Y.environment e w))
    (first : Run Y.pool allowed h s) (run : Run Y.pool allowed (h ++ k) t) :
    R s.world t.world := by
  refine run.continuation (J := fun _ t => R s.world t.world) ?_ ?_
  · intro s' hs
    rw [first.unique hs]
    exact refl _
  · intro k t a _ ht _ _
    refine trans _ _ _ ht ?_
    cases a with
    | spawn r => exact refl _
    | env e => exact env e _
    | step i =>
        rcases Y.pool_step_cases i t with ⟨r, o, next, -, hp⟩ | hp
        · rw [hp]
          exact op o t.world
        · rw [hp]
          exact refl _

end Invariants

/-- A thread scheduled until it returns has the effect of running its program. -/
theorem pool_finishes {allowed : Assumption (Pool S W Req ε α) (PoolAction Req Env)
      (Option (Event S))} (free : ∀ h s a, allowed h s a)
    {i : Nat} {r : Req} (p : Prog S ε α)
    {h : History (Pool S W Req ε α) (PoolAction Req Env) (Option (Event S))}
    {s : Pool S W Req ε α} (run : Run Y.pool allowed h s) (hi : s.threads[i]? = some (r, p)) :
    ∃ k t, Run Y.pool allowed (h ++ k) t ∧ t.world = (p.run Y.exec s.world).2 ∧
      t.threads[i]? = some (r, .ofExcept (p.run Y.exec s.world).1) := by
  induction p generalizing h s with
  | done a => exact ⟨[], s, by simpa using run, rfl, hi⟩
  | fail e => exact ⟨[], s, by simpa using run, rfl, hi⟩
  | call op next ih =>
      have run' := run.step (.step i) (free _ _ _)
      have hlt : i < s.threads.length := (List.getElem?_eq_some_iff.mp hi).1
      rw [Y.pool_step_call hi] at run'
      obtain ⟨k, t, hk, world, thread⟩ := ih (Y.exec op s.world).1 run'
        (List.getElem?_set_self hlt)
      refine ⟨Y.pool.entry s (.step i) :: k, t, ?_, world, thread⟩
      simpa [List.append_assoc] using hk

/-- Every state an uninterrupted run reaches is the world of a pool run. -/
theorem atomic_simulated {h : History W (AtomicAction Req Env) (Option (Except ε α))} {w : W}
    (run : Run Y.atomic anything h w) :
    ∃ k s, Run Y.pool anything k s ∧ s.world = w := by
  have free : ∀ (h : History (Pool S W Req ε α) (PoolAction Req Env) (Option (Event S)))
      (s : Pool S W Req ε α) (a : PoolAction Req Env), anything h s a :=
    fun _ _ _ => True.intro
  refine run.invariant (I := fun _ w => ∃ k s, Run Y.pool anything k s ∧ s.world = w) ?_ ?_
  · exact ⟨[], _, .start, rfl⟩
  · rintro h w a - ⟨k, s, hk, rfl⟩ -
    cases a with
    | env e => exact ⟨_, _, hk.step (.env e) (free _ _ _), rfl⟩
    | call r =>
        have spawned := hk.step (.spawn r) (free _ _ _)
        obtain ⟨k', t, ht, world, -⟩ := Y.pool_finishes free (i := s.threads.length) (r := r)
          (Y.handler r) spawned (by simp)
        exact ⟨_, t, ht, world⟩

abbrev PoolHistory (S : Signature) (W Req Env ε α : Type) :=
  History (Pool S W Req ε α) (PoolAction Req Env) (Option (Event S))

abbrev PoolEntry (S : Signature) (W Req Env ε α : Type) :=
  Entry (Pool S W Req ε α) (PoolAction Req Env) (Option (Event S))

/-- The entry is the operation `ev` of thread `i`. -/
def Does (e : PoolEntry S W Req Env ε α) (i : Nat) (ev : Event S) : Prop :=
  e.action = .step i ∧ e.response = some ev

def eventBy (i : Nat) (e : PoolEntry S W Req Env ε α) : Option (Event S) :=
  match e.action with
  | .step j => if j = i then e.response else none
  | _ => none

/-- The operations thread `i` has executed, in order. -/
def eventsOf (i : Nat) (h : PoolHistory S W Req Env ε α) : List (Event S) :=
  h.filterMap (eventBy i)

def spawned (e : PoolEntry S W Req Env ε α) : Option Req :=
  match e.action with
  | .spawn r => some r
  | _ => none

/-- The requests in the order of their threads: thread `i` serves the `i`-th. -/
def requests (h : PoolHistory S W Req Env ε α) : List Req := h.filterMap spawned

theorem eventBy_eq_some {i : Nat} {e : PoolEntry S W Req Env ε α} {ev : Event S} :
    eventBy i e = some ev ↔ Does e i ev := by
  unfold eventBy Does
  cases he : e.action with
  | spawn r => simp
  | env x => simp
  | step j =>
      by_cases hj : j = i
      · simp [hj]
      · simp [hj]

@[simp] theorem eventsOf_append (i : Nat) (h k : PoolHistory S W Req Env ε α) :
    eventsOf i (h ++ k) = eventsOf i h ++ eventsOf i k := by
  simp [eventsOf]

@[simp] theorem eventsOf_nil (i : Nat) :
    eventsOf i ([] : PoolHistory S W Req Env ε α) = [] := rfl

theorem eventsOf_cons_does {i : Nat} {e : PoolEntry S W Req Env ε α} {ev : Event S}
    (he : Does e i ev) (k : PoolHistory S W Req Env ε α) :
    eventsOf i (e :: k) = ev :: eventsOf i k := by
  simp [eventsOf, eventBy_eq_some.mpr he]

@[simp] theorem requests_append (h k : PoolHistory S W Req Env ε α) :
    requests (h ++ k) = requests h ++ requests k := by
  simp [requests]

/-- An event of a thread stands at a position of the whole history. -/
theorem eventsOf_split {i : Nat} {h : PoolHistory S W Req Env ε α}
    {before after : List (Event S)} {ev : Event S}
    (hs : eventsOf i h = before ++ ev :: after) :
    ∃ h₁ e h₂, h = h₁ ++ e :: h₂ ∧ Does e i ev ∧
      eventsOf i h₁ = before ∧ eventsOf i h₂ = after := by
  obtain ⟨l₁, l₂, rfl, h₁, h₂⟩ := List.filterMap_eq_append_iff.mp hs
  obtain ⟨m₁, e, m₂, rfl, none₁, he, h₃⟩ := List.filterMap_eq_cons_iff.mp h₂
  refine ⟨l₁ ++ m₁, e, m₂, by simp, eventBy_eq_some.mp he, ?_, h₃⟩
  have hm : eventsOf i m₁ = [] := List.filterMap_eq_nil_iff.mpr none₁
  rw [eventsOf_append, hm, List.append_nil]
  exact h₁

theorem mem_eventsOf {i : Nat} {h : PoolHistory S W Req Env ε α} {ev : Event S} :
    ev ∈ eventsOf i h ↔ ∃ e ∈ h, Does e i ev := by
  simp [eventsOf, List.mem_filterMap, eventBy_eq_some]

theorem requests_entry_env (s : Pool S W Req ε α) (x : Env) :
    requests [Y.pool.entry s (.env x)] = [] := rfl

theorem requests_entry_step (s : Pool S W Req ε α) (i : Nat) :
    requests [Y.pool.entry s (.step i)] = [] := rfl

theorem requests_entry_spawn (s : Pool S W Req ε α) (r : Req) :
    requests [Y.pool.entry s (.spawn r)] = [r] := rfl

theorem eventsOf_entry_silent {s : Pool S W Req ε α} {a : PoolAction Req Env}
    (silent : (Y.pool.perform a s).1 = none) (i : Nat) :
    eventsOf i [Y.pool.entry s a] = [] := by
  have h : eventBy i (Y.pool.entry s a) = none := by
    unfold eventBy
    cases a with
    | spawn r => rfl
    | env x => rfl
    | step j => simp [silent]
  simp [eventsOf, h]

theorem eventsOf_entry_other {i j : Nat} (hne : j ≠ i) (s : Pool S W Req ε α) :
    eventsOf i [Y.pool.entry s (.step j)] = [] := by
  simp [eventsOf, eventBy, hne]

theorem eventsOf_entry_own {i : Nat} {s : Pool S W Req ε α} {ev : Event S}
    (h : (Y.pool.perform (.step i) s).1 = some ev) :
    eventsOf i [Y.pool.entry s (.step i)] = [ev] := by
  simp [eventsOf, eventBy, h]

variable {Y} {allowed : Assumption (Pool S W Req ε α) (PoolAction Req Env) (Option (Event S))}
  {h k : PoolHistory S W Req Env ε α} {s : Pool S W Req ε α}

/-- Scheduling a thread keeps the list of requests being served. -/
private theorem served_step (i : Nat) (s : Pool S W Req ε α) :
    (Y.pool.perform (.step i) s).2.threads.map Prod.fst = s.threads.map Prod.fst := by
  rcases Y.pool_step_cases i s with ⟨r, op, next, hi, hp⟩ | hp
  · rw [hp]
    apply List.ext_getElem?
    intro j
    by_cases hij : i = j
    · subst hij
      have hlen : i < s.threads.length := (List.getElem?_eq_some_iff.mp hi).1
      simp only [List.getElem?_map, List.getElem?_set_self hlen, hi, Option.map_some]
    · simp only [List.getElem?_map, List.getElem?_set_ne hij]
  · rw [hp]

theorem threads_requests (run : Run Y.pool allowed h s) :
    s.threads.map Prod.fst = requests h := by
  refine run.invariant (I := fun h s => s.threads.map Prod.fst = requests h) rfl ?_
  intro h s a _ ih _
  cases a with
  | spawn r => rw [requests_append, requests_entry_spawn, ← ih]; simp
  | env x => rw [requests_append, requests_entry_env, List.append_nil, ← ih]; rfl
  | step i =>
      rw [requests_append, requests_entry_step, List.append_nil, ← ih]
      exact served_step i s

theorem eventsOf_unborn (run : Run Y.pool allowed h s) {i : Nat}
    (hi : s.threads.length ≤ i) : eventsOf i h = [] := by
  have length (h s) (run : Run Y.pool allowed h s) :
      s.threads.length = (requests h).length := by
    rw [← threads_requests run, List.length_map]
  rw [length h s run] at hi
  revert hi
  refine run.invariant (I := fun h _ => (requests h).length ≤ i → eventsOf i h = []) ?_ ?_
  · intro _
    rfl
  · intro h s a run ih _ hi
    simp only [requests_append, List.length_append] at hi
    rw [eventsOf_append, ih (by omega), List.nil_append]
    cases a with
    | spawn r => rfl
    | env x => rfl
    | step j =>
        rcases Y.pool_step_cases j s with ⟨r, op, next, hj, hp⟩ | hp
        · have hlt : j < s.threads.length := (List.getElem?_eq_some_iff.mp hj).1
          rw [length h s run] at hlt
          exact eventsOf_entry_other Y (by omega) s
        · exact eventsOf_entry_silent Y (by rw [hp]) i

/-- The events of a thread lead from its handler's program to what is left of it. -/
theorem threads_path (run : Run Y.pool allowed h s) {i : Nat} {r : Req}
    {p : Prog S ε α} (hi : s.threads[i]? = some (r, p)) :
    (Y.handler r).Path (eventsOf i h) p := by
  revert i r p
  refine run.invariant (I := fun h s => ∀ {i : Nat} {r : Req} {p : Prog S ε α},
    s.threads[i]? = some (r, p) → (Y.handler r).Path (eventsOf i h) p) ?_ ?_
  · intro i r p hi
    simp [pool] at hi
  · intro h s a run ih _ i r p hi
    rw [eventsOf_append]
    cases a with
    | env x =>
        rw [eventsOf_entry_silent Y rfl, List.append_nil]
        exact ih hi
    | spawn r₀ =>
        rw [eventsOf_entry_silent Y rfl, List.append_nil]
        rcases Nat.lt_or_ge i s.threads.length with hlt | hge
        · rw [pool_spawn, List.getElem?_append_left hlt] at hi
          exact ih hi
        · -- the new thread has executed nothing yet
          rw [eventsOf_unborn run hge]
          rw [pool_spawn, List.getElem?_append_right hge] at hi
          have mem := List.mem_of_getElem? hi
          obtain ⟨rfl, rfl⟩ : r = r₀ ∧ p = Y.handler r₀ := by simpa using mem
          exact .nil _
    | step j =>
        rcases Y.pool_step_cases j s with ⟨r₀, op, next, hj, hp⟩ | hp
        · rw [hp] at hi
          by_cases hij : j = i
          · subst hij
            have hlt : j < s.threads.length := (List.getElem?_eq_some_iff.mp hj).1
            rw [List.getElem?_set_self hlt] at hi
            obtain ⟨rfl, rfl⟩ : r₀ = r ∧ next (Y.exec op s.world).1 = p := by
              simpa using hi
            rw [eventsOf_entry_own Y (by rw [hp])]
            exact (ih hj).snoc _
          · rw [List.getElem?_set_ne hij] at hi
            rw [eventsOf_entry_other Y hij, List.append_nil]
            exact ih hi
        · rw [hp] at hi
          rw [eventsOf_entry_silent Y (by rw [hp]), List.append_nil]
          exact ih hi

theorem thread_request (run : Run Y.pool allowed h s) {i : Nat} {r : Req}
    {p : Prog S ε α} (hi : s.threads[i]? = some (r, p)) : (requests h)[i]? = some r := by
  rw [← threads_requests run]
  simp [hi]

/-- An executed operation belongs to the thread of an earlier request, answers
and changes the world as `exec` says, and satisfies what its program guarantees
of it given the thread's earlier events. -/
theorem event_sat {P : Req → List (Event S) → Event S → Prop}
    {Q : Req → List (Event S) → Except ε α → Prop}
    (spec : ∀ r, Prog.Sat (P r) (Q r) [] (Y.handler r))
    {e : PoolEntry S W Req Env ε α} {i : Nat} {ev : Event S}
    (run : Run Y.pool allowed (h ++ e :: k) s) (he : Does e i ev) :
    ∃ r, (requests h)[i]? = some r ∧ P r (eventsOf i h) ev := by
  obtain ⟨prior, -, shape, after⟩ := run.cut
  rw [shape] at he
  obtain ⟨action, response⟩ := he
  simp only [Machine.entry_action] at action
  simp only [Machine.entry_response, action] at response
  rcases Y.pool_step_cases i e.before with ⟨r, op, next, hi, hp⟩ | hp
  · rw [hp] at response
    obtain rfl := Option.some.inj response
    have path := (threads_path prior hi).snoc (Y.exec op e.before.world).1
    exact ⟨r, thread_request prior hi, by simpa using path.event_sat (spec r)⟩
  · rw [hp] at response
    cases response

theorem event_exec {e : PoolEntry S W Req Env ε α} {i : Nat} {ev : Event S}
    (run : Run Y.pool allowed h s) (mem : e ∈ h) (he : Does e i ev) :
    ev.answer = (Y.exec ev.op e.before.world).1 ∧
      e.after.world = (Y.exec ev.op e.before.world).2 := by
  have hr := run.response_eq mem
  have ha := run.after_eq mem
  obtain ⟨action, response⟩ := he
  rw [action] at hr ha
  rcases Y.pool_step_cases i e.before with ⟨r, op, next, hi, hp⟩ | hp
  · rw [hp] at hr ha
    obtain rfl := Option.some.inj (response.symm.trans hr)
    exact ⟨rfl, by rw [ha]⟩
  · rw [hp] at hr
    rw [response] at hr
    cases hr

/-- What has returned satisfies the postcondition of its program. -/
theorem result_sat {P : Req → List (Event S) → Event S → Prop}
    {Q : Req → List (Event S) → Except ε α → Prop}
    (spec : ∀ r, Prog.Sat (P r) (Q r) [] (Y.handler r))
    (run : Run Y.pool allowed h s) {i : Nat} {r : Req} {result : Except ε α}
    (hi : s.threads[i]? = some (r, .ofExcept result)) : Q r (eventsOf i h) result := by
  have path := (threads_path run hi).sat (spec r)
  cases result with
  | ok a => simpa using path
  | error e => simpa using path

theorem returned_sat {P : Req → List (Event S) → Event S → Prop}
    {Q : Req → List (Event S) → Except ε α → Prop}
    (spec : ∀ r, Prog.Sat (P r) (Q r) [] (Y.handler r))
    (run : Run Y.pool allowed h s) {i : Nat} {r : Req} {a : α}
    (hi : s.threads[i]? = some (r, .done a)) : Q r (eventsOf i h) (.ok a) :=
  result_sat spec run hi

/-- The world moves by an operation, by the environment or not at all. -/
theorem world_cases {e : PoolEntry S W Req Env ε α} (run : Run Y.pool allowed h s)
    (mem : e ∈ h) :
    (∃ i ev, Does e i ev ∧ e.after.world = (Y.exec ev.op e.before.world).2) ∨
    (∃ x, e.action = .env x ∧ e.after.world = Y.environment x e.before.world) ∨
    (e.response = none ∧ e.after.world = e.before.world) := by
  have hr := run.response_eq mem
  have ha := run.after_eq mem
  cases action : e.action with
  | spawn r =>
      rw [action] at hr ha
      exact Or.inr (Or.inr ⟨hr, by rw [ha]; rfl⟩)
  | env x =>
      rw [action] at ha
      exact Or.inr (Or.inl ⟨x, rfl, by rw [ha]; rfl⟩)
  | step i =>
      rw [action] at hr ha
      rcases Y.pool_step_cases i e.before with ⟨r, op, next, hi, hp⟩ | hp
      · rw [hp] at hr ha
        exact Or.inl ⟨i, _, ⟨action, hr⟩, by rw [ha]⟩
      · rw [hp] at hr ha
        exact Or.inr (Or.inr ⟨hr, by rw [ha]⟩)

end System
end AtomicSteps
