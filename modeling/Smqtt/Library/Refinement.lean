import Smqtt.Library.Tally
import Mathlib.Logic.Relation

/-!
A pool that follows an abstract machine. The abstract state is a view of the world and
of the events so far; an operation moves it as the abstract machine allows or leaves it,
and nothing else changes it. Along a run the views are then a path of the machine, so
what its moves preserve holds between any two positions.
-/

namespace AtomicSteps.System

variable {S : Signature} {W Req Env ε α P : Type} {Y : System S W Req Env ε α}
  {allowed : Assumption (Pool S W Req ε α) (PoolAction Req Env) (Option (Event S))}
  {h : PoolHistory S W Req Env ε α} {s : Pool S W Req ε α} {m n : Nat}
  {view : List (Event S) → W → P} {moves : Event S → P → P → Prop}

/-- What an entry of the history finds. -/
def viewBefore (view : List (Event S) → W → P) (h : PoolHistory S W Req Env ε α) (n : Nat)
    (e : PoolEntry S W Req Env ε α) : P := view (events (h.take n)) e.before.world

/-- What an entry of the history leaves behind. -/
def viewAfter (view : List (Event S) → W → P) (h : PoolHistory S W Req Env ε α) (n : Nat)
    (e : PoolEntry S W Req Env ε α) : P := view (events (h.take (n + 1))) e.after.world

/-- Every entry of the history leaves the view alone, or is an operation that moves it. -/
def Follows (view : List (Event S) → W → P) (moves : Event S → P → P → Prop)
    (h : PoolHistory S W Req Env ε α) : Prop :=
  ∀ (n : Nat) e, h[n]? = some e → viewAfter view h n e = viewBefore view h n e ∨
    ∃ i ev, At h n i ev ∧ moves ev (viewBefore view h n e) (viewAfter view h n e)

/-- Some operation moves the view. -/
def Moved (moves : Event S → P → P → Prop) (p q : P) : Prop := ∃ ev, moves ev p q

/-- The operations decide. -/
theorem follows_of_events (run : Run Y.pool allowed h s)
    (env : ∀ es x w, view es (Y.environment x w) = view es w)
    (step : ∀ n i ev e, At h n i ev → h[n]? = some e →
      view (events (h.take n) ++ [ev]) (Y.exec ev.op e.before.world).2 =
        viewBefore view h n e ∨
      moves ev (viewBefore view h n e)
        (view (events (h.take n) ++ [ev]) (Y.exec ev.op e.before.world).2)) :
    Follows view moves h := by
  intro n e at_n
  have mem := List.mem_of_getElem? at_n
  rw [viewAfter, events_succ at_n]
  rcases world_cases run mem with ⟨i, ev, does, after⟩ | ⟨x, action, after⟩ | ⟨none, after⟩
  · rw [after, does.2]
    exact (step n i ev e ⟨e, at_n, does⟩ at_n).imp id fun moved => ⟨i, ev, ⟨e, at_n, does⟩, moved⟩
  · have none : e.response = none := by
      rw [run.response_eq mem, action]
      rfl
    rw [after, none, Option.toList_none, List.append_nil]
    exact Or.inl (env _ x _)
  · rw [after, none, Option.toList_none, List.append_nil]
    exact Or.inl rfl

/-- What an entry leaves behind the next one finds. -/
theorem viewAfter_eq (run : Run Y.pool allowed h s) {e f : PoolEntry S W Req Env ε α}
    (at_n : h[n]? = some e) (next : h[n + 1]? = some f) :
    viewAfter view h n e = viewBefore view h (n + 1) f := by
  have prior := (run.take next).1
  obtain ⟨lt, rfl⟩ := List.getElem?_eq_some_iff.mp at_n
  rw [List.take_succ_eq_append_getElem lt] at prior
  rw [viewAfter, viewBefore, prior.snoc_inv.2.2.2]

/-- The views at two positions are joined by a path of moves. -/
theorem Follows.reaches (follows : Follows view moves h) (run : Run Y.pool allowed h s)
    {e : PoolEntry S W Req Env ε α} (at_m : h[m]? = some e) (le : m ≤ n)
    {f : PoolEntry S W Req Env ε α} (at_n : h[n]? = some f) :
    Relation.ReflTransGen (Moved moves) (viewBefore view h m e) (viewAfter view h n f) := by
  have tail {c : PoolEntry S W Req Env ε α} {k : Nat} (at_k : h[k]? = some c)
      (path : Relation.ReflTransGen (Moved moves) (viewBefore view h m e)
        (viewBefore view h k c)) :
      Relation.ReflTransGen (Moved moves) (viewBefore view h m e) (viewAfter view h k c) := by
    rcases follows k c at_k with same | ⟨i, ev, -, moved⟩
    · rwa [same]
    · exact path.tail ⟨ev, moved⟩
  induction n, le using Nat.le_induction generalizing f with
  | base =>
      obtain rfl := Option.some.inj (at_m.symm.trans at_n)
      exact tail at_m .refl
  | succ n le ih =>
      have lt := (List.getElem?_eq_some_iff.mp at_n).1
      have at_c : h[n]? = some h[n] := List.getElem?_eq_getElem (Nat.lt_of_succ_lt lt)
      exact tail at_n (viewAfter_eq run at_c at_n ▸ ih at_c)

end AtomicSteps.System
