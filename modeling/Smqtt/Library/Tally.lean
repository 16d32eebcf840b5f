import Smqtt.Library.Positions
import Mathlib.Algebra.BigOperators.Group.Finset.Piecewise
import Mathlib.Algebra.Order.BigOperators.Group.Finset

/-!
Counting the events of a pool. Every event belongs to one thread, so what each
thread owes for its events of one sort it has paid with events of another, the whole
history has paid.
-/

namespace AtomicSteps

/-- Elements that all stand at one place of a list are at most one. -/
theorem countP_le_one {α : Type} {p : α → Bool} {l : List α} {k : Nat}
    (place : ∀ before a after, l = before ++ a :: after → p a = true → before.length = k) :
    l.countP p ≤ 1 := by
  induction l generalizing k with
  | nil => exact Nat.zero_le 1
  | cons x l ih =>
      by_cases here : p x = true
      · have first : k = 0 := (place [] x l rfl here).symm
        have rest : l.countP p = 0 := by
          refine List.countP_eq_zero.mpr fun a mem hit => ?_
          obtain ⟨before, after, rfl⟩ := List.append_of_mem mem
          have := place (x :: before) a after rfl hit
          rw [List.length_cons] at this
          omega
        rw [List.countP_cons_of_pos here, rest]
      · rw [List.countP_cons_of_neg here]
        refine ih (k := k - 1) fun before a after split hit => ?_
        have := place (x :: before) a after (by rw [split, List.cons_append]) hit
        rw [List.length_cons] at this
        omega

namespace System

variable {S : Signature} {W Req Env ε α : Type} {Y : System S W Req Env ε α}
  {allowed : Assumption (Pool S W Req ε α) (PoolAction Req Env) (Option (Event S))}
  {h k : PoolHistory S W Req Env ε α} {s : Pool S W Req ε α}

/-- The events of a history, whoever executed them. -/
def events (h : PoolHistory S W Req Env ε α) : List (Event S) := h.filterMap Entry.response

@[simp] theorem events_append : events (h ++ k) = events h ++ events k := by
  simp [events]

theorem events_entry (s : Pool S W Req ε α) (a : PoolAction Req Env) :
    events [Y.pool.entry s a] = (Y.pool.perform a s).1.toList := by
  cases response : (Y.pool.perform a s).1 <;> simp [events, response]

theorem events_succ {n : Nat} {e : PoolEntry S W Req Env ε α} (at_n : h[n]? = some e) :
    events (h.take (n + 1)) = events (h.take n) ++ e.response.toList := by
  obtain ⟨lt, rfl⟩ := List.getElem?_eq_some_iff.mp at_n
  rw [List.take_succ_eq_append_getElem lt, events_append]
  cases response : h[n].response <;> simp [events, response]

theorem mem_events (run : Run Y.pool allowed h s) {n : Nat} {ev : Event S}
    (mem : ev ∈ events (h.take n)) : ∃ m < n, ∃ i, At h m i ev := by
  obtain ⟨e, he, response⟩ := List.mem_filterMap.mp mem
  obtain ⟨m, at_m⟩ := List.getElem?_of_mem he
  have lt : m < n := by
    have := (List.getElem?_eq_some_iff.mp at_m).1
    simp only [List.length_take] at this
    omega
  rw [List.getElem?_take_of_lt lt] at at_m
  obtain ⟨i, does⟩ := does_of_response run (List.mem_of_getElem? at_m) response
  exact ⟨m, lt, i, e, at_m, does⟩

/-- What holds at the start and goes from event to event holds at every position. -/
theorem induction_events {I : List (Event S) → W → Prop} (run : Run Y.pool allowed h s)
    (start : I [] Y.start)
    (step : ∀ n i ev e, At h n i ev → h[n]? = some e → I (events (h.take n)) e.before.world →
      I (events (h.take n) ++ [ev]) (Y.exec ev.op e.before.world).2)
    (env : ∀ es x w, I es w → I es (Y.environment x w)) :
    I (events h) s.world ∧
      ∀ (n : Nat) e, h[n]? = some e → I (events (h.take n)) e.before.world := by
  have positions := induction_positions run (I := fun n w => I (events (h.take n)) w) start ?_
  · rwa [List.take_length] at positions
  · intro n e at_n before
    have mem := List.mem_of_getElem? at_n
    rw [events_succ at_n]
    rcases world_cases run mem with ⟨i, ev, does, after⟩ | ⟨x, action, after⟩ | ⟨none, after⟩
    · rw [after, does.2]
      exact step n i ev e ⟨e, at_n, does⟩ at_n before
    · have none : e.response = none := by
        rw [run.response_eq mem, action]
        rfl
      rw [after, none, Option.toList_none, List.append_nil]
      exact env _ x _ before
    · rw [after, none, Option.toList_none, List.append_nil]
      exact before

/-- The events are those of the threads. -/
theorem countP_events (run : Run Y.pool allowed h s) (p : Event S → Bool) :
    (events h).countP p =
      ∑ i ∈ Finset.range (requests h).length, (eventsOf i h).countP p := by
  refine run.invariant (I := fun h _ => (events h).countP p =
    ∑ i ∈ Finset.range (requests h).length, (eventsOf i h).countP p) rfl ?_
  intro h s a run ih _
  have length : s.threads.length = (requests h).length := by
    rw [← threads_requests run, List.length_map]
  have silent (none : (Y.pool.perform a s).1 = none) (i : Nat) :
      eventsOf i (h ++ [Y.pool.entry s a]) = eventsOf i h := by
    rw [eventsOf_append, eventsOf_entry_silent Y none, List.append_nil]
  rw [events_append, List.countP_append, ih, events_entry, requests_append, List.length_append]
  cases a with
  | spawn r =>
      rw [requests_entry_spawn, List.length_singleton, Finset.sum_range_succ]
      simp only [silent rfl]
      rw [eventsOf_unborn run length.le]
      rfl
  | env x =>
      rw [requests_entry_env]
      simp only [silent rfl]
      rfl
  | step j =>
      rw [requests_entry_step, List.length_nil, Nat.add_zero]
      rcases Y.pool_step_cases j s with ⟨r, op, next, hj, hp⟩ | hp
      · have lt : j < (requests h).length := length ▸ (List.getElem?_eq_some_iff.mp hj).1
        have own (i : Nat) : (eventsOf i (h ++ [Y.pool.entry s (.step j)])).countP p =
            (eventsOf i h).countP p +
              if i = j then [(⟨op, (Y.exec op s.world).1⟩ : Event S)].countP p else 0 := by
          rw [eventsOf_append, List.countP_append]
          by_cases same : i = j
          · subst same
            rw [eventsOf_entry_own Y (by rw [hp]), if_pos rfl]
          · rw [eventsOf_entry_other Y (Ne.symm same), if_neg same, List.countP_nil]
        rw [Finset.sum_congr rfl fun i _ => own i, Finset.sum_add_distrib,
          Finset.sum_ite_eq' _ j, if_pos (Finset.mem_range.mpr lt), hp]
        rfl
      · have none : (Y.pool.perform (.step j) s).1 = none := by rw [hp]
        rw [none]
        simp only [silent none]
        rfl

/-- What every thread has paid for, the history has paid for. -/
theorem countP_events_le (run : Run Y.pool allowed h s) {p q : Event S → Bool}
    (each : ∀ i, (eventsOf i h).countP p ≤ (eventsOf i h).countP q) :
    (events h).countP p ≤ (events h).countP q := by
  rw [countP_events run, countP_events run]
  exact Finset.sum_le_sum fun i _ => each i

end System
end AtomicSteps
