import Smqtt.Library.Pool

/-!
Positions in the history of a pool. An executed operation is named by where it
stands, so an argument about an interleaving is one about the order of numbers:
the events a thread has seen stand at earlier positions, the number of events
before a position tells a thread's positions apart, and preorders that every
operation climbs order the worlds at two positions.
-/

namespace AtomicSteps.System

variable {S : Signature} {W Req Env ε α : Type} {Y : System S W Req Env ε α}
  {allowed : Assumption (Pool S W Req ε α) (PoolAction Req Env) (Option (Event S))}
  {h : PoolHistory S W Req Env ε α} {s : Pool S W Req ε α}
  {i j m n : Nat} {ev ev' : Event S}

/-- Thread `i` executes `ev` at position `n`. -/
def At (h : PoolHistory S W Req Env ε α) (n i : Nat) (ev : Event S) : Prop :=
  ∃ e, h[n]? = some e ∧ Does e i ev

theorem At.entry (a : At h n i ev) : ∃ e, h[n]? = some e := by
  obtain ⟨e, he, -⟩ := a
  exact ⟨e, he⟩

theorem At.unique (a : At h n i ev) (b : At h n j ev') : i = j ∧ ev = ev' := by
  obtain ⟨e, he, action, response⟩ := a
  obtain ⟨f, hf, action', response'⟩ := b
  obtain rfl : e = f := Option.some.inj (he.symm.trans hf)
  exact ⟨PoolAction.step.inj (action.symm.trans action'),
    Option.some.inj (response.symm.trans response')⟩

theorem at_take (lt : m < n) : At (h.take n) m i ev ↔ At h m i ev := by
  unfold At
  rw [List.getElem?_take_of_lt lt]

theorem At.lt_of_take (a : At (h.take n) m i ev) : m < n := by
  obtain ⟨e, he, -⟩ := a
  have := (List.getElem?_eq_some_iff.mp he).1
  simp only [List.length_take] at this
  omega

theorem At.mem (a : At h n i ev) : ∃ e ∈ h, Does e i ev := by
  obtain ⟨e, he, does⟩ := a
  exact ⟨e, List.mem_of_getElem? he, does⟩

theorem at_of_mem {e : PoolEntry S W Req Env ε α} (he : e ∈ h) (does : Does e i ev) :
    ∃ n, At h n i ev := by
  obtain ⟨n, hn⟩ := List.getElem?_of_mem he
  exact ⟨n, e, hn, does⟩

/-- The position of an event that is known by what `f` reads off it. -/
theorem at_of_read {β : Type} {f : Event S → Option β} {b : β}
    (read : (h[n]?.map fun e => (e.action, e.response.bind f)) = some (.step i, some b)) :
    ∃ ev, At h n i ev ∧ f ev = some b := by
  obtain ⟨e, at_n, both⟩ := Option.map_eq_some_iff.mp read
  obtain ⟨action, found⟩ := Prod.mk.inj both
  obtain ⟨ev, response, eq⟩ := Option.bind_eq_some_iff.mp found
  exact ⟨ev, ⟨e, at_n, action, response⟩, eq⟩

theorem At.eventsOf_succ (a : At h n i ev) :
    eventsOf i (h.take (n + 1)) = eventsOf i (h.take n) ++ [ev] := by
  obtain ⟨e, he, does⟩ := a
  obtain ⟨hlt, rfl⟩ := List.getElem?_eq_some_iff.mp he
  rw [List.take_succ_eq_append_getElem hlt, eventsOf_append, eventsOf_cons_does does,
    eventsOf_nil]

theorem eventsOf_monotone (le : m ≤ n) :
    eventsOf i (h.take m) <+: eventsOf i (h.take n) :=
  (List.take_prefix_take_left le).filterMap _

theorem eventsOf_initial (n : Nat) : eventsOf i (h.take n) <+: eventsOf i h :=
  (List.take_prefix n h).filterMap _

/-- A thread has seen more at a later position. -/
theorem At.length_lt (a : At h m i ev) (lt : m < n) :
    (eventsOf i (h.take m)).length < (eventsOf i (h.take n)).length := by
  have longer := (eventsOf_monotone (h := h) (i := i) (Nat.succ_le_of_lt lt)).length_le
  rw [a.eventsOf_succ, List.length_append] at longer
  exact longer

theorem At.position_eq (a : At h m i ev) (b : At h n i ev')
    (same : (eventsOf i (h.take m)).length = (eventsOf i (h.take n)).length) : m = n := by
  rcases Nat.lt_trichotomy m n with lt | eq | gt
  · have := a.length_lt lt
    omega
  · exact eq
  · have := b.length_lt gt
    omega

/-- What stands at an earlier position a thread has seen. -/
theorem At.mem_eventsOf (a : At h m i ev) (lt : m < n) : ev ∈ eventsOf i (h.take n) := by
  refine (eventsOf_monotone (Nat.succ_le_of_lt lt)).subset ?_
  rw [a.eventsOf_succ]
  exact List.mem_append_right _ (List.mem_singleton_self _)

theorem At.seen (a : At h n i ev) : ev ∈ eventsOf i h :=
  (eventsOf_initial (n + 1)).subset (a.mem_eventsOf (Nat.lt_succ_self n))

theorem lt_of_eventsOf_lt (lt : (eventsOf i (h.take m)).length <
    (eventsOf i (h.take n)).length) : m < n := by
  by_contra le
  have shorter := (eventsOf_monotone (h := h) (i := i) (Nat.le_of_not_lt le)).length_le
  omega

theorem lt_of_seen {rest : List (Event S)}
    (more : eventsOf i (h.take n) = eventsOf i (h.take m) ++ ev :: rest) : m < n := by
  refine lt_of_eventsOf_lt (h := h) (i := i) ?_
  rw [more, List.length_append]
  exact Nat.lt_add_of_pos_right (Nat.succ_pos _)

/-- What a thread has seen before and after an event that it has seen. -/
theorem At.split (a : At h m i ev) (lt : m < n) :
    ∃ after, eventsOf i (h.take n) = eventsOf i (h.take m) ++ ev :: after := by
  obtain ⟨after, whole⟩ := eventsOf_monotone (h := h) (i := i) (Nat.succ_le_of_lt lt)
  rw [a.eventsOf_succ, List.append_assoc, List.singleton_append] at whole
  exact ⟨after, whole.symm⟩

/-- What a thread has seen stands at earlier positions. -/
theorem at_of_eventsOf (before : List (Event S)) {after : List (Event S)}
    (seen : eventsOf i (h.take n) = before ++ ev :: after) :
    ∃ m < n, At h m i ev ∧ eventsOf i (h.take m) = before := by
  obtain ⟨h₁, e, h₂, split, does, hb, -⟩ := eventsOf_split seen
  have pre : h₁ ++ e :: h₂ <+: h := split ▸ List.take_prefix n h
  obtain ⟨rest, whole⟩ := pre
  have short : h₁.length < n := by
    have := congrArg List.length split
    simp only [List.length_take, List.length_append, List.length_cons] at this
    omega
  refine ⟨h₁.length, short, ⟨e, ?_, does⟩, ?_⟩
  · rw [← whole]
    simp
  · rw [← whole]
    simpa using hb

/-- What a thread has seen in the whole history stands at positions. -/
theorem at_of_eventsOf_end (before : List (Event S)) {after : List (Event S)}
    (seen : eventsOf i h = before ++ ev :: after) :
    ∃ m, At h m i ev ∧ eventsOf i (h.take m) = before := by
  rw [← List.take_length (l := h)] at seen
  obtain ⟨m, -, placed, prior⟩ := at_of_eventsOf before seen
  exact ⟨m, placed, prior⟩

/-- Each event that a thread has seen stands at an earlier position. -/
theorem at_of_mem_eventsOf (seen : ev ∈ eventsOf i (h.take n)) : ∃ m < n, At h m i ev := by
  obtain ⟨before, after, split⟩ := List.append_of_mem seen
  obtain ⟨m, lt, placed, -⟩ := at_of_eventsOf before split
  exact ⟨m, lt, placed⟩

theorem at_of_seen (seen : ev ∈ eventsOf i h) : ∃ m, At h m i ev := by
  rw [← List.take_length (l := h)] at seen
  obtain ⟨m, -, placed⟩ := at_of_mem_eventsOf seen
  exact ⟨m, placed⟩

/-- What a thread does once it has seen a part of its events is one of the others. -/
theorem At.mem_rest (a : At h n i ev) {before after : List (Event S)}
    (split : eventsOf i h = before ++ after)
    (le : before.length ≤ (eventsOf i (h.take n)).length) : ev ∈ after := by
  obtain ⟨rest, whole⟩ := eventsOf_initial (h := h) (i := i) (n + 1)
  rw [a.eventsOf_succ, split, List.append_assoc] at whole
  have dropped := congrArg (List.drop before.length) whole
  rw [List.drop_append_of_le_length le, List.drop_left] at dropped
  rw [← dropped]
  simp

/-- What is not among the others stands before them. -/
theorem At.lt_of_not_mem (a : At h n i ev) {before after : List (Event S)}
    (split : eventsOf i h = before ++ after) (upTo : eventsOf i (h.take m) = before)
    (other : ev ∉ after) : n < m := by
  by_contra le
  refine other (a.mem_rest split ?_)
  rw [← upTo]
  exact (eventsOf_monotone (Nat.le_of_not_lt le)).length_le

theorem requests_take {r : Req} (le : m ≤ n) (hr : (requests (h.take m))[i]? = some r) :
    (requests (h.take n))[i]? = some r := by
  obtain ⟨rest, eq⟩ : requests (h.take m) <+: requests (h.take n) :=
    (List.take_prefix_take_left le).filterMap _
  rw [← eq, List.getElem?_append_left (List.getElem?_eq_some_iff.mp hr).1]
  exact hr

theorem requests_of_take {r : Req} (hr : (requests (h.take m))[i]? = some r) :
    (requests h)[i]? = some r := by
  obtain ⟨rest, eq⟩ : requests (h.take m) <+: requests h := (List.take_prefix m h).filterMap _
  rw [← eq, List.getElem?_append_left (List.getElem?_eq_some_iff.mp hr).1]
  exact hr

section
variable (run : Run Y.pool allowed h s)
include run

/-- The specification of a program, read at a position of its thread. -/
theorem At.sat {P : Req → List (Event S) → Event S → Prop}
    {Q : Req → List (Event S) → Except ε α → Prop}
    (spec : ∀ r, Prog.Sat (P r) (Q r) [] (Y.handler r)) (a : At h n i ev) :
    ∃ r, (requests (h.take n))[i]? = some r ∧ P r (eventsOf i (h.take n)) ev := by
  obtain ⟨e, he, does⟩ := a
  obtain ⟨hlt, rfl⟩ := List.getElem?_eq_some_iff.mp he
  have split : h = h.take n ++ h[n] :: h.drop (n + 1) := by
    rw [← List.drop_eq_getElem_cons hlt, List.take_append_drop]
  rw [split] at run
  exact event_sat spec run does

theorem thread_of_request {r : Req} (hr : (requests h)[i]? = some r) :
    ∃ p, s.threads[i]? = some (r, p) := by
  rw [← threads_requests run, List.getElem?_map] at hr
  obtain ⟨⟨r', p⟩, thread, rfl⟩ := Option.map_eq_some_iff.mp hr
  exact ⟨p, thread⟩

/-- A thread that acts has been serving its request. -/
theorem At.request {r : Req} (a : At h m i ev) (hr : (requests h)[i]? = some r) :
    (requests (h.take m))[i]? = some r := by
  obtain ⟨c, served, -⟩ := a.sat run (P := fun _ _ _ => True) (Q := fun _ _ _ => True)
    fun r => (Prog.uses_all (Y.handler r)).sat fun _ _ _ => trivial
  rwa [Option.some.inj (hr.symm.trans (requests_of_take served))]

/-- A thread that arrives from a position on acts from there on. -/
theorem At.since (a : At h n i ev) (arrived : (requests (h.take m)).length ≤ i) : m ≤ n := by
  obtain ⟨c, served, -⟩ := a.sat run (P := fun _ _ _ => True) (Q := fun _ _ _ => True)
    fun r => (Prog.uses_all (Y.handler r)).sat fun _ _ _ => trivial
  by_contra earlier
  have known := requests_take (Nat.le_of_not_le earlier) served
  have := (List.getElem?_eq_some_iff.mp known).1
  omega

/-- Only a thread's step answers with an event. -/
theorem does_of_response {e : PoolEntry S W Req Env ε α} (he : e ∈ h)
    (response : e.response = some ev) : ∃ i, Does e i ev := by
  have answer := run.response_eq he
  cases action : e.action with
  | step i => exact ⟨i, action, response⟩
  | spawn r =>
      rw [action, response] at answer
      cases answer
  | env x =>
      rw [action, response] at answer
      cases answer

/-- The schedule allowed the step, and the thread was about to execute its operation. -/
theorem At.pending {e : PoolEntry S W Req Env ε α} (a : At h n i ev) (he : h[n]? = some e) :
    allowed (h.take n) e.before (.step i) ∧
      ∃ r next, e.before.threads[i]? = some (r, .call ev.op next) := by
  obtain ⟨f, hf, action, response⟩ := a
  obtain rfl : f = e := Option.some.inj (hf.symm.trans he)
  obtain ⟨-, ok, shape⟩ := run.take he
  rw [action] at ok
  refine ⟨ok, ?_⟩
  rw [shape, Machine.entry_response, action] at response
  rcases Y.pool_step_cases i f.before with ⟨r, op, next, hi, hp⟩ | hp
  · rw [hp] at response
    obtain rfl := Option.some.inj response
    exact ⟨r, next, hi⟩
  · rw [hp] at response
    cases response

/-- Every request served was allowed when it came. -/
theorem spawned_at {r : Req} (hr : (requests h)[i]? = some r) :
    ∃ n e, h[n]? = some e ∧ allowed (h.take n) e.before (.spawn r) := by
  obtain ⟨e, he, spawn⟩ := List.mem_filterMap.mp (List.mem_of_getElem? hr)
  obtain ⟨n, at_n⟩ := List.getElem?_of_mem he
  have ok := (run.take at_n).2.1
  refine ⟨n, e, at_n, ?_⟩
  unfold spawned at spawn
  split at spawn
  · rename_i r' action
    rw [action] at ok
    obtain rfl := Option.some.inj spawn
    exact ok
  · cases spawn

theorem At.exec {e : PoolEntry S W Req Env ε α} (a : At h n i ev) (he : h[n]? = some e) :
    ev.answer = (Y.exec ev.op e.before.world).1 ∧
      e.after.world = (Y.exec ev.op e.before.world).2 := by
  obtain ⟨f, hf, does⟩ := a
  obtain rfl : f = e := Option.some.inj (hf.symm.trans he)
  exact event_exec run (List.mem_of_getElem? he) does

/-- What holds at the start and goes from each position to the next holds at all of them. -/
theorem induction_positions {I : Nat → W → Prop} (start : I 0 Y.start)
    (step : ∀ n e, h[n]? = some e → I n e.before.world → I (n + 1) e.after.world) :
    I h.length s.world ∧ ∀ (n : Nat) e, h[n]? = some e → I n e.before.world := by
  have upTo (k : PoolHistory S W Req Env ε α) (t : Pool S W Req ε α)
      (run : Run Y.pool allowed k t) : k <+: h → I k.length t.world := by
    refine run.invariant (I := fun k t => k <+: h → I k.length t.world) (fun _ => start) ?_
    rintro k t a - ih - ⟨rest, split⟩
    have placed : h[k.length]? = some (Y.pool.entry t a) := by
      rw [← split]
      simp
    have next := step k.length _ placed (ih ⟨[Y.pool.entry t a] ++ rest, by rw [← split]; simp⟩)
    rwa [List.length_append, List.length_singleton]
  refine ⟨upTo h s run (List.prefix_refl h), fun n e at_n => ?_⟩
  have reached := upTo _ _ (run.take at_n).1 (List.take_prefix n h)
  rwa [List.length_take, Nat.min_eq_left (Nat.le_of_lt (List.getElem?_eq_some_iff.mp at_n).1)]
    at reached

/-- What holds at the start and is kept by the environment and by every operation the
programs can reach holds at the end. -/
theorem invariant_within {I : W → Prop} {T : S.Op → Prop} (uses : ∀ r, (Y.handler r).Uses T)
    (start : I Y.start) (op : ∀ op w, T op → I w → I (Y.exec op w).2)
    (env : ∀ x w, I w → I (Y.environment x w)) : I s.world := by
  refine (induction_positions run (I := fun _ w => I w) start ?_).1
  intro n e at_n before
  rcases world_cases run (List.mem_of_getElem? at_n) with ⟨j, ev, does, h⟩ | ⟨x, -, h⟩ | ⟨-, h⟩
  · have a : At _ n j ev := ⟨e, at_n, does⟩
    obtain ⟨r, -, reachable⟩ := a.sat run (P := fun _ _ ev => T ev.op) (Q := fun _ _ _ => True)
      fun r => (uses r).sat fun _ _ within => within
    rw [h]
    exact op ev.op _ reachable before
  · rw [h]
    exact env x _ before
  · rw [h]
    exact before

/-- What an operation establishes and every later operation and the environment
keep holds at the end. -/
theorem At.onward {I : W → Prop} (a : At h m i ev) {e : PoolEntry S W Req Env ε α}
    (at_m : h[m]? = some e) (start : I (Y.exec ev.op e.before.world).2)
    (op : ∀ k j ev c, m < k → At h k j ev → h[k]? = some c → I c.before.world →
      I (Y.exec ev.op c.before.world).2)
    (env : ∀ x w, I w → I (Y.environment x w)) : I s.world := by
  rw [← (a.exec run at_m).2] at start
  refine run.onward (I := fun s => I s.world) at_m start ?_
  intro k c lt at_k before
  rcases world_cases run (List.mem_of_getElem? at_k) with ⟨j, ev, does, h⟩ | ⟨x, -, h⟩ | ⟨-, h⟩
  · rw [h]; exact op k j ev c lt ⟨c, at_k, does⟩ at_k before
  · rw [h]; exact env x _ before
  · rw [h]; exact before

/-- What holds at a position and is kept from there on holds at the end. -/
theorem onward_from {I : W → Prop} {e : PoolEntry S W Req Env ε α} (at_m : h[m]? = some e)
    (start : I e.before.world)
    (op : ∀ k j ev c, m ≤ k → At h k j ev → h[k]? = some c → I c.before.world →
      I (Y.exec ev.op c.before.world).2)
    (env : ∀ x w, I w → I (Y.environment x w)) : I s.world := by
  have step (k : Nat) (c : PoolEntry S W Req Env ε α) (le : m ≤ k) (at_k : h[k]? = some c)
      (before : I c.before.world) : I c.after.world := by
    rcases world_cases run (List.mem_of_getElem? at_k) with ⟨j, ev, does, h⟩ | ⟨x, -, h⟩ | ⟨-, h⟩
    · rw [h]; exact op k j ev c le ⟨c, at_k, does⟩ at_k before
    · rw [h]; exact env x _ before
    · rw [h]; exact before
  exact run.onward (I := fun s => I s.world) at_m (step m e (Nat.le_refl m) at_m start)
    fun k c lt at_k before => step k c (Nat.le_of_lt lt) at_k before

/-- What holds at the end, and not at the start, an operation has brought about. -/
theorem introduced_by {P : W → Prop} (start : ¬P Y.start)
    (env : ∀ x w, P (Y.environment x w) → P w) (now : P s.world) :
    ∃ n i ev e, At h n i ev ∧ h[n]? = some e ∧ ¬P e.before.world ∧
      P (Y.exec ev.op e.before.world).2 ∧ ∀ k c, n < k → h[k]? = some c → P c.before.world := by
  obtain ⟨n, e, at_n, absent, after, since⟩ :=
    run.introduced (P := fun s => P s.world) start now
  rcases world_cases run (List.mem_of_getElem? at_n) with ⟨i, ev, does, h⟩ | ⟨x, -, h⟩ | ⟨-, h⟩
  · exact ⟨n, i, ev, e, ⟨e, at_n, does⟩, at_n, absent, h ▸ after, since⟩
  · exact absurd (env x _ (h ▸ after)) absent
  · exact absurd (h ▸ after) absent

/-- The last operation of a run that could have changed `f`. -/
theorem last_change {β : Type} {f : W → β} {T : S.Op → Prop}
    (frame : ∀ op w, ¬T op → f (Y.exec op w).2 = f w)
    (env : ∀ x w, f (Y.environment x w) = f w) :
    f s.world = f Y.start ∨
    ∃ m i ev c, At h m i ev ∧ h[m]? = some c ∧ T ev.op ∧ f s.world = f c.after.world ∧
      ∀ k j ev', m < k → At h k j ev' → ¬T ev'.op := by
  have touched := run.last_touch (f := fun s => f s.world)
    (T := fun e => ∃ i ev, Does e i ev ∧ T ev.op) ?_
  · rcases touched with first | ⟨m, c, at_m, ⟨i, ev, does, hT⟩, eq, none⟩
    · exact Or.inl first
    · refine Or.inr ⟨m, i, ev, c, ⟨c, at_m, does⟩, at_m, hT, eq, ?_⟩
      intro k j ev' gt ⟨d, at_k, does'⟩ hT'
      exact none k d gt at_k ⟨j, ev', does', hT'⟩
  · intro e he untouched
    rcases world_cases run he with ⟨i, ev, does, h⟩ | ⟨x, -, h⟩ | ⟨-, h⟩
    · rw [h]
      exact frame _ _ fun hT => untouched ⟨i, ev, does, hT⟩
    · rw [h]; exact env _ _
    · rw [h]

/-- A preorder that every operation and the environment climb orders the world at a
position and the last one. -/
theorem world_climbs {R : W → W → Prop} (refl : ∀ w, R w w)
    (trans : ∀ u v w, R u v → R v w → R u w) (op : ∀ op w, R w (Y.exec op w).2)
    (env : ∀ x w, R w (Y.environment x w)) {a : PoolEntry S W Req Env ε α}
    (at_m : h[m]? = some a) : R a.before.world s.world := by
  have whole := run
  rw [← List.take_append_drop m h] at whole
  exact Y.pool_monotone refl trans op env (run.take at_m).1 whole

end
end AtomicSteps.System
