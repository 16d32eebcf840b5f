import Mathlib.Data.List.Induction
import Mathlib.Order.Lattice

/-!
Deterministic machines driven from outside, and the histories of their runs.

Every action is answered, and the history records the action, the answer and
the states around it. What the outside may do next is a parameter of a run and
may look at the whole history, so an assumption about the environment is a
definition of its own and never a field of the machine.
-/

namespace AtomicSteps

structure Machine (State Action Response : Type) where
  start : State
  perform : Action → State → Response × State

/-- One performed action with the states before and after it. -/
structure Entry (State Action Response : Type) where
  before : State
  action : Action
  response : Response
  after : State

abbrev History (State Action Response : Type) := List (Entry State Action Response)

/-- What the environment may do after a history, in the state it has reached. -/
abbrev Assumption (State Action Response : Type) :=
  History State Action Response → State → Action → Prop

variable {State Action Response : Type}

namespace Machine

def entry (M : Machine State Action Response) (s : State) (a : Action) :
    Entry State Action Response :=
  ⟨s, a, (M.perform a s).1, (M.perform a s).2⟩

@[simp] theorem entry_before (M : Machine State Action Response) (s : State) (a : Action) :
    (M.entry s a).before = s := rfl

@[simp] theorem entry_action (M : Machine State Action Response) (s : State) (a : Action) :
    (M.entry s a).action = a := rfl

@[simp] theorem entry_response (M : Machine State Action Response) (s : State) (a : Action) :
    (M.entry s a).response = (M.perform a s).1 := rfl

end Machine

/-- A run from the start state, extended at its end. -/
inductive Run (M : Machine State Action Response)
    (allowed : Assumption State Action Response) :
    History State Action Response → State → Prop
  | start : Run M allowed [] M.start
  | step {h s} (prior : Run M allowed h s) (a : Action) (ok : allowed h s a) :
      Run M allowed (h ++ [M.entry s a]) (M.perform a s).2

/-- Nothing is assumed of the environment. -/
def anything : Assumption State Action Response := fun _ _ _ => True

namespace Run

variable {M : Machine State Action Response}
  {allowed : Assumption State Action Response}
  {h k : History State Action Response} {s t : State}

/-- The induction rule of runs: a property of the history and the reached state
that one allowed action preserves holds along every run. -/
theorem invariant {I : History State Action Response → State → Prop}
    (base : I [] M.start)
    (step : ∀ h s a, Run M allowed h s → I h s → allowed h s a →
      I (h ++ [M.entry s a]) (M.perform a s).2)
    (run : Run M allowed h s) : I h s := by
  induction run with
  | start => exact base
  | step prior a ok ih => exact step _ _ a prior ih ok

theorem weaken {wider : Assumption State Action Response}
    (le : ∀ h s a, allowed h s a → wider h s a) (run : Run M allowed h s) :
    Run M wider h s := by
  induction run with
  | start => exact .start
  | step prior a ok ih => exact .step ih a (le _ _ a ok)

theorem snoc_inv {e : Entry State Action Response} (run : Run M allowed (h ++ [e]) s) :
    Run M allowed h e.before ∧ allowed h e.before e.action ∧
      e = M.entry e.before e.action ∧ s = e.after := by
  generalize hk : h ++ [e] = k at run
  cases run with
  | start => simp at hk
  | @step h' s' prior a ok =>
      obtain ⟨rfl, he⟩ := List.append_inj' hk rfl
      obtain rfl : e = M.entry s' a := by simpa using he
      exact ⟨prior, ok, rfl, rfl⟩

theorem nil_inv (run : Run M allowed [] s) : s = M.start := by
  generalize hk : ([] : History State Action Response) = k at run
  cases run with
  | start => rfl
  | step prior a ok => simp at hk

/-- A run passes through every state its history names. -/
theorem cut {e : Entry State Action Response} (run : Run M allowed (h ++ e :: k) s) :
    Run M allowed h e.before ∧ allowed h e.before e.action ∧
      e = M.entry e.before e.action ∧ Run M allowed (h ++ [e]) e.after := by
  induction k using List.reverseRecOn generalizing s with
  | nil =>
      obtain ⟨prior, ok, shape, rfl⟩ := run.snoc_inv
      exact ⟨prior, ok, shape, run⟩
  | append_singleton k f ih =>
      have run' : Run M allowed ((h ++ e :: k) ++ [f]) s := by
        simpa [List.append_assoc] using run
      exact ih run'.snoc_inv.1

theorem entry_eq (run : Run M allowed h s) {e : Entry State Action Response} (he : e ∈ h) :
    e = M.entry e.before e.action := by
  obtain ⟨h₁, h₂, rfl⟩ := List.append_of_mem he
  exact run.cut.2.2.1

theorem response_eq (run : Run M allowed h s) {e : Entry State Action Response}
    (he : e ∈ h) : e.response = (M.perform e.action e.before).1 := by
  conv_lhs => rw [run.entry_eq he]
  rfl

theorem after_eq (run : Run M allowed h s) {e : Entry State Action Response}
    (he : e ∈ h) : e.after = (M.perform e.action e.before).2 := by
  conv_lhs => rw [run.entry_eq he]
  rfl

/-- Two runs with one history end in one state. -/
theorem unique (first : Run M allowed h s) (second : Run M allowed h t) : s = t := by
  cases h using List.reverseRecOn with
  | nil => rw [first.nil_inv, second.nil_inv]
  | append_singleton h e => rw [first.snoc_inv.2.2.2, second.snoc_inv.2.2.2]

/-- What `cut` says of the entry at a position. -/
theorem take {n : Nat} {e : Entry State Action Response} (run : Run M allowed h s)
    (at_n : h[n]? = some e) : Run M allowed (h.take n) e.before ∧
      allowed (h.take n) e.before e.action ∧ e = M.entry e.before e.action := by
  obtain ⟨hlt, rfl⟩ := List.getElem?_eq_some_iff.mp at_n
  have split : h = h.take n ++ h[n] :: h.drop (n + 1) := by
    rw [← List.drop_eq_getElem_cons hlt, List.take_append_drop]
  rw [split] at run
  obtain ⟨prior, ok, shape, -⟩ := run.cut
  exact ⟨prior, ok, shape⟩

private theorem getElem?_snoc {α : Type} {l : List α} {a b : α} {k : Nat}
    (h : (l ++ [a])[k]? = some b) : l[k]? = some b ∨ k = l.length ∧ b = a := by
  rcases Nat.lt_trichotomy k l.length with lt | rfl | gt
  · rw [List.getElem?_append_left lt] at h
    exact Or.inl h
  · rw [List.getElem?_concat_length] at h
    exact Or.inr ⟨rfl, (Option.some.inj h).symm⟩
  · rw [List.getElem?_eq_none (by simpa using Nat.succ_le_of_lt gt)] at h
    cases h

private theorem getElem?_append_some {α : Type} {l l' : List α} {b : α} {k : Nat}
    (h : l[k]? = some b) : (l ++ l')[k]? = some b := by
  rw [List.getElem?_append_left (List.getElem?_eq_some_iff.mp h).1]
  exact h

/-- The rule for positions: what holds after the entry at `m` and is kept by every
later entry holds at the end. -/
theorem onward {I : State → Prop} (run : Run M allowed h s) {m : Nat}
    {a : Entry State Action Response} (at_m : h[m]? = some a) (start : I a.after)
    (step : ∀ k e, m < k → h[k]? = some e → I e.before → I e.after) : I s := by
  induction run with
  | start => cases at_m
  | @step h s prior b ok ih =>
      rcases getElem?_snoc at_m with at_m | ⟨-, rfl⟩
      · have before := ih at_m fun k e lt at_k => step k e lt (getElem?_append_some at_k)
        exact step h.length (M.entry s b) (List.getElem?_eq_some_iff.mp at_m).1
          List.getElem?_concat_length before
      · exact start

/-- The last entry of a run that could have changed `f`, if there is one. -/
theorem last_touch {β : Type} {f : State → β} {T : Entry State Action Response → Prop}
    (run : Run M allowed h s) (frame : ∀ e ∈ h, ¬T e → f e.after = f e.before) :
    f s = f M.start ∨ ∃ (m : Nat) (c : Entry State Action Response),
      h[m]? = some c ∧ T c ∧ f s = f c.after ∧ ∀ (k : Nat) d, m < k → h[k]? = some d → ¬T d := by
  induction run with
  | start => exact Or.inl rfl
  | @step h s prior a ok ih =>
      by_cases touched : T (M.entry s a)
      · refine Or.inr ⟨h.length, _, List.getElem?_concat_length, touched, rfl, ?_⟩
        intro k d gt at_k
        rcases getElem?_snoc at_k with at_k | ⟨rfl, -⟩
        · have lt := (List.getElem?_eq_some_iff.mp at_k).1
          omega
        · omega
      · have same : f (M.perform a s).2 = f s :=
          frame (M.entry s a) (List.mem_append_right _ (List.mem_singleton_self _)) touched
        rcases ih fun e he => frame e (List.mem_append_left _ he) with
          first | ⟨m, c, at_m, touch, eq, none⟩
        · exact Or.inl (same.trans first)
        · refine Or.inr ⟨m, c, getElem?_append_some at_m, touch, same.trans eq, ?_⟩
          intro k d gt at_k
          rcases getElem?_snoc at_k with at_k | ⟨-, rfl⟩
          · exact none k d gt at_k
          · exact touched

/-- What holds at the end and not at the start was brought about by one entry, and held
from then on. -/
theorem introduced {P : State → Prop} (run : Run M allowed h s) (start : ¬P M.start) (now : P s) :
    ∃ (n : Nat) (e : Entry State Action Response), h[n]? = some e ∧ ¬P e.before ∧ P e.after ∧
      ∀ (k : Nat) c, n < k → h[k]? = some c → P c.before := by
  induction run with
  | start => exact absurd now start
  | @step h s prior a ok ih =>
      by_cases before : P s
      · obtain ⟨n, e, at_n, absent, after, since⟩ := ih before
        refine ⟨n, e, getElem?_append_some at_n, absent, after, ?_⟩
        intro k c gt at_k
        rcases getElem?_snoc at_k with at_k | ⟨-, rfl⟩
        · exact since k c gt at_k
        · exact before
      · refine ⟨h.length, _, List.getElem?_concat_length, before, now, ?_⟩
        intro k c gt at_k
        rcases getElem?_snoc at_k with at_k | ⟨eq, -⟩
        · have lt := (List.getElem?_eq_some_iff.mp at_k).1
          omega
        · omega

/-- The rule for continuations: what holds where `h` ended and is preserved by
every later action holds in every continuation of `h`. -/
theorem continuation {J : History State Action Response → State → Prop}
    (base : ∀ s, Run M allowed h s → J [] s)
    (step : ∀ k s a, Run M allowed (h ++ k) s → J k s → allowed (h ++ k) s a →
      Run M allowed (h ++ (k ++ [M.entry s a])) (M.perform a s).2 →
      J (k ++ [M.entry s a]) (M.perform a s).2)
    (run : Run M allowed (h ++ k) s) : J k s := by
  induction k using List.reverseRecOn generalizing s with
  | nil => exact base s (by simpa using run)
  | append_singleton k e ih =>
      have run' : Run M allowed ((h ++ k) ++ [e]) s := by
        simpa [List.append_assoc] using run
      obtain ⟨prior, ok, shape, rfl⟩ := run'.snoc_inv
      rw [shape] at run ⊢
      exact step k e.before e.action prior (ih prior) ok run

end Run

namespace Machine

variable (M : Machine State Action Response)

def trace : State → List Action → History State Action Response
  | _, [] => []
  | s, a :: rest => M.entry s a :: trace (M.perform a s).2 rest

def final : State → List Action → State
  | s, [] => s
  | s, a :: rest => final (M.perform a s).2 rest

theorem trace_append (s : State) (as bs : List Action) :
    M.trace s (as ++ bs) = M.trace s as ++ M.trace (M.final s as) bs := by
  induction as generalizing s with
  | nil => rfl
  | cons a as ih => exact congrArg (M.entry s a :: ·) (ih _)

theorem trace_take (s : State) (as : List Action) (n : Nat) :
    (M.trace s as).take n = M.trace s (as.take n) := by
  induction as generalizing s n with
  | nil => simp [trace]
  | cons a as ih =>
      cases n with
      | zero => rfl
      | succ n => exact congrArg (M.entry s a :: ·) (ih _ n)

theorem trace_actions (s : State) (as : List Action) : (M.trace s as).map Entry.action = as := by
  induction as generalizing s with
  | nil => rfl
  | cons a as ih => exact congrArg (a :: ·) (ih _)

theorem action_mem {s : State} {as : List Action} {e : Entry State Action Response}
    (he : e ∈ M.trace s as) : e.action ∈ as := by
  have mem := List.mem_map_of_mem (f := Entry.action) he
  rwa [trace_actions] at mem

/-- The environment's assumption along the execution of a list of actions. -/
def AllowedFrom (allowed : Assumption State Action Response) :
    History State Action Response → State → List Action → Prop
  | _, _, [] => True
  | h, s, a :: rest =>
      allowed h s a ∧ AllowedFrom allowed (h ++ [M.entry s a]) (M.perform a s).2 rest

instance AllowedFrom.decidable (allowed : Assumption State Action Response)
    [∀ h s a, Decidable (allowed h s a)] (h : History State Action Response) (s : State)
    (actions : List Action) : Decidable (M.AllowedFrom allowed h s actions) :=
  match actions with
  | [] => inferInstanceAs (Decidable True)
  | a :: rest =>
      have := AllowedFrom.decidable allowed (h ++ [M.entry s a]) (M.perform a s).2 rest
      inferInstanceAs (Decidable (_ ∧ _))

theorem AllowedFrom.left {allowed : Assumption State Action Response} {as bs : List Action}
    {h : History State Action Response} {s : State}
    (ok : M.AllowedFrom allowed h s (as ++ bs)) : M.AllowedFrom allowed h s as := by
  induction as generalizing h s with
  | nil => trivial
  | cons a as ih => exact ⟨ok.1, ih ok.2⟩

theorem run_extend {allowed : Assumption State Action Response} (actions : List Action)
    {h : History State Action Response} {s : State} (run : Run M allowed h s)
    (ok : M.AllowedFrom allowed h s actions) :
    Run M allowed (h ++ M.trace s actions) (M.final s actions) := by
  induction actions generalizing h s with
  | nil => simpa [trace, final] using run
  | cons a rest ih =>
      have extended := ih (run.step a ok.1) ok.2
      rwa [List.append_assoc] at extended

theorem run_trace {allowed : Assumption State Action Response} (actions : List Action)
    (ok : M.AllowedFrom allowed [] M.start actions) :
    Run M allowed (M.trace M.start actions) (M.final M.start actions) :=
  M.run_extend actions .start ok

/-- Every list of actions is a run when anything is allowed. -/
theorem run_anything (actions : List Action) :
    Run M anything (M.trace M.start actions) (M.final M.start actions) := by
  have free (h : History State Action Response) (s : State) :
      M.AllowedFrom anything h s actions := by
    induction actions generalizing h s with
    | nil => trivial
    | cons a rest ih => exact ⟨trivial, ih _ _⟩
  exact M.run_trace actions (free _ _)

end Machine
end AtomicSteps
