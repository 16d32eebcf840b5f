import Smqtt.Library.Tally

/-!
Programs that settle a debt with their last operation. What a program owes depends
on its result; `Settles` says that it pays exactly that, with the operation after
which it only returns. Under every interleaving the payments made are then those
owed by the threads that have returned, in another order perhaps: nothing is paid
twice, nothing is paid by a program that fails, and no result goes unpaid.
-/

namespace AtomicSteps

variable {S : Signature} {W Req Env ε α β M : Type}

namespace Prog

/-- Whatever the answers, the program pays what its result owes, with its last
operation. -/
def Settles (pays : Event S → Option M) (owes : α → Option M) : Prog S ε α → Prop
  | .done a => owes a = none
  | .fail _ => True
  | .call op next => ∀ x,
      match pays ⟨op, x⟩ with
      | none => (next x).Settles pays owes
      | some m => ∃ a, next x = .done a ∧ owes a = some m

variable {pays : Event S → Option M} {owes : α → Option M}

theorem settles_silent {op : S.Op} {next : S.Answer op → Prog S ε α}
    (silent : ∀ x, pays ⟨op, x⟩ = none) (rest : ∀ x, (next x).Settles pays owes) :
    (Prog.call op next).Settles pays owes := by
  intro x
  rw [silent x]
  exact rest x

theorem settles_last {op : S.Op} {next : S.Answer op → Prog S ε α} {m : M}
    (pay : ∀ x, pays ⟨op, x⟩ = some m)
    (returns : ∀ x, ∃ a, next x = .done a ∧ owes a = some m) :
    (Prog.call op next).Settles pays owes := by
  intro x
  rw [pay x]
  exact returns x

/-- What comes before the payment does not pay. -/
theorem Uses.settles {p : Prog S ε β} {f : β → Prog S ε α}
    (hp : p.Uses fun op => ∀ x, pays ⟨op, x⟩ = none) (hf : ∀ b, (f b).Settles pays owes) :
    (p >>= f).Settles pays owes := by
  induction p with
  | done b => exact hf b
  | fail e => trivial
  | call op next ih => exact settles_silent hp.1 fun x => ih x (hp.2 x)

theorem Uses.settles_nothing {p : Prog S ε α} (hp : p.Uses fun op => ∀ x, pays ⟨op, x⟩ = none)
    (free : ∀ a, owes a = none) : p.Settles pays owes := by
  induction p with
  | done a => exact free a
  | fail e => trivial
  | call op next ih => exact settles_silent hp.1 fun x => ih x (hp.2 x)

/-- The result may be wrapped after the payment. -/
theorem Settles.map {p : Prog S ε β} {f : β → α}
    (hp : p.Settles pays fun b => owes (f b)) :
    (p >>= fun b => .done (f b)).Settles pays owes := by
  induction p with
  | done b => exact hp
  | fail e => trivial
  | call op next ih =>
      intro x
      have here := hp x
      cases payment : pays ⟨op, x⟩ with
      | none =>
          rw [payment] at here
          exact ih x here
      | some m =>
          rw [payment] at here
          obtain ⟨b, returned, owed⟩ := here
          refine ⟨f b, ?_, owed⟩
          change (next x >>= fun b => Prog.done (f b)) = .done (f b)
          rw [returned]
          rfl

/-- What a program owes when it has returned. -/
def owed (owes : α → Option M) : Prog S ε α → Option M
  | .done a => owes a
  | _ => none

theorem Settles.owed {p : Prog S ε α} (hp : p.Settles pays owes) : p.owed owes = none := by
  cases p with
  | done a => exact hp
  | fail e => rfl
  | call op next => rfl

end Prog

theorem filterMap_set_same {A : Type} {f : A → Option M} {l : List A} {i : Nat} {a b : A}
    (at_i : l[i]? = some a) (same : f b = f a) : (l.set i b).filterMap f = l.filterMap f := by
  induction l generalizing i with
  | nil => cases at_i
  | cons c l ih =>
      cases i with
      | zero =>
          obtain rfl := Option.some.inj at_i
          rw [List.set_cons_zero, List.filterMap_cons, List.filterMap_cons, same]
      | succ i =>
          rw [List.set_cons_succ, List.filterMap_cons, List.filterMap_cons, ih at_i]

theorem filterMap_set_perm {A : Type} {f : A → Option M} {l : List A} {i : Nat} {a b : A} {m : M}
    (at_i : l[i]? = some a) (before : f a = none) (after : f b = some m) :
    ((l.set i b).filterMap f).Perm (l.filterMap f ++ [m]) := by
  induction l generalizing i with
  | nil => cases at_i
  | cons c l ih =>
      cases i with
      | zero =>
          obtain rfl := Option.some.inj at_i
          rw [List.set_cons_zero, List.filterMap_cons_some after, List.filterMap_cons_none before]
          exact (List.perm_append_singleton m _).symm
      | succ i =>
          rw [List.set_cons_succ]
          cases head : f c with
          | none =>
              rw [List.filterMap_cons_none head, List.filterMap_cons_none head]
              exact ih at_i
          | some k =>
              rw [List.filterMap_cons_some head, List.filterMap_cons_some head, List.cons_append]
              exact (ih at_i).cons k

namespace System

variable {Y : System S W Req Env ε α}
  {allowed : Assumption (Pool S W Req ε α) (PoolAction Req Env) (Option (Event S))}
  {h : PoolHistory S W Req Env ε α} {s : Pool S W Req ε α}
  {pays : Event S → Option M} {owes : Req → α → Option M}

/-- What the threads that have returned owe. -/
def dues (owes : Req → α → Option M) (s : Pool S W Req ε α) : List M :=
  s.threads.filterMap fun t => t.2.owed (owes t.1)

/-- The threads that owe nothing yet will pay what they come to owe. -/
def Solvent (pays : Event S → Option M) (owes : Req → α → Option M) (s : Pool S W Req ε α) :
    Prop :=
  ∀ r p, (r, p) ∈ s.threads → p.owed (owes r) = none → p.Settles pays (owes r)

/-- One operation of a thread: what it pays is what has come to be owed. -/
theorem settles_step {i : Nat} {r : Req} {op : S.Op} {next : S.Answer op → Prog S ε α} {w : W}
    (solvent : Solvent pays owes s) (at_i : s.threads[i]? = some (r, .call op next))
    (x : S.Answer op) :
    Solvent pays owes ⟨w, s.threads.set i (r, next x)⟩ ∧
      (dues owes ⟨w, s.threads.set i (r, next x)⟩).Perm
        (dues owes s ++ (pays ⟨op, x⟩).toList) := by
  have here := solvent r _ (List.mem_of_getElem? at_i) rfl x
  have others (own : (next x).owed (owes r) = none → (next x).Settles pays (owes r)) :
      Solvent pays owes ⟨w, s.threads.set i (r, next x)⟩ := by
    intro r' p mem unpaid
    rcases List.mem_or_eq_of_mem_set mem with old | new
    · exact solvent r' p old unpaid
    · obtain ⟨rfl, rfl⟩ := Prod.mk.inj new
      exact own unpaid
  cases payment : pays ⟨op, x⟩ with
  | none =>
      rw [payment] at here
      have kept : dues owes ⟨w, s.threads.set i (r, next x)⟩ = dues owes s :=
        filterMap_set_same at_i here.owed
      rw [kept, Option.toList_none, List.append_nil]
      exact ⟨others fun _ => here, .refl _⟩
  | some m =>
      rw [payment] at here
      obtain ⟨a, returned, owed⟩ := here
      have owed : (next x).owed (owes r) = some m := by rw [returned]; exact owed
      refine ⟨others fun unpaid => ?_, filterMap_set_perm at_i rfl owed⟩
      rw [owed] at unpaid
      cases unpaid

/-- Every debt of a thread that has returned is paid once, and nothing else is paid. -/
theorem payments_perm (settles : ∀ r, (Y.handler r).Settles pays (owes r))
    (run : Run Y.pool allowed h s) : ((events h).filterMap pays).Perm (dues owes s) := by
  refine (run.invariant (I := fun h s => Solvent pays owes s ∧
    ((events h).filterMap pays).Perm (dues owes s)) ⟨fun r p mem => ?_, .refl _⟩ ?_).2
  · cases mem
  intro h s a run ⟨solvent, perm⟩ _
  rw [events_append, events_entry, List.filterMap_append]
  cases a with
  | env x => exact ⟨solvent, by simpa [dues] using perm⟩
  | spawn r =>
      have free : (Y.handler r).owed (owes r) = none := (settles r).owed
      refine ⟨fun r' p mem unpaid => ?_, by simpa [dues, free] using perm⟩
      rcases List.mem_append.mp mem with old | new
      · exact solvent r' p old unpaid
      · obtain ⟨rfl, rfl⟩ := Prod.mk.inj (List.mem_singleton.mp new)
        exact settles r'
  | step i =>
      rcases Y.pool_step_cases i s with ⟨r, op, next, at_i, hp⟩ | hp
      · rw [hp]
        obtain ⟨solvent', paid⟩ :=
          settles_step (w := (Y.exec op s.world).2) solvent at_i (Y.exec op s.world).1
        refine ⟨solvent', List.Perm.trans ?_ paid.symm⟩
        have single (ev : Event S) : [ev].filterMap pays = (pays ev).toList := by
          cases payment : pays ev <;> simp [payment]
        rw [Option.toList_some, single]
        exact perm.append_right _
      · rw [hp]
        exact ⟨solvent, by simpa using perm⟩

end System
end AtomicSteps
