import Smqtt.Library.Prog

/-!
Programs that undo nothing because they have nothing to undo.

A program is `Transactional` for a class of harmless events when it can fail only
while all its events are harmless: the first other event is a point of no return,
after which it `Succeeds`. The class is one of events, not of operations, so a
statement may be harmless with one answer and not with another. The rules follow the
program: harmless parts may stand before a transactional one, and parts that cannot
fail after it. An error is `Explained` when the events before it hold a cause of it.
-/

namespace AtomicSteps.Prog

variable {S : Signature} {ε ε' α β W : Type}

/-- Whatever the answers, the program does not fail. -/
def Succeeds : Prog S ε α → Prop
  | .done _ => True
  | .fail _ => False
  | .call _ next => ∀ x, (next x).Succeeds

/-- Whatever the answers, every event of the program is of the class. -/
def Only (H : Event S → Prop) : Prog S ε α → Prop
  | .done _ => True
  | .fail _ => True
  | .call op next => ∀ x, H ⟨op, x⟩ ∧ (next x).Only H

/-- Every event is of the class until the program can no longer fail. -/
def Transactional (H : Event S → Prop) : Prog S ε α → Prop
  | .done _ => True
  | .fail _ => True
  | .call op next => ∀ x, H ⟨op, x⟩ ∧ (next x).Transactional H ∨ (next x).Succeeds

variable {H : Event S → Prop}

theorem Succeeds.perform (op : S.Op) :
    (Prog.perform op : Prog S ε (S.Answer op)).Succeeds := fun _ => trivial

theorem Succeeds.bind {p : Prog S ε α} {f : α → Prog S ε β} (hp : p.Succeeds)
    (hf : ∀ a, (f a).Succeeds) : (p >>= f).Succeeds := by
  induction p with
  | done a => exact hf a
  | fail e => exact hp.elim
  | call op next ih => exact fun x => ih x (hp x)

/-- The caller of an attempt gets the error as a value. -/
theorem Succeeds.attempt (p : Prog S ε α) :
    (p.attempt : Prog S ε' (Except ε α)).Succeeds := by
  induction p with
  | done a => trivial
  | fail e => trivial
  | call op next ih => exact ih

theorem Succeeds.transactional {p : Prog S ε α} (hp : p.Succeeds) : p.Transactional H := by
  cases p with
  | done a => trivial
  | fail e => trivial
  | call op next => exact fun x => Or.inr (hp x)

theorem Succeeds.path {p q : Prog S ε α} {es : List (Event S)} (path : Path p es q)
    (hp : p.Succeeds) : q.Succeeds := by
  induction path with
  | nil p => exact hp
  | cons rest ih => exact ih (hp _)

theorem Only.ofExcept (r : Except ε α) : (Prog.ofExcept r : Prog S ε α).Only H := by
  cases r <;> trivial

theorem Only.perform {op : S.Op} (h : ∀ x, H ⟨op, x⟩) :
    (Prog.perform op : Prog S ε (S.Answer op)).Only H := fun x => ⟨h x, trivial⟩

/-- Operations that are harmless with every answer. -/
theorem Uses.only {A : S.Op → Prop} {p : Prog S ε α} (hp : p.Uses A)
    (harmless : ∀ op, A op → ∀ x, H ⟨op, x⟩) : p.Only H := by
  induction p with
  | done a => trivial
  | fail e => trivial
  | call op next ih => exact fun x => ⟨harmless op hp.1 x, ih x (hp.2 x)⟩

theorem Transactional.bind {p : Prog S ε α} {f : α → Prog S ε β} (hp : p.Only H)
    (hf : ∀ a, (f a).Transactional H) : (p >>= f).Transactional H := by
  induction p with
  | done a => exact hf a
  | fail e => trivial
  | call op next ih => exact fun x => Or.inl ⟨(hp x).1, ih x (hp x).2⟩

/-- What follows the point of no return must not fail. -/
theorem Transactional.commit {p : Prog S ε α} {f : α → Prog S ε β} (hp : p.Transactional H)
    (hf : ∀ a, (f a).Succeeds) : (p >>= f).Transactional H := by
  induction p with
  | done a => exact (hf a).transactional
  | fail e => trivial
  | call op next ih =>
      intro x
      rcases hp x with ⟨harmless, rest⟩ | rest
      · exact Or.inl ⟨harmless, ih x rest⟩
      · exact Or.inr (rest.bind hf)

/-- A transactional program that has failed went through harmless events only. -/
theorem Transactional.path {p : Prog S ε α} {es : List (Event S)} {e : ε}
    (path : Path p es (.fail e)) (hp : p.Transactional H) : ∀ ev ∈ es, H ev := by
  generalize hq : Prog.fail e = q at path
  induction path with
  | nil p => exact nofun
  | cons rest ih =>
      rcases hp _ with ⟨harmless, after⟩ | after
      · exact List.forall_mem_cons.mpr ⟨harmless, ih after hq⟩
      · have failed := after.path rest
        rw [← hq] at failed
        exact failed.elim

section
variable {serious : ε → Prop} {cause : List (Event S) → Prop} {seen : List (Event S)}

/-- With a serious error the program fails only when what it has seen is a cause. -/
def Explained (serious : ε → Prop) (cause : List (Event S) → Prop) (seen : List (Event S))
    (p : Prog S ε α) : Prop :=
  Sat (fun _ _ => True) (fun s r => ∀ e, r = .error e → serious e → cause s) seen p

theorem explained_done (a : α) :
    Explained serious cause seen (.done a : Prog S ε α) := by
  intro e failed
  cases failed

theorem explained_fail {e : ε} (caused : serious e → cause seen) :
    Explained serious cause seen (.fail e : Prog S ε α) := by
  intro e' failed grave
  obtain rfl := Except.error.inj failed
  exact caused grave

theorem explained_perform (op : S.Op) :
    Explained serious cause seen (Prog.perform op : Prog S ε (S.Answer op)) :=
  fun x => ⟨trivial, explained_done x⟩

theorem explained_ofExcept {r : Except ε α}
    (caused : ∀ e, r = .error e → serious e → cause seen) :
    Explained serious cause seen (Prog.ofExcept r : Prog S ε α) :=
  Sat.ofExcept caused

theorem Explained.bind {p : Prog S ε α} {f : α → Prog S ε β}
    (hp : Explained serious cause seen p) (hf : ∀ s a, Explained serious cause s (f a)) :
    Explained serious cause seen (p >>= f) := by
  refine Sat.bind (Sat.mono hp (fun _ _ h => h) fun s r explained => ?_)
  cases r with
  | ok a => exact hf s a
  | error e =>
      intro e' failed grave
      obtain rfl := Except.error.inj failed
      exact explained e rfl grave

theorem Succeeds.explained {p : Prog S ε α} (hp : p.Succeeds) :
    Explained serious cause seen p := by
  induction p generalizing seen with
  | done a => exact explained_done a
  | fail e => exact hp.elim
  | call op next ih => exact fun x => ⟨trivial, ih x (hp x)⟩

end

section
variable {exec : (op : S.Op) → W → S.Answer op × W}

theorem run_path (exec : (op : S.Op) → W → S.Answer op × W) (p : Prog S ε α) (w : W) :
    Path p (p.events exec w) (.ofExcept (p.run exec w).1) := by
  induction p generalizing w with
  | done a => exact .nil _
  | fail e => exact .nil _
  | call op next ih => exact .cons (ih _ _)

theorem Transactional.events {p : Prog S ε α} (hp : p.Transactional H) {w w' : W} {e : ε}
    (failed : p.run exec w = (.error e, w')) : ∀ ev ∈ p.events exec w, H ev := by
  have path := run_path exec p w
  rw [failed] at path
  exact hp.path path

/-- A relation that every event of an execution respects relates its two ends. -/
theorem run_related {R : W → W → Prop} (refl : ∀ w, R w w)
    (trans : ∀ {u v w}, R u v → R v w → R u w) {p : Prog S ε α} {w : W}
    (steps : ∀ ev ∈ p.events exec w, ∀ v, (exec ev.op v).1 = ev.answer → R v (exec ev.op v).2) :
    R w (p.run exec w).2 := by
  induction p generalizing w with
  | done a => exact refl w
  | fail e => exact refl w
  | call op next ih =>
      obtain ⟨first, rest⟩ := List.forall_mem_cons.mp steps
      exact trans (first w rfl) (ih _ rest)

end
end AtomicSteps.Prog
