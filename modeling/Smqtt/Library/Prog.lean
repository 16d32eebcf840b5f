import Mathlib.Logic.Basic

/-!
Programs as trees of atomic operations.

A program either returns a value, fails with an error or calls one operation
and goes on with its answer. The same tree is read in two ways: `run` executes
it without interruption, and the thread pools of the next module interleave it
with others one operation at a time. `Sat` is the logic of a single program: it
constrains each operation by the events the program has seen before it, so a
fact proved once holds under every interleaving. `Coupled` compares two executions,
from different states or with different operations.
-/

namespace AtomicSteps

/-- The atomic operations of a system, each with the type of its answer. -/
structure Signature where
  Op : Type
  Answer : Op → Type

inductive Prog (S : Signature) (ε α : Type)
  | done (value : α)
  | fail (error : ε)
  | call (op : S.Op) (next : S.Answer op → Prog S ε α)

/-- One executed operation together with its answer. -/
structure Event (S : Signature) where
  op : S.Op
  answer : S.Answer op

namespace Prog

variable {S : Signature} {ε ε' α β γ W : Type}

def bind : Prog S ε α → (α → Prog S ε β) → Prog S ε β
  | .done a, f => f a
  | .fail e, _ => .fail e
  | .call op next, f => .call op fun x => (next x).bind f

instance : Monad (Prog S ε) where
  pure := .done
  bind := .bind

def perform (op : S.Op) : Prog S ε (S.Answer op) := .call op .done

def ofExcept : Except ε α → Prog S ε α
  | .ok a => .done a
  | .error e => .fail e

/-- Run a program whose error the caller inspects or discards. -/
def attempt : Prog S ε α → Prog S ε' (Except ε α)
  | .done a => .done (.ok a)
  | .fail e => .done (.error e)
  | .call op next => .call op fun x => (next x).attempt

@[simp] theorem pure_eq (a : α) : (pure a : Prog S ε α) = .done a := rfl

@[simp] theorem done_bind (a : α) (f : α → Prog S ε β) :
    (Prog.done a >>= f : Prog S ε β) = f a := rfl

@[simp] theorem fail_bind (e : ε) (f : α → Prog S ε β) :
    (Prog.fail e >>= f : Prog S ε β) = .fail e := rfl

@[simp] theorem call_bind (op : S.Op) (next : S.Answer op → Prog S ε α)
    (f : α → Prog S ε β) :
    (Prog.call op next >>= f : Prog S ε β) = .call op fun x => next x >>= f := rfl

@[simp] theorem perform_bind (op : S.Op) (f : S.Answer op → Prog S ε β) :
    (perform op >>= f : Prog S ε β) = .call op f := rfl

@[simp] theorem ofExcept_ok (a : α) :
    (ofExcept (.ok a) : Prog S ε α) = .done a := rfl

@[simp] theorem ofExcept_error (e : ε) :
    (ofExcept (.error e) : Prog S ε α) = .fail e := rfl

theorem bind_assoc (p : Prog S ε α) (f : α → Prog S ε β) (g : β → Prog S ε γ) :
    p >>= f >>= g = p >>= fun a => f a >>= g := by
  induction p with
  | done a => rfl
  | fail e => rfl
  | call op next ih => exact congrArg (Prog.call op) (funext fun x => ih x)

section
variable (exec : (op : S.Op) → W → S.Answer op × W)

def run : Prog S ε α → W → Except ε α × W
  | .done a, w => (.ok a, w)
  | .fail e, w => (.error e, w)
  | .call op next, w => (next (exec op w).1).run (exec op w).2

@[simp] theorem run_done (a : α) (w : W) :
    (Prog.done a : Prog S ε α).run exec w = (.ok a, w) := rfl

@[simp] theorem run_fail (e : ε) (w : W) :
    (Prog.fail e : Prog S ε α).run exec w = (.error e, w) := rfl

@[simp] theorem run_call (op : S.Op) (next : S.Answer op → Prog S ε α) (w : W) :
    (Prog.call op next).run exec w = (next (exec op w).1).run exec (exec op w).2 := rfl

theorem run_bind (p : Prog S ε α) (f : α → Prog S ε β) (w : W) :
    (p >>= f).run exec w = match p.run exec w with
      | (.ok a, w') => (f a).run exec w'
      | (.error e, w') => (.error e, w') := by
  induction p generalizing w with
  | done a => rfl
  | fail e => rfl
  | call op next ih => exact ih _ _

/-- A sequence succeeds when both parts do. -/
theorem run_bind_ok {p : Prog S ε α} {f : α → Prog S ε β} {w w' : W} {b : β} :
    (p >>= f).run exec w = (.ok b, w') ↔
      ∃ a v, p.run exec w = (.ok a, v) ∧ (f a).run exec v = (.ok b, w') := by
  rw [run_bind]
  constructor
  · intro h
    split at h
    · exact ⟨_, _, by assumption, h⟩
    · simp at h
  · rintro ⟨a, v, hp, hf⟩
    rw [hp]
    exact hf

theorem run_attempt (p : Prog S ε α) (w : W) :
    (p.attempt : Prog S ε' (Except ε α)).run exec w =
      (.ok (p.run exec w).1, (p.run exec w).2) := by
  induction p generalizing w with
  | done a => rfl
  | fail e => rfl
  | call op next ih => exact ih _ _

/-- The operations of an uninterrupted execution with their answers. -/
def events : Prog S ε α → W → List (Event S)
  | .done _, _ => []
  | .fail _, _ => []
  | .call op next, w =>
      ⟨op, (exec op w).1⟩ :: (next (exec op w).1).events (exec op w).2

theorem events_bind (p : Prog S ε α) (f : α → Prog S ε β) (w : W) :
    (p >>= f).events exec w = p.events exec w ++ match p.run exec w with
      | (.ok a, w') => (f a).events exec w'
      | (.error _, _) => [] := by
  induction p generalizing w with
  | done a => rfl
  | fail e => rfl
  | call op next ih => exact congrArg (_ :: ·) (ih _ _)

theorem events_attempt (p : Prog S ε α) (w : W) :
    (p.attempt : Prog S ε' (Except ε α)).events exec w = p.events exec w := by
  induction p generalizing w with
  | done a => rfl
  | fail e => rfl
  | call op next ih => exact congrArg (_ :: ·) (ih _ _)

end

/-- Every operation the program can reach, whatever the answers, satisfies `A`. -/
def Uses (A : S.Op → Prop) : Prog S ε α → Prop
  | .done _ => True
  | .fail _ => True
  | .call op next => A op ∧ ∀ x, (next x).Uses A

@[simp] theorem uses_done (A : S.Op → Prop) (a : α) :
    (Prog.done a : Prog S ε α).Uses A ↔ True := Iff.rfl

@[simp] theorem uses_fail (A : S.Op → Prop) (e : ε) :
    (Prog.fail e : Prog S ε α).Uses A ↔ True := Iff.rfl

@[simp] theorem uses_call (A : S.Op → Prop) (op : S.Op)
    (next : S.Answer op → Prog S ε α) :
    (Prog.call op next).Uses A ↔ A op ∧ ∀ x, (next x).Uses A := Iff.rfl

theorem uses_all (p : Prog S ε α) : p.Uses fun _ => True := by
  induction p with
  | done a => trivial
  | fail e => trivial
  | call op next ih => exact ⟨trivial, ih⟩

theorem Uses.bind {A : S.Op → Prop} {p : Prog S ε α} {f : α → Prog S ε β}
    (hp : p.Uses A) (hf : ∀ a, (f a).Uses A) : (p >>= f).Uses A := by
  induction p with
  | done a => exact hf a
  | fail e => trivial
  | call op next ih => exact ⟨hp.1, fun x => ih x (hp.2 x)⟩

theorem Uses.attempt {A : S.Op → Prop} {p : Prog S ε α} (hp : p.Uses A) :
    (p.attempt : Prog S ε' (Except ε α)).Uses A := by
  induction p with
  | done a => trivial
  | fail e => trivial
  | call op next ih => exact ⟨hp.1, fun x => ih x (hp.2 x)⟩

theorem Uses.mono {A B : S.Op → Prop} {p : Prog S ε α} (hp : p.Uses A)
    (le : ∀ op, A op → B op) : p.Uses B := by
  induction p with
  | done a => trivial
  | fail e => trivial
  | call op next ih => exact ⟨le op hp.1, fun x => ih x (hp.2 x)⟩

theorem Uses.events {A : S.Op → Prop} {exec : (op : S.Op) → W → S.Answer op × W}
    {p : Prog S ε α} (hp : p.Uses A) {w : W} {e : Event S} (he : e ∈ p.events exec w) :
    A e.op := by
  induction p generalizing w with
  | done a => cases he
  | fail e => cases he
  | call op next ih =>
      rcases List.mem_cons.mp he with rfl | he
      · exact hp.1
      · exact ih _ (hp.2 _) he

/-- The frame rule: what every usable operation preserves, the program preserves. -/
theorem Uses.run_preserves {A : S.Op → Prop} {exec : (op : S.Op) → W → S.Answer op × W}
    {I : W → Prop} {p : Prog S ε α} (hp : p.Uses A)
    (keeps : ∀ op, A op → ∀ w, I w → I (exec op w).2) {w : W} (hw : I w) :
    I (p.run exec w).2 := by
  induction p generalizing w with
  | done a => exact hw
  | fail e => exact hw
  | call op next ih => exact ih _ (hp.2 _) (keeps op hp.1 w hw)

theorem Uses.run_frame {A : S.Op → Prop} {exec : (op : S.Op) → W → S.Answer op × W}
    {f : W → β} {p : Prog S ε α} (hp : p.Uses A)
    (keeps : ∀ op, A op → ∀ w, f (exec op w).2 = f w) (w : W) :
    f (p.run exec w).2 = f w :=
  hp.run_preserves (I := fun v => f v = f w)
    (fun op hop v hv => (keeps op hop v).trans hv) rfl

section
variable {exec : (op : S.Op) → W → S.Answer op × W} {w : W}

/-- Run from this state the program succeeds, and its result and the state it leaves
satisfy the postcondition. -/
def Achieves (exec : (op : S.Op) → W → S.Answer op × W) (p : Prog S ε α) (w : W)
    (Q : α → W → Prop) : Prop :=
  ∃ a w', p.run exec w = (.ok a, w') ∧ Q a w'

theorem achieves_done {Q : α → W → Prop} {a : α} (post : Q a w) :
    Achieves exec (.done a : Prog S ε α) w Q :=
  ⟨a, w, rfl, post⟩

theorem achieves_perform {op : S.Op} {Q : S.Answer op → W → Prop}
    (post : Q (exec op w).1 (exec op w).2) :
    Achieves exec (Prog.perform op : Prog S ε (S.Answer op)) w Q :=
  ⟨_, _, rfl, post⟩

/-- A sequence achieves what its second part achieves from where the first leaves off. -/
theorem Achieves.bind {p : Prog S ε α} {f : α → Prog S ε β} {Q : β → W → Prop}
    (first : Achieves exec p w fun a w' => Achieves exec (f a) w' Q) :
    Achieves exec (p >>= f) w Q := by
  obtain ⟨a, v, run, b, w', run', post⟩ := first
  exact ⟨b, w', (run_bind_ok exec).mpr ⟨a, v, run, run'⟩, post⟩

theorem Achieves.mono {p : Prog S ε α} {Q R : α → W → Prop} (achieves : Achieves exec p w Q)
    (weaker : ∀ a w', Q a w' → R a w') : Achieves exec p w R := by
  obtain ⟨a, w', run, post⟩ := achieves
  exact ⟨a, w', run, weaker a w' post⟩

/-- What every operation preserves holds of the state that is left, too. -/
theorem Achieves.preserving {I : W → Prop} {p : Prog S ε α} {Q : α → W → Prop}
    (achieves : Achieves exec p w Q) (keeps : ∀ op w, I w → I (exec op w).2) (now : I w) :
    Achieves exec p w fun a w' => Q a w' ∧ I w' := by
  obtain ⟨a, w', run, post⟩ := achieves
  have kept := (uses_all p).run_preserves (fun op _ v => keeps op v) now
  rw [run] at kept
  exact ⟨a, w', run, post, kept⟩

end

section
variable {exec exec' : (op : S.Op) → W → S.Answer op × W} {R : W → W → Prop}

/-- Run from these two states, the two programs return the same and leave related
states behind. -/
def Coupled (exec exec' : (op : S.Op) → W → S.Answer op × W) (R : W → W → Prop)
    (p p' : Prog S ε α) (w w' : W) : Prop :=
  (p.run exec w).1 = (p'.run exec' w').1 ∧ R (p.run exec w).2 (p'.run exec' w').2

theorem Coupled.seq {T : W → W → Prop} {p p' : Prog S ε α} {f f' : α → Prog S ε β} {w w' : W}
    (hp : Coupled exec exec' R p p' w w') (le : ∀ v v', R v v' → T v v')
    (hf : ∀ a v v', R v v' → Coupled exec exec' T (f a) (f' a) v v') :
    Coupled exec exec' T (p >>= f) (p' >>= f') w w' := by
  obtain ⟨same, related⟩ := hp
  unfold Coupled
  rw [run_bind, run_bind]
  revert same related
  cases p.run exec w with
  | mk result v =>
      cases p'.run exec' w' with
      | mk result' v' =>
          rintro rfl related
          cases result with
          | ok a => exact hf a v v' related
          | error e => exact ⟨rfl, le v v' related⟩

theorem Coupled.bind {p p' : Prog S ε α} {f f' : α → Prog S ε β} {w w' : W}
    (hp : Coupled exec exec' R p p' w w')
    (hf : ∀ a v v', R v v' → Coupled exec exec' R (f a) (f' a) v v') :
    Coupled exec exec' R (p >>= f) (p' >>= f') w w' :=
  hp.seq (fun _ _ related => related) hf

/-- When every operation of a program answers the same in related states and keeps
them related, so does the program. -/
theorem Uses.coupled {A : S.Op → Prop} {p : Prog S ε α} (hp : p.Uses A)
    (same : ∀ op, A op → ∀ v v', R v v' →
      (exec op v).1 = (exec' op v').1 ∧ R (exec op v).2 (exec' op v').2)
    {w w' : W} (related : R w w') : Coupled exec exec' R p p w w' := by
  induction p generalizing w w' with
  | done a => exact ⟨rfl, related⟩
  | fail e => exact ⟨rfl, related⟩
  | call op next ih =>
      obtain ⟨answer, after⟩ := same op hp.1 w w' related
      unfold Coupled
      rw [run_call, run_call, ← answer]
      exact ih _ (hp.2 _) after

end

/-- The program goes through these events and is left with this remainder. -/
inductive Path : Prog S ε α → List (Event S) → Prog S ε α → Prop
  | nil (p : Prog S ε α) : Path p [] p
  | cons {op : S.Op} {next : S.Answer op → Prog S ε α} {x : S.Answer op}
      {es : List (Event S)} {q : Prog S ε α} (rest : Path (next x) es q) :
      Path (.call op next) (⟨op, x⟩ :: es) q

theorem Path.snoc {p : Prog S ε α} {es : List (Event S)} {op : S.Op}
    {next : S.Answer op → Prog S ε α} (path : Path p es (.call op next))
    (x : S.Answer op) : Path p (es ++ [⟨op, x⟩]) (next x) := by
  generalize hq : Prog.call op next = q at path
  induction path with
  | nil p => subst hq; exact .cons (.nil _)
  | cons rest ih => exact .cons (ih hq)

/-- A program that has returned after some events goes no further. -/
theorem Path.finished {p q : Prog S ε α} {a : α} {es rest : List (Event S)}
    (path : Path p es (.done a)) (path' : Path p (es ++ rest) q) : q = .done a := by
  generalize hd : Prog.done a = d at path
  induction path with
  | nil p =>
      subst hd
      generalize he : [] ++ rest = es' at path'
      cases path' with
      | nil => rfl
  | cons _ ih =>
      cases path' with
      | cons rest' => exact ih rest' hd

theorem Path.bind {p : Prog S ε α} {f : α → Prog S ε β} {a : α} {es es' : List (Event S)}
    {q : Prog S ε β} (first : Path p es (.done a)) (rest : Path (f a) es' q) :
    Path (p >>= f) (es ++ es') q := by
  generalize hd : Prog.done a = d at first
  induction first with
  | nil p =>
      subst hd
      exact rest
  | cons _ ih => exact .cons (ih hd)

theorem Path.attempt {p : Prog S ε α} {r : Except ε α} {es : List (Event S)}
    (path : Path p es (.ofExcept r)) :
    Path (p.attempt : Prog S ε' (Except ε α)) es (.done r) := by
  generalize hd : Prog.ofExcept r = d at path
  induction path with
  | nil p =>
      subst hd
      cases r <;> exact .nil _
  | cons _ ih => exact .cons (ih hd)

/-- `Sat P Q seen p`: after the events `seen`, every event of `p` satisfies `P`
with the events before it, and every result satisfies `Q` with all of them. -/
def Sat (P : List (Event S) → Event S → Prop)
    (Q : List (Event S) → Except ε α → Prop) : List (Event S) → Prog S ε α → Prop
  | seen, .done a => Q seen (.ok a)
  | seen, .fail e => Q seen (.error e)
  | seen, .call op next =>
      ∀ x, P seen ⟨op, x⟩ ∧ Sat P Q (seen ++ [⟨op, x⟩]) (next x)

variable {P : List (Event S) → Event S → Prop} {seen : List (Event S)}

@[simp] theorem sat_done {Q : List (Event S) → Except ε α → Prop} (a : α) :
    Sat P Q seen (.done a) ↔ Q seen (.ok a) := Iff.rfl

@[simp] theorem sat_fail {Q : List (Event S) → Except ε α → Prop} (e : ε) :
    Sat P Q seen (.fail e) ↔ Q seen (.error e) := Iff.rfl

theorem Sat.bind {Q : List (Event S) → Except ε β → Prop} {p : Prog S ε α}
    {f : α → Prog S ε β}
    (hp : Sat P (fun s r => match r with
      | .ok a => Sat P Q s (f a)
      | .error e => Q s (.error e)) seen p) :
    Sat P Q seen (p >>= f) := by
  induction p generalizing seen with
  | done a => exact hp
  | fail e => exact hp
  | call op next ih => exact fun x => ⟨(hp x).1, ih x (hp x).2⟩

theorem Sat.ofExcept {Q : List (Event S) → Except ε α → Prop} {r : Except ε α}
    (h : Q seen r) : Sat P Q seen (ofExcept r) := by
  cases r <;> exact h

theorem Sat.attempt {Q : List (Event S) → Except ε' (Except ε α) → Prop} {p : Prog S ε α}
    (hp : Sat P (fun s r => Q s (.ok r)) seen p) : Sat P Q seen p.attempt := by
  induction p generalizing seen with
  | done a => exact hp
  | fail e => exact hp
  | call op next ih => exact fun x => ⟨(hp x).1, ih x (hp x).2⟩

theorem Sat.mono {P' : List (Event S) → Event S → Prop}
    {Q Q' : List (Event S) → Except ε α → Prop} {p : Prog S ε α}
    (hp : Sat P Q seen p) (hP : ∀ s e, P s e → P' s e) (hQ : ∀ s r, Q s r → Q' s r) :
    Sat P' Q' seen p := by
  induction p generalizing seen with
  | done a => exact hQ _ _ hp
  | fail e => exact hQ _ _ hp
  | call op next ih => exact fun x => ⟨hP _ _ (hp x).1, ih x (hp x).2⟩

/-- A program that never calls an operation of interest satisfies any condition
that speaks of those operations only. -/
theorem Uses.sat {A : S.Op → Prop} {p : Prog S ε α} (hp : p.Uses A)
    (hP : ∀ s e, A e.op → P s e) : Sat P (fun _ _ => True) seen p := by
  induction p generalizing seen with
  | done a => trivial
  | fail e => trivial
  | call op next ih => exact fun x => ⟨hP _ ⟨op, x⟩ hp.1, ih x (hp.2 x)⟩

/-- What comes first may be anything that never calls an operation of interest. -/
theorem Uses.sat_bind {A : S.Op → Prop} {Q : List (Event S) → Except ε β → Prop}
    {p : Prog S ε α} {f : α → Prog S ε β} (hp : p.Uses A) (hP : ∀ s e, A e.op → P s e)
    (hf : ∀ s a, Sat P Q s (f a)) (failed : ∀ s e, Q s (.error e)) :
    Sat P Q seen (p >>= f) := by
  induction p generalizing seen with
  | done a => exact hf seen a
  | fail e => exact failed seen e
  | call op next ih => exact fun x => ⟨hP _ ⟨op, x⟩ hp.1, ih x (hp.2 x)⟩

theorem Path.sat {Q : List (Event S) → Except ε α → Prop} {p q : Prog S ε α}
    {es : List (Event S)} (path : Path p es q) (hp : Sat P Q seen p) :
    Sat P Q (seen ++ es) q := by
  induction path generalizing seen with
  | nil p => simpa using hp
  | @cons op next x es q rest ih =>
      simpa [List.append_assoc] using ih (hp x).2

theorem Path.event_sat {Q : List (Event S) → Except ε α → Prop} {p q : Prog S ε α}
    {before after : List (Event S)} {e : Event S}
    (path : Path p (before ++ e :: after) q) (hp : Sat P Q seen p) :
    P (seen ++ before) e := by
  induction before generalizing p seen with
  | nil =>
      cases path with
      | cons rest => simpa using (hp _).1
  | cons e' before ih =>
      cases path with
      | @cons op next x es q rest =>
          simpa [List.append_assoc] using ih rest (hp x).2

end Prog
end AtomicSteps
