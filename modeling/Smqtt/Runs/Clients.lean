import Smqtt.Client.SmqttClient
import Smqtt.Runs.Relationships

/-!
The methods of clients in interleaved runs. A client sends a request, which becomes a
thread of the server, and goes on when that thread has answered; whatever else the
server does meanwhile is in the history too.
-/

namespace Smqtt

open AtomicSteps System

/-- A thread that serves `c` arrives from position `m` on and has answered `r` by
position `n`. -/
def Served (A : AppState) (h : PoolLog) (m n : Nat) (c : Call) (r : Except Error Reply) : Prop :=
  m ≤ n ∧ ∃ i, (requests (h.take m)).length ≤ i ∧ (requests (h.take n))[i]? = some c ∧
    Prog.Path (handle A c) (eventsOf i (h.take n)) (.ofExcept r)

/-- A client runs the method from position `m` to position `n` of the history. -/
inductive Performs (A : AppState) (h : PoolLog) {α : Type} :
    Nat → Nat → Method α → Except Failure α → Prop
  | done (n : Nat) (a : α) : Performs A h n n (.done a) (.ok a)
  | fail (n : Nat) (e : Failure) : Performs A h n n (.fail e) (.error e)
  | draw {m n : Nat} {next : List UInt8 → Method α} {r : Except Failure α}
      (key : List UInt8) (rest : Performs A h m n (next key) r) :
      Performs A h m n (.call .generate next) r
  | ask {m k n : Nat} {c : Call} {answer : Except Error Reply}
      {next : Except Error Reply → Method α} {r : Except Failure α}
      (served : Served A h m k c answer) (rest : Performs A h k n (next answer) r) :
      Performs A h m n (.call (.request c) next) r

section
variable {A : AppState} {allowed : Scheduling} {h : PoolLog} {s : Threads} {i k m n : Nat}
  {c : Call} {reply : Reply} {α β : Type}

theorem Performs.le {p : Method α} {r : Except Failure α} (performs : Performs A h m n p r) :
    m ≤ n := by
  induction performs with
  | done n a => exact Nat.le_refl n
  | fail n e => exact Nat.le_refl n
  | draw key rest ih => exact ih
  | ask served rest ih => exact Nat.le_trans served.1 ih

/-- A sequence that returns returns from both parts. -/
theorem Performs.bind {p : Method α} {f : α → Method β} {b : β}
    (performs : Performs A h m n (p >>= f) (.ok b)) :
    ∃ a k, Performs A h m k p (.ok a) ∧ Performs A h k n (f a) (.ok b) := by
  induction p generalizing m with
  | done a => exact ⟨a, m, .done m a, performs⟩
  | fail e => cases performs
  | call op next ih =>
      cases performs with
      | draw key rest =>
          obtain ⟨a, k, first, second⟩ := ih key rest
          exact ⟨a, k, .draw key first, second⟩
      | ask served rest =>
          obtain ⟨a, k, first, second⟩ := ih _ rest
          exact ⟨a, k, .ask served first, second⟩

theorem Performs.orRaise {e : Failure} {x : Option α} {a : α}
    (performs : Performs A h m n (orRaise e x) (.ok a)) : x = some a ∧ m = n := by
  cases x with
  | none => cases performs
  | some b =>
      cases performs
      exact ⟨rfl, rfl⟩

theorem Performs.drawn {f : List UInt8 → Method α} {a : α}
    (performs : Performs A h m n (generate >>= f) (.ok a)) :
    ∃ key, Performs A h m n (f key) (.ok a) := by
  cases performs with
  | draw key rest => exact ⟨key, rest⟩

/-- A request that returns was answered with success. -/
theorem Performs.served {read : Reply → Option α} {a : α}
    (performs : Performs A h m n (request c read) (.ok a)) :
    ∃ reply, Served A h m n c (.ok reply) ∧ read reply = some a := by
  cases performs with
  | @ask _ k _ _ answer _ _ served rest =>
      cases answer with
      | error e => cases rest
      | ok reply =>
          obtain ⟨reads, rfl⟩ := rest.orRaise
          exact ⟨reply, served, reads⟩

/-- What a served thread has seen satisfies the postcondition of its program. -/
theorem Served.sat {P : Call → List (Event signature) → Event signature → Prop}
    {Q : Call → List (Event signature) → Except Error Reply → Prop}
    (spec : ∀ c, Prog.Sat (P c) (Q c) [] (handle A c)) (served : Served A h m n c (.ok reply)) :
    ∃ i, (requests (h.take m)).length ≤ i ∧ (requests (h.take n))[i]? = some c ∧
      Prog.Path (handle A c) (eventsOf i (h.take n)) (.done reply) ∧
        Q c (eventsOf i (h.take n)) (.ok reply) := by
  obtain ⟨-, i, later, request, path⟩ := served
  exact ⟨i, later, request, path, path.sat (spec c)⟩

/-- A path through the extractor starts with the token of the header. -/
theorem extractor_path {authorization : Option String} {f : String → Handler α}
    {token : String} {x : Except Error Claims} {es : List (Event signature)} {q : Handler α}
    (path : Prog.Path (AuthUser.fromRequestParts authorization >>= f)
      (⟨.jwtVerify token, x⟩ :: es) q) : bearerToken authorization = some token := by
  unfold AuthUser.fromRequestParts at path
  dsimp only at path
  split at path
  · cases path
  · rename_i isBearer
    unfold bearerToken
    rw [if_pos (by simpa using isBearer)]
    cases path
    rfl

/-- Every call with a header starts with the extractor. -/
theorem handle_extracts {authorization : Option String}
    (header : c.authorization = some authorization) :
    ∃ f, handle A c = (AuthUser.fromRequestParts authorization >>= f) := by
  cases c <;> simp only [Call.authorization, Option.some.injEq, reduceCtorEq] at header
  all_goals
    subst header
    exact ⟨_, Prog.bind_assoc _ _ _⟩

end

end Smqtt
