import Smqtt.Client.SmqttClient
import Smqtt.Runs.Interleaved

/-!
A client alone with the server: each of its requests arrives some time after the one
before and is answered without interruption. Whatever such a client does is part of some
interleaved run, so the states it meets have all properties that those of runs have.
-/

namespace Smqtt

open AtomicSteps System

/-- What the clients draw and how long they take, at whatever moment. -/
structure Surroundings where
  privateKey : World → List UInt8
  nonce : World → List UInt8
  /-- The seconds until the next request. -/
  pause : World → Nat

variable {A : AppState} {allowed : Scheduling} {h : PoolLog} {s : Threads} {w : World}
  {around : Surroundings} {α : Type}

/-- The world in which the next request arrives. -/
def arrive (around : Surroundings) (w : World) : World := environment (.tick (around.pause w)) w

def execClient (A : AppState) (around : Surroundings) :
    (op : ClientOp) → World → op.Answer × World
  | .generate, w => (around.privateKey w, w)
  | .request c, w => (handle A c).run (exec A) (arrive around w)

theorem request_run {c : Call} {reply : Reply} {a : α} {v : World} (read : Reply → Option α)
    (answered : (handle A c).run (exec A) (arrive around w) = (.ok reply, v))
    (reads : read reply = some a) :
    (request c read).run (execClient A around) w = (.ok a, v) := by
  have served : execClient A around (.request c) w = (.ok reply, v) := answered
  unfold request
  rw [Prog.perform_bind, Prog.run_call, served]
  dsimp only
  rw [reads]
  rfl

/-- A request succeeds when its handler does, with an answer that the method can read. -/
theorem request_achieves {c : Call} {read : Reply → Option α} {Q : α → World → Prop}
    (handled : Prog.Achieves (exec A) (handle A c) (arrive around w)
      fun reply v => ∃ a, read reply = some a ∧ Q a v) :
    Prog.Achieves (execClient A around) (request c read) w Q := by
  obtain ⟨reply, v, answered, a, reads, post⟩ := handled
  exact ⟨a, v, request_run read answered reads, post⟩

/-- Some run reaches this world. -/
def Reachable (A : AppState) (w : World) : Prop := ∃ h s, PoolRun A anything h s ∧ s.world = w

theorem reachable_of_run (run : PoolRun A allowed h s) : Reachable A s.world :=
  ⟨h, s, run.weaken fun _ _ _ _ => trivial, rfl⟩

theorem Reachable.arrive (reachable : Reachable A w) : Reachable A (arrive around w) := by
  obtain ⟨h, s, run, rfl⟩ := reachable
  exact ⟨_, _, run.step (.env (.tick (around.pause s.world))) trivial, rfl⟩

/-- A request that is answered without interruption is part of a run. -/
theorem Reachable.execClient (op : ClientOp) (w : World) (reachable : Reachable A w) :
    Reachable A (execClient A around op w).2 := by
  cases op with
  | generate => exact reachable
  | request c =>
      have arrived : Reachable A (Smqtt.arrive around w) := reachable.arrive
      obtain ⟨h, s, run, same⟩ := arrived
      obtain ⟨k, t, finished, world, -⟩ := pool_finishes (server A) (fun _ _ _ => trivial)
        (handle A c) (run.step (.spawn c) trivial) (List.getElem?_concat_length ..)
      refine ⟨_, t, finished, world.trans ?_⟩
      exact congrArg (fun v => ((handle A c).run (exec A) v).2) same

/-- The pauses do not take the clock past `deadline`. -/
def Surroundings.Within (around : Surroundings) (deadline : Nat) : Prop :=
  ∀ w : World, w.clock.secs ≤ deadline → w.clock.secs + around.pause w ≤ deadline

theorem Clock.advance_le (c : Clock) (seconds : Nat) :
    (c.advance seconds).secs ≤ c.secs + seconds := by
  unfold advance
  split
  · exact Nat.le_refl _
  · exact Nat.le_add_right _ _

theorem execClient_clock (op : ClientOp) :
    (execClient A around op w).2.clock = w.clock ∨
      (execClient A around op w).2.clock = (arrive around w).clock := by
  cases op with
  | generate => exact Or.inl rfl
  | request c =>
      exact Or.inr ((Prog.uses_all (handle A c)).run_frame (f := World.clock)
        (fun op _ v => exec_clock A op v) _)

end Smqtt
