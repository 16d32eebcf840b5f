import Smqtt.Runs.Deployment
import Smqtt.Runs.Interleaved

/-!
Interleaved runs of the deployment, computed from a schedule.
-/

namespace Smqtt.Deployment

open AtomicSteps System

abbrev poolMachine : Machine Threads Schedule (Option (Event signature)) := (server app).pool

def poolLog (schedule : List Schedule) : PoolLog := poolMachine.trace poolMachine.start schedule

def poolState (schedule : List Schedule) : Threads :=
  poolMachine.final poolMachine.start schedule

/-- Call `c` arrives as this thread and takes so many steps at once. -/
def serve (thread steps : Nat) (c : Call) : List Schedule :=
  .spawn c :: List.replicate steps (.step thread)

/-- The deployment's signatures read back: a key of 32 bytes, then the message. -/
def Signed : Scheduling := fun h s a =>
  match a with
  | .spawn (.verify req) =>
      match b64Decode app req.signature with
      | .ok signature =>
          ∃ e ∈ h, e.action = .env (.sign (signature.take 32) (signature.drop 32))
      | .error _ => True
  | .step i =>
      match s.threads[i]? with
      | some (_, .call (.jwtVerify token) _) =>
          (JwtKeys.verify app s.world.clock token).toOption = none ∨
            ∃ e ∈ h, e.response.bind issuedToken = some token
      | _ => True
  | _ => True

instance (h : PoolLog) (s : Threads) (a : Schedule) : Decidable (Signed h s a) := by
  unfold Signed
  split
  · split <;> infer_instance
  · split <;> infer_instance
  · infer_instance

theorem Signed.genuine {h : PoolLog} {s : Threads} {a : Schedule} (ok : Signed h s a) :
    Genuine app h s a := by
  unfold Genuine
  split
  · rename_i req
    intro signature key message decoded point verifies
    simp only [Signed, decoded] at ok
    have length : key.length = 32 := by simpa [app, libraries] using point
    have made : signature = key ++ message := of_decide_eq_true verifies
    rw [made, List.take_left' length, List.drop_left' length] at ok
    exact ok
  · exact ok
  · trivial

def HonestSchedule (schedule : List Schedule) : Prop :=
  poolMachine.AllowedFrom Signed [] poolMachine.start schedule

instance (schedule : List Schedule) : Decidable (HonestSchedule schedule) :=
  inferInstanceAs (Decidable (poolMachine.AllowedFrom _ _ _ _))

theorem run_poolLog {schedule : List Schedule} (honest : HonestSchedule schedule) :
    PoolRun app (Genuine app) (poolLog schedule) (poolState schedule) :=
  (poolMachine.run_trace schedule honest).weaken fun _ _ _ ok => ok.genuine

def enroll (thread n : Nat) : List Schedule :=
  serve thread 6 (.register ⟨Base64Url.encode (key n), none⟩)

/-- A device answers a challenge, as two threads. -/
def authenticate (thread : Nat) (userId deviceId : String) (n nonce : Nat) : List Schedule :=
  serve thread 4 (.challenge ⟨userId⟩) ++
  .env (.sign (key n) (outside.randomBytes nonce)) ::
  serve (thread + 1) 6
    (.verify ⟨userId, deviceId, Base64Url.encode (sign (key n) (outside.randomBytes nonce))⟩)

/-- A user registers and logs in. -/
def poolLogin : List Schedule := enroll 0 0 ++ authenticate 1 "0" "1" 0 2

/-- Two users register and log in. -/
def poolPair : List Schedule :=
  enroll 0 0 ++ enroll 1 1 ++ authenticate 2 "0" "1" 0 4 ++ authenticate 4 "2" "3" 1 5

/-- The first of the pair has asked the second for a key exchange. -/
def poolExchange : List Schedule :=
  poolPair ++ serve 6 7 (.initiateExchange (bearer (token "0" "1" 100 [] []))
    ⟨"2", Base64Url.encode (key 8)⟩)

/-- The row an event has inserted. -/
def insertedRow : Event signature → Option PendingExchange
  | ⟨.sql (.insertExchange row), some _⟩ => some row
  | _ => none

theorem insertedRow_eq_some {ev : Event signature} {row : PendingExchange}
    (h : insertedRow ev = some row) : ev = ⟨.sql (.insertExchange row), some ()⟩ := by
  unfold insertedRow at h
  split at h
  · obtain rfl := Option.some.inj h
    rfl
  · cases h

def offered : PendingExchange := ⟨"6", "0", "2", key 8, none, 100, 604900⟩

theorem poolExchange_offers :
    At (poolLog poolExchange) 46 6 ⟨.sql (.insertExchange offered), some ()⟩ := by
  have read : ((poolLog poolExchange)[46]?.map fun e => (e.action, e.response.bind insertedRow)) =
      some (.step 6, some offered) := by decide +kernel
  obtain ⟨ev, at_ev, inserted⟩ := at_of_read read
  exact insertedRow_eq_some inserted ▸ at_ev

/-- The second of the pair responds to the exchange. -/
def respond (n : Nat) : Call :=
  .respondExchange (bearer (token "2" "3" 100 [] [])) "6" ⟨Base64Url.encode (key n)⟩

theorem freshIds : FreshIds app :=
  Function.LeftInverse.injective (g := readDigits) readDigits_digits

end Smqtt.Deployment
