import Smqtt.Metatheory.ChallengeResponse

/-!
What it takes to spoil a login. The challenges of all callers share one entry for
each user, so a foreign `challenge` replaces what the holder of the key is about to
sign, and a foreign `verify` takes it away before its signature is looked at. Nothing
else in between can make the holder's own `verify` fail.
-/

namespace Smqtt

open AtomicSteps System

variable {A : AppState} {allowed : Scheduling} {h : PoolLog} {s : Threads} {i j stored : Nat}
  {req : Auth.VerifyRequest} {device : Device} {nonce : List UInt8} {time : Nat}

/-- The request is signed over this nonce, by a key as registration accepts it. -/
structure Signs (A : AppState) (req : Auth.VerifyRequest) (device : Device) (nonce : List UInt8) :
    Prop where
  length : device.pubkey.length = 32
  point : A.lib.ed25519Point device.pubkey = true
  verifies : ∃ sigBytes, b64Decode A req.signature = .ok sigBytes ∧ sigBytes.length = 64 ∧
    A.lib.ed25519Verify device.pubkey nonce sigBytes = true

/-- Why `verify` refuses, by what it has seen. -/
inductive Refusal (A : AppState) (req : Auth.VerifyRequest) : List (Event signature) → Prop
  | unknown : Refusal A req [⟨.challengesRemove req.userId, none⟩]
  | expired (nonce : List UInt8) (expiresAt now : Nat) (late : expiresAt < now) :
      Refusal A req [⟨.challengesRemove req.userId, some (nonce, expiresAt)⟩, ⟨.unixNow, now⟩]
  | user (nonce : List UInt8) (expiresAt now : Nat) (row : Option (Option User))
      (inactive : ∀ user, row = some (some user) → user.suspended = true) :
      Refusal A req [⟨.challengesRemove req.userId, some (nonce, expiresAt)⟩, ⟨.unixNow, now⟩,
        ⟨.sql (.selectUser req.userId), row⟩]
  | device (nonce : List UInt8) (expiresAt now : Nat) (user : User) (rows : Option (List Device))
      (unsigned : ∀ devices device, rows = some devices →
        devices.find? (fun d => d.deviceId = req.deviceId) = some device →
          ¬Signs A req device nonce) :
      Refusal A req [⟨.challengesRemove req.userId, some (nonce, expiresAt)⟩, ⟨.unixNow, now⟩,
        ⟨.sql (.selectUser req.userId), some (some user)⟩,
        ⟨.sql (.selectDevices req.userId), rows⟩]
  | topics (nonce : List UInt8) (expiresAt now : Nat) (user : User) (devices : List Device) :
      Refusal A req [⟨.challengesRemove req.userId, some (nonce, expiresAt)⟩, ⟨.unixNow, now⟩,
        ⟨.sql (.selectUser req.userId), some (some user)⟩,
        ⟨.sql (.selectDevices req.userId), some devices⟩,
        ⟨.sql (.selectRelationships req.userId), none⟩]
  | issue (nonce : List UInt8) (expiresAt now : Nat) (user : User) (devices : List Device)
      (rows : List Relationship) (error : Error) :
      Refusal A req [⟨.challengesRemove req.userId, some (nonce, expiresAt)⟩, ⟨.unixNow, now⟩,
        ⟨.sql (.selectUser req.userId), some (some user)⟩,
        ⟨.sql (.selectDevices req.userId), some devices⟩,
        ⟨.sql (.selectRelationships req.userId), some rows⟩,
        ⟨.jwtIssue req.userId req.deviceId (topicsOfRows rows).1
          ((topicsOfRows rows).2 ++ [A.notifyTopic req.userId]) (A.notifyTopic req.userId),
          .error error⟩]

theorem verify_result_sat (req : Auth.VerifyRequest) : Prog.Sat
    (fun (seen : List (Event signature)) _ => seen.length < 6)
    (fun seen r => (∃ token, r = .ok token) ∨ Refusal A req seen) [] (Auth.verify A req) := by
  unfold Auth.verify
  refine .bind (perform_sat (.challengesRemove req.userId) fun entry => ⟨by simp, ?_⟩)
  cases entry with
  | none => exact Or.inr .unknown
  | some entry =>
      obtain ⟨nonce, expiresAt⟩ := entry
      refine .bind (unixNow_sat (fun _ => by simp) fun now => ?_)
      dsimp only
      split
      · rename_i late
        exact Or.inr (.expired _ _ _ late)
      · refine .bind (.bind (sql_sat (s := .selectUser req.userId) (fun _ => by simp) ?_
          (Or.inr (.user _ _ _ none nofun))))
        intro row
        cases row with
        | none => exact Or.inr (.user _ _ _ (some none) nofun)
        | some user =>
            refine (Prog.sat_done _).mpr ?_
            dsimp only
            split
            · rename_i suspended
              refine Or.inr (.user _ _ _ (some (some user)) ?_)
              rintro user' same
              obtain rfl := Option.some.inj (Option.some.inj same)
              exact suspended
            · refine .bind (getDeviceByUser_sat (fun _ => by simp) ?_
                (Or.inr (.device _ _ _ _ none nofun)))
              intro devices
              have refuse (unsigned : ∀ device,
                  devices.find? (fun d => d.deviceId = req.deviceId) = some device →
                    ¬Signs A req device nonce) := Refusal.device nonce expiresAt now user
                (some devices) fun devices' device same found =>
                  unsigned device (Option.some.inj same ▸ found)
              dsimp only
              split
              · rename_i absent
                exact Or.inr (refuse fun device found => nomatch absent.symm.trans found)
              · rename_i device found
                have refused (unsigned : ¬Signs A req device nonce) := refuse fun d same =>
                  Option.some.inj (found.symm.trans same) ▸ unsigned
                split
                · rename_i short
                  exact Or.inr (refused fun signs => short signs.length)
                · split
                  · rename_i off
                    exact Or.inr (refused fun signs => by simp [signs.point] at off)
                  · refine .bind (.ofExcept ?_)
                    split
                    · rename_i sigBytes decoded
                      split
                      · rename_i short
                        refine Or.inr (refused fun signs => ?_)
                        obtain ⟨sigBytes', decoded', length, -⟩ := signs.verifies
                        obtain rfl := Except.ok.inj (decoded.symm.trans decoded')
                        exact short length
                      · split
                        · rename_i wrong
                          refine Or.inr (refused fun signs => ?_)
                          obtain ⟨sigBytes', decoded', -, verifies⟩ := signs.verifies
                          obtain rfl := Except.ok.inj (decoded.symm.trans decoded')
                          simp [verifies] at wrong
                        · refine .bind (userTopics_sat (fun _ => by simp) ?_
                            (Or.inr (.topics _ _ _ _ _)))
                          intro rows
                          refine .bind (perform_sat (.jwtIssue _ _ _ _ _) fun issued =>
                            ⟨by simp, .ofExcept ?_⟩)
                          cases issued with
                          | ok token => exact Or.inl ⟨token, rfl⟩
                          | error e => exact Or.inr (.issue _ _ _ _ _ _ e)
                    · rename_i e undecoded
                      refine Or.inr (refused fun signs => ?_)
                      obtain ⟨sigBytes, decoded, -⟩ := signs.verifies
                      exact nomatch undecoded.symm.trans decoded

theorem handle_verify_sat (req : Auth.VerifyRequest) : Prog.Sat
    (fun (seen : List (Event signature)) _ => seen.length < 6)
    (fun seen r => (∃ token, r = .ok (.token token)) ∨ Refusal A req seen) []
    (handle A (.verify req)) := by
  refine reply_sat ((verify_result_sat req).mono (fun _ _ h => h) fun seen r h => ?_)
  rcases h with ⟨token, rfl⟩ | refusal
  · exact Or.inl ⟨token, rfl⟩
  · exact Or.inr refusal

/-- Encoding the claims of a token succeeds. -/
def Encodes (A : AppState) : Prop :=
  ∀ claims, ∃ token, A.lib.jwtEncode A.jwtKeys.secret claims = some token

/-- Thread `i` has stored a challenge for the user of `req` with its clock at `time`, and
thread `j` serves `req`, signed over the nonce by a device of the user and in time.
Between the two only requests of the kind `others` touch the user's challenge. -/
structure Attempt (A : AppState) (h : PoolLog) (i j stored : Nat) (req : Auth.VerifyRequest)
    (device : Device) (nonce : List UInt8) (time : Nat) (others : Call → Prop) : Prop where
  verify : (requests h)[j]? = some (.verify req)
  at_read : ∃ k < stored, At h k i ⟨.unixNow, time⟩
  at_stored : ∃ expiresAt, At h stored i ⟨.challengesInsert req.userId nonce expiresAt, ()⟩
  owner : device.userId = req.userId ∧ device.deviceId = req.deviceId
  signs : Signs A req device nonce
  inTime : ∀ k now, At h k j ⟨.unixNow, now⟩ → now ≤ time + 60
  active : ∀ k row e user, At h k j ⟨.sql (.selectUser req.userId), row⟩ → h[k]? = some e →
    e.before.world.db.user req.userId = some user → user.suspended = false
  registered : ∀ k rows e, At h k j ⟨.sql (.selectDevices req.userId), rows⟩ → h[k]? = some e →
    device ∈ e.before.world.db.devices
  between : ∀ removed entry, At h removed j ⟨.challengesRemove req.userId, entry⟩ →
    stored < removed ∧ ∀ k l ev, stored < k → k < removed → At h k l ev →
      ev.op.challengeOf = some req.userId → ∃ c, (requests h)[l]? = some c ∧ others c

/-- Thread `j` has returned a token, or has not yet taken all of its six steps. -/
def LogsIn (h : PoolLog) (s : Threads) (j : Nat) : Prop :=
  ∃ c p, s.threads[j]? = some (c, p) ∧
    ((∃ token, p = .done (.token token)) ∨
      (eventsOf j h).length < 6 ∧ ∃ op next, p = .call op next)

/-- The challenge is good for a minute after the look at the clock. -/
theorem Attempt.expires {others : Call → Prop}
    (a : Attempt A h i j stored req device nonce time others)
    (run : PoolRun A allowed h s) :
    At h stored i ⟨.challengesInsert req.userId nonce (time + 60), ()⟩ := by
  obtain ⟨expiresAt, at_stored⟩ := a.at_stored
  obtain ⟨k, lt, at_read⟩ := a.at_read
  obtain ⟨x, -, seen, -, expires⟩ := stored_challenge run at_stored
  have mem : (⟨.unixNow, time⟩ : Event signature) ∈ x.events ⟨req.userId⟩ := by
    rw [← seen]
    exact (eventsOf_monotone (Nat.succ_le_of_lt lt)).subset (by simp [at_read.eventsOf_succ])
  have now : time = x.now := by simpa [Challenged.events] using mem
  obtain ⟨e, at_k⟩ := at_read.entry
  have clock : time = e.before.world.clock.secs := (at_read.exec run at_k).1
  have inRange := e.before.world.clock.inRange
  rw [expires, ← now, addU64_of_lt (by simp only [Auth.challengeTtlSecs]; omega)] at at_stored
  exact at_stored

/-- The stored challenge is the one that is removed. -/
theorem Attempt.removes (a : Attempt A h i j stored req device nonce time fun _ => False)
    (run : PoolRun A allowed h s) {removed : Nat} {entry : Option (List UInt8 × Nat)}
    (at_removed : At h removed j ⟨.challengesRemove req.userId, entry⟩) :
    entry = some (nonce, time + 60) := by
  obtain ⟨lt, untouched⟩ := a.between removed entry at_removed
  have at_stored := a.expires run
  obtain ⟨e, at_e⟩ := at_stored.entry
  obtain ⟨f, at_f⟩ := at_removed.entry
  have kept : f.before.world.challenges req.userId = some (nonce, time + 60) := by
    refine ((at_take lt).mpr at_stored).onward (run.take at_f).1
      (I := fun w => w.challenges req.userId = some (nonce, time + 60))
      (by rw [List.getElem?_take_of_lt lt]; exact at_e) (Function.update_self ..) ?_ ?_
    · intro k l ev c gt at_k _ before
      have other : ev.op.challengeOf ≠ some req.userId := by
        intro touches
        obtain ⟨_, -, none⟩ :=
          untouched k l ev gt at_k.lt_of_take ((at_take at_k.lt_of_take).mp at_k) touches
        exact none
      exact (exec_challengeOf other).trans before
    · intro x w before
      cases x <;> exact before
  rw [← kept]
  exact (at_removed.exec run at_f).1

theorem find_device {db : Database} (sound : db.Integrity) (mem : device ∈ db.devices) :
    ((db.devices.filter fun d => d.userId = device.userId).find? fun d =>
      d.deviceId = device.deviceId) = some device := by
  have own : device ∈ db.devices.filter fun d => d.userId = device.userId :=
    List.mem_filter.mpr ⟨mem, by simp⟩
  cases found : (db.devices.filter fun d => d.userId = device.userId).find? fun d =>
      d.deviceId = device.deviceId with
  | none => simpa using List.find?_eq_none.mp found device own
  | some d =>
      have mem' := (List.mem_filter.mp (List.mem_of_find?_eq_some found)).1
      rw [sound.device_eq mem' mem (by simpa using List.find?_some found)]

/-- The user the challenge was for has a row ever after. -/
theorem Attempt.known {others : Call → Prop}
    (a : Attempt A h i j stored req device nonce time others)
    (unfailing : Unfailing A) (run : PoolRun A allowed h s) {n : Nat}
    {e : PoolEntry signature World Call Env Error Reply} (lt : stored < n) (at_n : h[n]? = some e) :
    ∃ user, e.before.world.db.user req.userId = some user := by
  obtain ⟨expiresAt, at_stored⟩ := a.at_stored
  obtain ⟨x, -, seen, -⟩ := stored_challenge run at_stored
  obtain ⟨k, k_lt, at_k, -⟩ := at_of_eventsOf [] seen
  obtain ⟨f, at_f⟩ := at_k.entry
  have found := (at_k.exec run at_f).1.trans (exec_answered unfailing rfl)
  have has : f.before.world.db.hasUser req.userId = true :=
    Database.hasUser_of_user (Option.some.inj found).symm
  have later := database_extends (run.take at_n).1
    (by rw [List.getElem?_take_of_lt (Nat.lt_trans k_lt lt)]; exact at_f)
  exact Database.user_of_hasUser (later.users _ has)

/-- Undisturbed, no check of `verify` fails. -/
theorem Attempt.unrefused (a : Attempt A h i j stored req device nonce time fun _ => False)
    (unfailing : Unfailing A) (encodes : Encodes A) (run : PoolRun A allowed h s) :
    ¬Refusal A req (eventsOf j h) := by
  generalize seen : eventsOf j h = events
  intro refusal
  have passed {nonce' expiresAt rest}
      (seen : eventsOf j h = ⟨.challengesRemove req.userId, some (nonce', expiresAt)⟩ :: rest) :
      nonce' = nonce ∧ expiresAt = time + 60 := by
    obtain ⟨removed, at_removed, -⟩ := at_of_eventsOf_end [] seen
    exact Prod.mk.inj (Option.some.inj (a.removes run at_removed))
  cases refusal with
  | unknown =>
      obtain ⟨removed, at_removed, -⟩ := at_of_eventsOf_end [] seen
      cases a.removes run at_removed
  | expired nonce' expiresAt now late =>
      obtain ⟨-, rfl⟩ := passed seen
      obtain ⟨k, at_k, -⟩ := at_of_eventsOf_end [_] seen
      exact absurd late (Nat.not_lt_of_le (a.inTime k now at_k))
  | user nonce' expiresAt now row inactive =>
      obtain ⟨removed, at_removed, before_removed⟩ := at_of_eventsOf_end [] seen
      obtain ⟨k, at_k, before_k⟩ := at_of_eventsOf_end [_, _] seen
      obtain ⟨e, at_e⟩ := at_k.entry
      have later : removed < k :=
        lt_of_eventsOf_lt (h := h) (i := j) (by simp [before_removed, before_k])
      obtain ⟨user, known⟩ := a.known unfailing run
        (Nat.lt_trans (a.between removed _ at_removed).1 later) at_e
      have answer := (at_k.exec run at_e).1.trans (exec_answered unfailing rfl)
      have suspended := inactive user (answer.trans (congrArg some known))
      simp [a.active k row e user at_k at_e known] at suspended
  | device nonce' expiresAt now user rows unsigned =>
      obtain ⟨rfl, -⟩ := passed seen
      obtain ⟨k, at_k, -⟩ := at_of_eventsOf_end [_, _, _] seen
      obtain ⟨e, at_e⟩ := at_k.entry
      have answer := (at_k.exec run at_e).1.trans (exec_answered unfailing rfl)
      have found := find_device (pool_integrity (run.take at_e).1)
        (a.registered k rows e at_k at_e)
      rw [a.owner.1, a.owner.2] at found
      exact unsigned _ device answer found a.signs
  | topics nonce' expiresAt now user devices =>
      obtain ⟨k, at_k, -⟩ := at_of_eventsOf_end [_, _, _, _] seen
      obtain ⟨e, at_e⟩ := at_k.entry
      have answer := (at_k.exec run at_e).1.trans (exec_answered unfailing rfl)
      cases answer
  | issue nonce' expiresAt now user devices rows error =>
      obtain ⟨k, at_k, -⟩ := at_of_eventsOf_end [_, _, _, _, _] seen
      obtain ⟨e, at_e⟩ := at_k.entry
      have answer : _ = JwtKeys.issue A e.before.world.clock _ _ _ _ _ := (at_k.exec run at_e).1
      obtain ⟨token, encoded⟩ := encodes (JwtKeys.claims A e.before.world.clock req.userId
        req.deviceId (topicsOfRows rows).1 ((topicsOfRows rows).2 ++ [A.notifyTopic req.userId])
        (A.notifyTopic req.userId))
      simp only [JwtKeys.issue, encoded] at answer
      cases answer

/-- An undisturbed attempt to log in succeeds. -/
theorem login_undisturbed (unfailing : Unfailing A) (encodes : Encodes A)
    (run : PoolRun A allowed h s)
    (a : Attempt A h i j stored req device nonce time fun _ => False) : LogsIn h s j := by
  obtain ⟨p, thread⟩ := thread_of_request run a.verify
  refine ⟨.verify req, p, thread, ?_⟩
  have spec := (threads_path run thread).sat (handle_verify_sat (A := A) req)
  rw [List.nil_append] at spec
  have unrefused := a.unrefused unfailing encodes run
  cases p with
  | done reply =>
      rcases spec with ⟨token, result⟩ | refusal
      · obtain rfl := Except.ok.inj result
        exact Or.inl ⟨token, rfl⟩
      · exact absurd refusal unrefused
  | fail e =>
      rcases spec with ⟨token, result⟩ | refusal
      · cases result
      · exact absurd refusal unrefused
  | call op next => exact Or.inr ⟨(spec (exec A op s.world).1).1, op, next, rfl⟩

section
open Deployment

/-- The positions and threads that touch a user's challenge. -/
def challengeSteps (h : PoolLog) (u : String) : List (Nat × Nat) :=
  h.zipIdx.filterMap fun (e, n) =>
    match e.action, e.response with
    | .step i, some ev => if ev.op.challengeOf = some u then some (n, i) else none
    | _, _ => none

theorem mem_challengeSteps {n : Nat} {u : String} {ev : Event signature} (a : At h n i ev)
    (touches : ev.op.challengeOf = some u) : (n, i) ∈ challengeSteps h u := by
  obtain ⟨e, at_n, action, response⟩ := a
  refine List.mem_filterMap.mpr ⟨(e, n), List.mem_zipIdx_iff_getElem?.mpr at_n, ?_⟩
  simp only [action, response, touches, if_true]

/-- The challenge an event has stored. -/
def storedChallenge : Event signature → Option (String × List UInt8)
  | ⟨.challengesInsert u nonce _, _⟩ => some (u, nonce)
  | _ => none

/-- The device of the one user. -/
def ownDevice : Device := ⟨"1", "0", key 0, 100⟩

def ownVerify : Auth.VerifyRequest :=
  ⟨"0", "1", Base64Url.encode (sign (key 0) (outside.randomBytes 2))⟩

/-- The user registers and asks for a challenge; others are served; then the user
answers the challenge as thread `last`. -/
def between (others : List Schedule) (last : Nat) : List Schedule :=
  enroll 0 0 ++ serve 1 4 (.challenge ⟨"0"⟩) ++ others ++
    .env (.sign (key 0) (outside.randomBytes 2)) :: serve last 6 (.verify ownVerify)

/-- The facts of such a schedule, with the step in which the user takes the challenge. -/
structure Scene (others : List Schedule) (last taken : Nat) (touches : List (Nat × Nat)) :
    Prop where
  honest : HonestSchedule (between others last)
  request : (requests (poolLog (between others last)))[last]? = some (.verify ownVerify)
  stores : ((poolLog (between others last))[11]?.map fun e =>
    (e.action, e.response.bind storedChallenge)) = some (.step 1, some ("0", outside.randomBytes 2))
  clocks : ∀ e ∈ poolLog (between others last), e.before.world.clock.secs = 100
  rows : ∀ e ∈ poolLog (between others last), e.action = .step last →
    ownDevice ∈ e.before.world.db.devices ∧
      (e.before.world.db.user "0").all (fun x => x.suspended = false) = true
  order : challengeSteps (poolLog (between others last)) "0" =
    (11, 1) :: touches ++ [(taken, last)]

instance (others : List Schedule) (last taken : Nat) (touches : List (Nat × Nat)) :
    Decidable (Scene others last taken touches) :=
  decidable_of_iff (_ ∧ _ ∧ _ ∧ _ ∧ _ ∧ _)
    ⟨fun ⟨honest, request, stores, clocks, rows, order⟩ =>
      ⟨honest, request, stores, clocks, rows, order⟩,
    fun scene => ⟨scene.honest, scene.request, scene.stores, scene.clocks, scene.rows,
      scene.order⟩⟩

theorem ownVerify_signs : Signs app ownVerify ownDevice (outside.randomBytes 2) where
  length := by decide
  point := by decide
  verifies := ⟨sign (key 0) (outside.randomBytes 2), by decide +kernel, by decide, by decide⟩

theorem storedChallenge_eq_some {ev : Event signature} {u : String}
    (stored : storedChallenge ev = some (u, nonce)) :
    ∃ expiresAt, ev = ⟨.challengesInsert u nonce expiresAt, ()⟩ := by
  unfold storedChallenge at stored
  split at stored
  · obtain ⟨rfl, rfl⟩ := Prod.mk.inj (Option.some.inj stored)
    exact ⟨_, rfl⟩
  · cases stored

theorem Scene.attempt {others : List Schedule} {last taken : Nat} {touches : List (Nat × Nat)}
    (scene : Scene others last taken touches) (later : 11 < taken ∧ last ≠ 1)
    (kind : Call → Prop)
    (foreign : ∀ n i, (n, i) ∈ touches → i ≠ last ∧
      ∃ c, (requests (poolLog (between others last)))[i]? = some c ∧ kind c) :
    ∃ time, Attempt app (poolLog (between others last)) 1 last 11 ownVerify ownDevice
      (outside.randomBytes 2) time kind := by
  have run := run_poolLog scene.honest
  obtain ⟨expiresAt, at_stored⟩ : ∃ expiresAt, At (poolLog (between others last)) 11 1
      ⟨.challengesInsert "0" (outside.randomBytes 2) expiresAt, ()⟩ := by
    obtain ⟨ev, at_ev, is_stored⟩ := at_of_read scene.stores
    obtain ⟨expiresAt, rfl⟩ := storedChallenge_eq_some is_stored
    exact ⟨expiresAt, at_ev⟩
  obtain ⟨x, -, seen, -⟩ := stored_challenge run at_stored
  obtain ⟨read, read_lt, at_read, -⟩ := at_of_eventsOf [_, _] seen
  have clock {k l now : Nat} (at_k : At (poolLog (between others last)) k l ⟨.unixNow, now⟩) :
      now = 100 := by
    obtain ⟨e, at_e⟩ := at_k.entry
    have reading : now = e.before.world.clock.secs := (at_k.exec run at_e).1
    exact reading.trans (scene.clocks e (List.mem_of_getElem? at_e))
  have member {k l : Nat} {ev : Event signature} (a : At (poolLog (between others last)) k l ev)
      (of : ev.op.challengeOf = some "0") :
      (k, l) = (11, 1) ∨ (k, l) ∈ touches ∨ (k, l) = (taken, last) := by
    have mem := mem_challengeSteps a of
    rw [scene.order] at mem
    simpa using mem
  refine ⟨x.now, {
    verify := scene.request
    at_read := ⟨read, read_lt, at_read⟩
    at_stored := ⟨expiresAt, at_stored⟩
    owner := ⟨rfl, rfl⟩
    signs := ownVerify_signs
    inTime := ?_
    active := ?_
    registered := ?_
    between := ?_ }⟩
  · intro k now at_k
    rw [clock at_k, clock at_read]
    exact Nat.le_add_right 100 60
  · rintro k row e user ⟨f, at_f, action, -⟩ at_e known
    obtain rfl := Option.some.inj (at_e.symm.trans at_f)
    have active := (scene.rows e (List.mem_of_getElem? at_e) action).2
    rw [show e.before.world.db.user "0" = some user from known] at active
    simpa using active
  · rintro k rows e ⟨f, at_f, action, -⟩ at_e
    obtain rfl := Option.some.inj (at_e.symm.trans at_f)
    exact (scene.rows e (List.mem_of_getElem? at_e) action).1
  · intro removed entry at_removed
    have here : removed = taken := by
      rcases member at_removed rfl with same | mem | same
      · exact absurd (Prod.mk.inj same).2 later.2
      · exact absurd rfl (foreign _ _ mem).1
      · exact (Prod.mk.inj same).1
    subst here
    refine ⟨later.1, fun k l ev gt lt at_k of => ?_⟩
    rcases member at_k of with same | mem | same
    · have := (Prod.mk.inj same).1
      omega
    · exact (foreign _ _ mem).2
    · have := (Prod.mk.inj same).1
      omega

/-- This thread is left with an error. -/
def refused (s : Threads) (thread : Nat) : Bool :=
  match s.threads[thread]? with
  | some (_, Prog.fail _) => true
  | _ => false

theorem not_logsIn {thread : Nat} (failed : refused s thread = true) : ¬LogsIn h s thread := by
  rintro ⟨c, p, found, done⟩
  rw [refused, found] at failed
  rcases done with ⟨token, rfl⟩ | ⟨-, op, next, rfl⟩
  · cases failed
  · cases failed

/-- Another user registers, asks for a challenge and answers it. -/
def foreignLogin : List Schedule := enroll 2 1 ++ authenticate 3 "3" "4" 1 5

/-- The threads that have returned a token. -/
def loggedIn (s : Threads) : List Nat :=
  s.threads.zipIdx.filterMap fun (thread, i) =>
    match thread with
    | (_, Prog.done (.token _)) => some i
    | _ => none

private theorem undisturbed_scene : Scene foreignLogin 5 34 [] ∧
    loggedIn (poolState (between foreignLogin 5)) = [4, 5] := by
  decide +kernel

/-- Another challenge is asked for the user. -/
def foreignChallenge : List Schedule := serve 2 4 (.challenge ⟨"0"⟩)

private theorem overwritten_scene : Scene foreignChallenge 3 19 [(16, 2)] ∧
    refused (poolState (between foreignChallenge 3)) 3 = true ∧
    (requests (poolLog (between foreignChallenge 3)))[2]? = some (.challenge ⟨"0"⟩) := by
  decide +kernel

/-- Somebody else answers for the user, with a signature that is not even base64. -/
def foreignVerify : List Schedule := serve 2 5 (.verify ⟨"0", "1", "!"⟩)

private theorem popped_scene : Scene foreignVerify 3 20 [(13, 2)] ∧
    refused (poolState (between foreignVerify 3)) 3 = true ∧
    (requests (poolLog (between foreignVerify 3)))[2]? = some (.verify ⟨"0", "1", "!"⟩) := by
  decide +kernel

/-- Another user logs in between, and both have their tokens. -/
theorem login_undisturbed_scene :
    loggedIn (poolState (between foreignLogin 5)) = [4, 5] ∧
    ∃ time, Attempt app (poolLog (between foreignLogin 5)) 1 5 11 ownVerify ownDevice
        (outside.randomBytes 2) time (fun _ => False) ∧
      LogsIn (poolLog (between foreignLogin 5)) (poolState (between foreignLogin 5)) 5 := by
  obtain ⟨scene, both⟩ := undisturbed_scene
  obtain ⟨time, a⟩ := scene.attempt ⟨by decide, by decide⟩ (fun _ => False) (by simp)
  exact ⟨both, time, a,
    login_undisturbed unfailing (fun _ => ⟨_, rfl⟩) (run_poolLog scene.honest) a⟩

/-- A foreign challenge and a foreign verify each spoil the login. -/
theorem not_login_undisturbed :
    (¬∀ h s i j stored req device nonce time, PoolRun app (Genuine app) h s →
      Attempt app h i j stored req device nonce time (fun c => ∃ q, c = .challenge q) →
        LogsIn h s j) ∧
    ¬∀ h s i j stored req device nonce time, PoolRun app (Genuine app) h s →
      Attempt app h i j stored req device nonce time (fun c => ∃ req', c = .verify req' ∧
        ∀ message sigBytes, b64Decode app req'.signature = .ok sigBytes →
          app.lib.ed25519Verify device.pubkey message sigBytes = false) → LogsIn h s j := by
  constructor
  · intro logsIn
    obtain ⟨scene, failed, request⟩ := overwritten_scene
    obtain ⟨time, a⟩ := scene.attempt ⟨by decide, by decide⟩ (fun c => ∃ q, c = .challenge q) (by
      intro n i mem
      obtain ⟨rfl, rfl⟩ := Prod.mk.inj (List.mem_singleton.mp mem)
      exact ⟨by decide, _, request, ⟨"0"⟩, rfl⟩)
    exact not_logsIn failed (logsIn _ _ _ _ _ _ _ _ _ (run_poolLog scene.honest) a)
  · intro logsIn
    obtain ⟨scene, failed, request⟩ := popped_scene
    have undecodable : ∀ bytes, b64Decode app "!" ≠ .ok bytes := by
      have decoded : (b64Decode app "!").isOk = false := by decide +kernel
      rintro bytes ok
      rw [ok] at decoded
      cases decoded
    obtain ⟨time, a⟩ := scene.attempt ⟨by decide, by decide⟩ (fun c => ∃ req', c = .verify req' ∧
        ∀ message sigBytes, b64Decode app req'.signature = .ok sigBytes →
          app.lib.ed25519Verify ownDevice.pubkey message sigBytes = false) (by
      intro n i mem
      obtain ⟨rfl, rfl⟩ := Prod.mk.inj (List.mem_singleton.mp mem)
      exact ⟨by decide, _, request, ⟨"0", "1", "!"⟩, rfl,
        fun _ bytes decoded => absurd decoded (undecodable bytes)⟩)
    exact not_logsIn failed (logsIn _ _ _ _ _ _ _ _ _ (run_poolLog scene.honest) a)

end

end Smqtt
