import Smqtt.Metatheory.ConnectedClients
import Smqtt.Metatheory.WellFormedState
import Smqtt.Runs.Undisturbed

/-!
Nothing that has happened locks a user out. In every state of every run an account that
is not suspended and owns a device can log in, connect and subscribe to all topics of its
own, as long as it keeps within the time limits and nobody interferes meanwhile. Only the
device must not be connected already: the broker would report the end of its older
connection after the new one is admitted, and the hook takes that for the end of the new.
-/

namespace Smqtt

open AtomicSteps System

variable {A : AppState} {allowed : Scheduling} {h : PoolLog} {s : Threads} {w : World}
  {lib : ClientLibraries} {user : User}

/-- The keys of the client are those of a device of its account, and the server checks
the signatures that the client makes. -/
structure SmqttClient.Registered (A : AppState) (lib : ClientLibraries) (w : World)
    (client : SmqttClient) : Prop where
  device : ∃ d ∈ w.db.devices, d.deviceId = client.deviceId ∧ d.userId = client.userId ∧
    d.pubkey = lib.ed25519Public client.edPrivate
  decodes : lib.Decodes
  signs : ∀ n, (lib.ed25519Sign client.edPrivate (A.outside.randomBytes n)).length = 64 ∧
    A.lib.ed25519Verify (lib.ed25519Public client.edPrivate) (A.outside.randomBytes n)
      (lib.ed25519Sign client.edPrivate (A.outside.randomBytes n)) = true

/-- No statement fails from here on, whatever has failed before. -/
def UnfailingFrom (A : AppState) (w : World) : Prop :=
  ∀ n, w.statements ≤ n → A.outside.fails n = false

theorem Unfailing.onward (unfailing : Unfailing A) (w : World) : UnfailingFrom A w :=
  fun n _ => unfailing n

theorem UnfailingFrom.here (unfailing : UnfailingFrom A w) :
    A.outside.fails w.statements = false :=
  unfailing _ (Nat.le_refl _)

theorem UnfailingFrom.later {v : World} (unfailing : UnfailingFrom A w)
    (le : w.statements ≤ v.statements) : UnfailingFrom A v :=
  fun n here => unfailing n (Nat.le_trans le here)

theorem getUser_known (unfailing : UnfailingFrom A w) {u : String}
    (known : w.db.user u = some user) :
    (Db.getUser u).run (exec A) w = (.ok user, w.counted) := by
  rw [Db.getUser_run, unfailing.here, known]
  rfl

theorem getDeviceByUser_answered (unfailing : UnfailingFrom A w) (u : String) :
    (Db.getDeviceByUser u).run (exec A) w =
      (.ok (w.db.devices.filter fun d => d.userId = u), w.counted) := by
  rw [Db.getDeviceByUser_run, unfailing.here]
  rfl

theorem userTopics_answered (unfailing : UnfailingFrom A w) (u : String) :
    (Db.userTopics u).run (exec A) w = (.ok (Db.topicsOf w.db u), w.counted) := by
  unfold Db.userTopics Db.listRelationships sql
  simp only [Prog.call_bind, Prog.run_call, exec, Statement.execute]
  rw [unfailing.here]
  rfl

/-- The world after a challenge for this account. -/
def World.challenged (A : AppState) (w : World) (u : String) : World :=
  { w with
    statements := w.statements + 1
    draws := w.draws + 1
    challenges := Function.update w.challenges u
      (some (A.outside.randomBytes w.draws, w.clock.secs + Auth.challengeTtlSecs)) }

theorem challenge_run (unfailing : UnfailingFrom A w) {u : String}
    (known : w.db.user u = some user) :
    (Auth.challenge ⟨u⟩).run (exec A) w =
      (.ok (Base64Url.encode (A.outside.randomBytes w.draws)), World.challenged A w u) := by
  have small := w.clock.inRange
  have sum : addU64 w.clock.secs Auth.challengeTtlSecs =
      w.clock.secs + Auth.challengeTtlSecs :=
    addU64_of_lt (by rw [Auth.challengeTtlSecs]; omega)
  unfold Auth.challenge
  rw [Prog.run_bind, getUser_known unfailing known]
  change (_, _) = (_, _)
  simp only [exec, World.counted, World.challenged, sum]

/-- The world after a successful `verify`. -/
def verified (w : World) (u : String) : World :=
  { w with
    statements := w.statements + 3
    challenges := Function.update w.challenges u none }

theorem verify_run (unfailing : UnfailingFrom A w) (req : Auth.VerifyRequest)
    {nonce sig : List UInt8} {expiresAt : Nat} {device : Device}
    (waiting : w.challenges req.userId = some (nonce, expiresAt))
    (inTime : w.clock.secs ≤ expiresAt)
    (known : w.db.user req.userId = some user) (active : user.suspended = false)
    (found : (w.db.devices.filter fun d => d.userId = req.userId).find?
      (fun d => d.deviceId = req.deviceId) = some device)
    (valid : ValidKey A device.pubkey) (decoded : b64Decode A req.signature = .ok sig)
    (length : sig.length = 64) (verifies : A.lib.ed25519Verify device.pubkey nonce sig = true) :
    (Auth.verify A req).run (exec A) w =
      (JwtKeys.issue A w.clock req.userId req.deviceId (Db.topicsOf w.db req.userId).1
        ((Db.topicsOf w.db req.userId).2 ++ [A.notifyTopic req.userId])
        (A.notifyTopic req.userId), verified w req.userId) := by
  unfold Auth.verify
  rw [perform_bind_run (.challengesRemove req.userId)]
  dsimp only [exec]
  rw [waiting]
  dsimp only
  rw [Prog.run_bind, unixNow_run]
  dsimp only
  have user_read := getUser_known
    (w := { w with challenges := Function.update w.challenges req.userId none }) unfailing known
  rw [if_neg (Nat.not_lt.mpr inTime), Prog.run_bind, user_read]
  dsimp only
  rw [if_neg (by rw [active]; decide), Prog.run_bind,
    getDeviceByUser_answered (unfailing.later (Nat.le_succ _))]
  dsimp only [World.counted]
  rw [found]
  dsimp only
  rw [if_neg (not_not.mpr valid.1), if_neg (by rw [valid.2]; decide), Prog.run_bind, decoded,
    ofExcept_run]
  dsimp only
  rw [if_neg (not_not.mpr length), if_neg (by rw [verifies]; decide), Prog.run_bind,
    userTopics_answered (unfailing.later (Nat.le_add_right _ 2))]
  dsimp only
  rw [perform_bind_run (.jwtIssue _ _ _ _ _), ofExcept_run]
  rfl

/-- The world after the two requests of `authenticate`. -/
def authenticated (A : AppState) (around : Surroundings) (w : World) (u : String) : World :=
  verified (arrive around (World.challenged A (arrive around w) u)) u

/-- What `verify` puts into the token then. -/
def ownClaims (A : AppState) (v : World) (client : SmqttClient) : Claims :=
  JwtKeys.claims A v.clock client.userId client.deviceId (Db.topicsOf v.db client.userId).1
    ((Db.topicsOf v.db client.userId).2 ++ [A.notifyTopic client.userId])
    (A.notifyTopic client.userId)

section
variable {client : SmqttClient} {around : Surroundings}

/-- The row that `verify` finds for the device. -/
theorem registered_device (unique : w.db.Integrity) {d : Device} (mem : d ∈ w.db.devices)
    (id : d.deviceId = client.deviceId) (owner : d.userId = client.userId) :
    (w.db.devices.filter fun d => d.userId = client.userId).find?
      (fun d => d.deviceId = client.deviceId) = some d := by
  have own : d ∈ w.db.devices.filter fun d => d.userId = client.userId :=
    List.mem_filter.mpr ⟨mem, by simpa using owner⟩
  cases found : (w.db.devices.filter fun d => d.userId = client.userId).find?
      (fun d => d.deviceId = client.deviceId) with
  | none => simpa [id] using List.find?_eq_none.mp found d own
  | some d' =>
      have other := (List.mem_filter.mp (List.mem_of_find?_eq_some found)).1
      have same : d'.deviceId = client.deviceId := by simpa using List.find?_some found
      rw [unique.device_eq other mem (same.trans id.symm)]

theorem authenticate_run (unfailing : UnfailingFrom A w)
    (encodes : ∀ claims, A.lib.jwtEncode A.jwtKeys.secret claims ≠ none)
    (wellFormed : w.WellFormed A) (known : w.db.user client.userId = some user)
    (active : user.suspended = false) (registered : client.Registered A lib w)
    (prompt : ∀ w, around.pause w ≤ Auth.challengeTtlSecs) :
    ∃ token, A.lib.jwtDecode A.jwtKeys.secret token =
        some (ownClaims A (authenticated A around w client.userId) client) ∧
      (client.authenticate lib).run (execClient A around) w =
        (.ok { client with jwt := some token }, authenticated A around w client.userId) := by
  obtain ⟨d, mem, id, owner, key⟩ := registered.device
  let before := arrive around w
  let between := arrive around (World.challenged A before client.userId)
  let nonce := A.outside.randomBytes w.draws
  obtain ⟨length, verifies⟩ := registered.signs w.draws
  have asked : (handle A (.challenge ⟨client.userId⟩)).run (exec A) before =
      (.ok (.nonce (Base64Url.encode nonce)), World.challenged A before client.userId) := by
    have posed := challenge_run (w := before) unfailing known
    rw [handle, reply_run, posed]
    rfl
  have inTime : between.clock.secs ≤ before.clock.secs + Auth.challengeTtlSecs :=
    Nat.le_trans (Clock.advance_le _ _) (Nat.add_le_add_left (prompt _) _)
  obtain ⟨token, issued⟩ : ∃ token, JwtKeys.issue A between.clock client.userId client.deviceId
      (Db.topicsOf between.db client.userId).1
      ((Db.topicsOf between.db client.userId).2 ++ [A.notifyTopic client.userId])
      (A.notifyTopic client.userId) = .ok token := by
    unfold JwtKeys.issue
    cases encoded : A.lib.jwtEncode A.jwtKeys.secret (JwtKeys.claims A between.clock
      client.userId client.deviceId (Db.topicsOf between.db client.userId).1
      ((Db.topicsOf between.db client.userId).2 ++ [A.notifyTopic client.userId])
      (A.notifyTopic client.userId)) with
    | none => exact absurd encoded (encodes _)
    | some token => exact ⟨token, rfl⟩
  have answered : (handle A (.verify ⟨client.userId, client.deviceId,
      Base64Url.encode (lib.ed25519Sign client.edPrivate nonce)⟩)).run (exec A) between =
      (.ok (.token token), authenticated A around w client.userId) := by
    have decoded : b64Decode A (Base64Url.encode (lib.ed25519Sign client.edPrivate nonce)) =
        .ok (lib.ed25519Sign client.edPrivate nonce) := by
      unfold b64Decode
      rw [Base64Url.decode_encode]
    have checked := verify_run (w := between) (unfailing.later (Nat.le_succ _))
      ⟨client.userId, client.deviceId,
        Base64Url.encode (lib.ed25519Sign client.edPrivate nonce)⟩
      (Function.update_self ..) inTime known active
      (registered_device wellFormed.keys mem id owner) (wellFormed.deviceKeys d mem) decoded length
      (by rw [key]; exact verifies)
    rw [handle_verify, checked, issued]
    rfl
  refine ⟨token, jwtIssue_decodes issued, ?_⟩
  unfold SmqttClient.authenticate
  rw [Prog.run_bind, request_run Reply.readNonce asked rfl]
  dsimp only
  rw [registered.decodes]
  change Prog.run _ (request _ _ >>= _) _ = _
  rw [Prog.run_bind, request_run Reply.readToken answered rfl]
  rfl

theorem connect_admits (unfailing : UnfailingFrom A w) {token : String} {claims : Claims}
    (decodes : A.lib.jwtDecode A.jwtKeys.secret token = some claims)
    (fresh : w.clock.secs ≤ claims.exp + jwtLeeway) (known : w.db.user claims.sub = some user)
    (active : user.suspended = false) (current : user.tokensValidFrom ≤ asI64 claims.iat) :
    (Broker.connect ⟨claims.dev, some (.text token)⟩).run (exec A) w =
      (.ok (some w.admitted), Broker.admitted w.counted claims.dev token claims) := by
  have verifies : JwtKeys.verify A w.clock token = .ok claims := jwtVerify_ok decodes fresh
  have admits : Broker.Admits A w ⟨claims.dev, some (.text token)⟩ token claims :=
    ⟨rfl, verifies, rfl, unfailing.here, user, known, active, current⟩
  rcases Broker.connect_cases (A := A) (w := w) ⟨claims.dev, some (.text token)⟩ with
    ⟨token', claims', admits', run⟩ | ⟨refused, -⟩
  · obtain rfl : token' = token := by simpa using admits'.password.symm
    obtain rfl : claims' = claims := by simpa [verifies] using admits'.verifies.symm
    exact run
  · exact absurd admits (refused token claims)

/-- The session is one of a live connection, and the hook knows its claims. -/
structure Online (w : World) (session : Session) (claims : Claims) : Prop where
  claims : w.sessions session.clientId = some claims
  live : w.live session = true

/-- The connection of the session holds a granted filter. -/
def Holds (w : World) (session : Session) (filter : String) : Prop :=
  ∃ x ∈ w.connections, session.isOf x = true ∧ filter ∈ x.subscriptions

theorem admitted_online (clientId token : String) (claims : Claims) :
    Online (Broker.admitted w clientId token claims) ⟨w.admitted, clientId⟩ claims where
  claims := Function.update_self ..
  live := by simp [World.live, Broker.admitted, Session.isOf]

section
variable {session : Session} {claims : Claims} {sub : Subscribe}

theorem grant_connections (filter : String) :
    (exec A (.grant session filter) w).2.connections = w.connections.map fun c =>
      if session.isOf c then { c with subscriptions := c.subscriptions ++ [filter] } else c :=
  rfl

theorem Holds.grant {filter other : String} (holds : Holds w session other) :
    Holds (exec A (.grant session filter) w).2 session other := by
  obtain ⟨x, mem, is, has⟩ := holds
  refine ⟨{ x with subscriptions := x.subscriptions ++ [filter] }, ?_, is,
    List.mem_append_left _ has⟩
  rw [grant_connections]
  exact List.mem_map.mpr ⟨x, mem, if_pos is⟩

theorem Online.grant (online : Online w session claims) (filter : String) :
    Online (exec A (.grant session filter) w).2 session claims ∧
      Holds (exec A (.grant session filter) w).2 session filter := by
  obtain ⟨x, mem, is⟩ := List.any_eq_true.mp online.live
  have there : { x with subscriptions := x.subscriptions ++ [filter] } ∈
      (exec A (.grant session filter) w).2.connections := by
    rw [grant_connections]
    exact List.mem_map.mpr ⟨x, mem, if_pos is⟩
  exact ⟨⟨online.claims, List.any_eq_true.mpr ⟨_, there, is⟩⟩, _, there, is,
    List.mem_append_right _ (List.mem_singleton_self _)⟩

theorem Online.granted {other : Session} (online : Online w other claims) (filter : String) :
    Online (exec A (.grant session filter) w).2 other claims := by
  obtain ⟨x, mem, is⟩ := List.any_eq_true.mp online.live
  refine ⟨online.claims, List.any_eq_true.mpr ⟨_, List.mem_map.mpr ⟨x, mem, rfl⟩, ?_⟩⟩
  split <;> exact is

/-- A filter among the claims is granted. -/
theorem Online.subscribe (online : Online w session claims)
    (own : sub.topicFilter ∈ claims.subTopics) :
    (Broker.subscribe session sub).run (exec A) w =
      (.ok true, (exec A (.grant session sub.topicFilter) w).2) := by
  have grants : Broker.grants w session.clientId sub.topicFilter :=
    ⟨claims, online.claims, own⟩
  rcases Broker.subscribe_cases (A := A) (w := w) session sub with ⟨-, run⟩ | ⟨refused, -⟩
  · exact run
  · exact absurd grants refused

/-- All filters of one packet are granted, and those granted before stay. -/
theorem Online.suback (online : Online w session claims) (subs : List Subscribe)
    (own : ∀ sub ∈ subs, TopicFilter.Valid sub.topicFilter ∧
      sub.topicFilter ∈ claims.subTopics) :
    ∃ v, (Broker.suback session subs).run (exec A) w = (.ok (subs.map fun _ => true), v) ∧
      (∀ filter, Holds w session filter → Holds v session filter) ∧
      ∀ sub ∈ subs, Holds v session sub.topicFilter := by
  induction subs generalizing w with
  | nil => exact ⟨w, rfl, fun _ holds => holds, by simp⟩
  | cons sub subs ih =>
      obtain ⟨valid, listed⟩ := own sub List.mem_cons_self
      obtain ⟨still, holds⟩ := online.grant (A := A) sub.topicFilter
      obtain ⟨v, run, kept, all⟩ := ih still fun sub mem => own sub (List.mem_cons_of_mem _ mem)
      refine ⟨v, ?_, fun filter holds => kept filter holds.grant, ?_⟩
      · unfold Broker.suback
        rw [if_pos valid, Prog.run_bind, online.subscribe listed]
        dsimp only
        rw [Prog.run_bind, run]
        rfl
      · intro other mem
        rcases List.mem_cons.mp mem with rfl | mem
        · exact kept _ holds
        · exact all other mem

end

end

section
variable {client : SmqttClient}

end

section
open Deployment

end

end Smqtt
