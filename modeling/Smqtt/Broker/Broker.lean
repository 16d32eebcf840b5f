import Smqtt.Broker.AuthHook

/-!
The embedded broker: which hooks the server registers, what the broker does
around them, system messages and kicks.

The broker itself is a library. Of it the model keeps what the server relies
on: it asks the registered hooks before it admits a connection, grants a filter
or forwards a PUBLISH, runs the hooks of the other events, and closes all live
connections of a client id that is kicked. Connections with one client id may
overlap, since the broker reports the end of a taken-over one when it chooses.
-/

namespace Smqtt

open AtomicSteps

def Parameter.hookType : Parameter → HookType
  | .clientAuthenticate _ => .clientAuthenticate
  | .clientSubscribeCheckAcl _ _ => .clientSubscribeCheckAcl
  | .clientDisconnected _ => .clientDisconnected
  | .messagePublishCheckAcl _ _ => .messagePublishCheckAcl
  | .clientConnected _ => .clientConnected
  | .sessionTerminated _ => .sessionTerminated

namespace Broker

/-- The registrations made by `run`, with their priorities. -/
def registered : List (HookType × Int) :=
  [(.clientAuthenticate, 10), (.clientSubscribeCheckAcl, 10), (.clientDisconnected, 10)]

/-- The broker offers an event to the handlers registered for its type; without
any there is no result. All registrations here are of the one handler. -/
def execHook (param : Parameter) : Handler (Option HookResult) :=
  if registered.any fun r => r.1 = param.hookType then do
    let result ← AuthHook.hook param none
    return result.2
  else return none

/-- A CONNECT packet. Without a result the broker refuses, as `allow_anonymous`
is off. The answer is the number of the admitted connection. Older connections of
the client id stay: see `connectOver`. -/
def connect (info : ConnectInfo) : Handler (Option Nat) := do
  let result ← execHook (.clientAuthenticate info)
  match result, info.password with
  | some (.authResult (.allow _)), some (.text token) => do
      let connection : Nat ← Prog.perform (S := signature) (.accept info.clientId token)
      return some connection
  | _, _ => return none

/-- A filter of a SUBSCRIBE packet: whether the hooks let it be granted. Any string
passes for a filter here: see `suback`. -/
def subscribe (session : Session) (subscribe : Subscribe) : Handler Bool := do
  let result ← execHook (.clientSubscribeCheckAcl session subscribe)
  match result with
  | some (.subscribeAclResult .notAuthorized) => return false
  | _ => do
      let _live : Bool ← Prog.perform (S := signature) (.grant session subscribe.topicFilter)
      return true

/-- A PUBLISH packet: whether the broker forwards it. -/
def publish (session : Session) (topic : String) : Handler Bool := do
  let result ← execHook (.messagePublishCheckAcl session topic)
  match result with
  | some (.publishAclResult false) => return false
  | _ => Prog.perform (S := signature) (.forward session topic)

/-- The end of a connection, reported once the broker has closed it. -/
def disconnected (session : Session) : Handler Unit := do
  Prog.perform (S := signature) (.close session)
  let _result ← execHook (.clientDisconnected session)
  return ()

/-- The connections that a new one of this client id takes over. -/
def older (w : World) (clientId : String) : List Connection :=
  w.connections.filter fun x => x.clientId = clientId

/-- All filters of a SUBSCRIBE packet. The hooks are not asked about a string that is
not a filter: it is refused. -/
def suback (session : Session) : List Subscribe → Handler (List Bool)
  | [] => return []
  | sub :: subs => do
      let granted ← if TopicFilter.Valid sub.topicFilter then subscribe session sub
        else pure false
      let others ← suback session subs
      return granted :: others

def publishSystem (topic : String) (message : SystemMessage) : Handler Unit :=
  Prog.perform (S := signature) (.publishSystem topic message)

def kickDevices : List Device → Handler Unit
  | [] => return ()
  | device :: devices => do
      Prog.perform (S := signature) (.kick device.deviceId)
      kickDevices devices

/-- Both fallible statements are logged when they fail and never reported. -/
def kickUser (userId : String) : Handler Unit := do
  let _logged ← ((Db.invalidateTokens userId).attempt : Handler (Except Error Unit))
  let devices ← ((Db.getDeviceByUser userId).attempt : Handler (Except Error (List Device)))
  match devices with
  | .ok devices => kickDevices devices
  | .error _ => return ()

variable {A : AppState} {w w' : World}

/-- The broker admits the connection: every check of `authenticate` passes. -/
structure Admits (A : AppState) (w : World) (info : ConnectInfo) (token : String)
    (claims : Claims) : Prop where
  password : info.password = some (.text token)
  verifies : JwtKeys.verify A w.clock token = .ok claims
  device : info.clientId = claims.dev
  answered : A.outside.fails w.statements = false
  user : ∃ user, w.db.user claims.sub = some user ∧ user.suspended = false ∧
    user.tokensValidFrom ≤ asI64 claims.iat

/-- The world once a connection with these claims has been admitted. -/
def admitted (w : World) (clientId token : String) (claims : Claims) : World :=
  { w with
    sessions := Function.update w.sessions clientId (some claims)
    connections := w.connections ++ [⟨w.admitted, clientId, token, []⟩]
    admitted := w.admitted + 1 }

theorem authenticate_text {info : ConnectInfo} {token : String}
    (h : info.password = some (.text token)) :
    (AuthHook.authenticate info).run (exec A) w =
      match JwtKeys.verify A w.clock token with
      | .error _ => (.ok deny, w)
      | .ok claims =>
          if info.clientId ≠ claims.dev then (.ok deny, w)
          else match (Db.getUser claims.sub).run (exec A) w with
            | (.error _, v) => (.ok deny, v)
            | (.ok user, v) =>
                if user.suspended then (.ok deny, v)
                else if asI64 claims.iat < user.tokensValidFrom then (.ok deny, v)
                else (.ok (false, some (.authResult (.allow false))), { v with
                  sessions := Function.update v.sessions info.clientId (some claims) }) := by
  unfold AuthHook.authenticate
  rw [h]
  dsimp only
  rw [perform_bind_run (.jwtVerify token)]
  dsimp only [exec]
  cases JwtKeys.verify A w.clock token with
  | error e => rfl
  | ok claims =>
      dsimp only
      split
      · rfl
      · rw [Prog.run_bind, Prog.run_attempt]
        cases (Db.getUser claims.sub).run (exec A) w with
        | mk result v =>
            cases result with
            | error e => rfl
            | ok user =>
                dsimp only
                split
                · rfl
                · split <;> rfl

theorem connect_run (info : ConnectInfo) : (connect info).run (exec A) w =
    match (AuthHook.authenticate info).run (exec A) w, info.password with
    | (.ok (_, some (.authResult (.allow _))), v), some (.text token) =>
        (.ok (some v.admitted), { v with
          connections := v.connections ++ [⟨v.admitted, info.clientId, token, []⟩]
          admitted := v.admitted + 1 })
    | (.ok _, v), _ => (.ok none, v)
    | (.error e, v), _ => (.error e, v) := by
  unfold connect execHook
  have isRegistered : (registered.any fun r =>
      r.1 = (Parameter.clientAuthenticate info).hookType) = true := by rfl
  have asked : AuthHook.hook (.clientAuthenticate info) none = AuthHook.authenticate info := rfl
  rw [if_pos isRegistered, asked, Prog.run_bind, Prog.run_bind]
  cases (AuthHook.authenticate info).run (exec A) w with
  | mk result v =>
      cases result with
      | error e => rfl
      | ok r =>
          obtain ⟨proceed, result⟩ := r
          rcases result with _ | (allow | _) | _ | _ <;>
            rcases info.password with _ | (_ | _) <;> rfl

/-- A connection is admitted when every check passes, and only then. -/
theorem connect_cases (info : ConnectInfo) :
    (∃ token claims, Admits A w info token claims ∧ (connect info).run (exec A) w =
      (.ok (some w.admitted), admitted w.counted info.clientId token claims)) ∨
    ((∀ token claims, ¬Admits A w info token claims) ∧
      ∃ v, (v = w ∨ v = w.counted) ∧ (connect info).run (exec A) w = (.ok none, v)) := by
  rw [connect_run]
  rcases hp : info.password with _ | (token | _)
  case none =>
    refine Or.inr ⟨fun t cl h => ?_, w, Or.inl rfl, ?_⟩
    · simpa [hp] using h.password
    · simp [AuthHook.authenticate, hp, deny]
  case some.notUtf8 =>
    refine Or.inr ⟨fun t cl h => ?_, w, Or.inl rfl, ?_⟩
    · simpa [hp] using h.password
    · simp [AuthHook.authenticate, hp, deny]
  case some.text =>
    have sole {t : String} {cl : Claims} (h : Admits A w info t cl) : t = token := by
      simpa [hp] using h.password.symm
    rw [authenticate_text hp]
    cases hv : JwtKeys.verify A w.clock token with
    | error e =>
        refine Or.inr ⟨fun t cl h => ?_, w, Or.inl rfl, rfl⟩
        have := sole h ▸ h.verifies
        simp [hv] at this
    | ok claims =>
        have same {t : String} {cl : Claims} (h : Admits A w info t cl) : cl = claims := by
          have := sole h ▸ h.verifies
          simpa [hv] using this.symm
        by_cases hid : info.clientId = claims.dev
        case neg =>
          simp only [ne_eq, hid, not_false_eq_true, if_true]
          exact Or.inr ⟨fun t cl h => hid (same h ▸ h.device), w, Or.inl rfl, rfl⟩
        case pos =>
          simp only [ne_eq, hid, not_true_eq_false, if_false]
          rw [Db.getUser_run]
          cases hf : A.outside.fails w.statements with
          | true =>
              refine Or.inr ⟨fun t cl h => ?_, w.counted, Or.inr rfl, rfl⟩
              simpa [hf] using h.answered
          | false =>
              cases hu : w.db.user claims.sub with
              | none =>
                  refine Or.inr ⟨fun t cl h => ?_, w.counted, Or.inr rfl, rfl⟩
                  obtain ⟨user, hfind, -⟩ := same h ▸ h.user
                  simp [hu] at hfind
              | some user =>
                  have row {t : String} {cl : Claims} (h : Admits A w info t cl) :
                      user.suspended = false ∧ user.tokensValidFrom ≤ asI64 claims.iat := by
                    obtain ⟨v, hfind, checks⟩ := same h ▸ h.user
                    obtain rfl : user = v := by simpa [hu] using hfind
                    exact checks
                  cases hs : user.suspended with
                  | true =>
                      refine Or.inr ⟨fun t cl h => ?_, w.counted, Or.inr rfl, ?_⟩
                      · simpa [hs] using (row h).1
                      · simp [hs, deny]
                  | false =>
                      by_cases hi : asI64 claims.iat < user.tokensValidFrom
                      · refine Or.inr ⟨fun t cl h => ?_, w.counted, Or.inr rfl, ?_⟩
                        · exact absurd (row h).2 (by omega)
                        · simp [hs, hi, deny]
                      · refine Or.inl ⟨token, claims, ?_, ?_⟩
                        · exact ⟨hp, hv, hid, hf, user, hu, hs, by omega⟩
                        · simp [hs, hi, admitted, World.counted]

/-- The filters the ACL check grants to a client id. -/
def grants (w : World) (clientId filter : String) : Prop :=
  ∃ claims, w.sessions clientId = some claims ∧ filter ∈ claims.subTopics

theorem checkSubscribeAcl_run (session : Session) (sub : Subscribe) :
    (grants w session.clientId sub.topicFilter ∧
      (AuthHook.checkSubscribeAcl session sub).run (exec A) w =
        (.ok (true, some (.subscribeAclResult (.success sub.qos))), w)) ∨
    (¬grants w session.clientId sub.topicFilter ∧
      (AuthHook.checkSubscribeAcl session sub).run (exec A) w =
        (.ok (false, some (.subscribeAclResult .notAuthorized)), w)) := by
  unfold AuthHook.checkSubscribeAcl grants
  rw [perform_bind_run (.sessionsGet session.clientId)]
  dsimp only [exec]
  cases w.sessions session.clientId with
  | none => exact Or.inr ⟨by simp, rfl⟩
  | some claims =>
      by_cases hmem : sub.topicFilter ∈ claims.subTopics
      · exact Or.inl ⟨⟨claims, rfl, hmem⟩, by simp [hmem]⟩
      · exact Or.inr ⟨by simpa using hmem, by simp [hmem]⟩

theorem subscribe_cases (session : Session) (sub : Subscribe) :
    (grants w session.clientId sub.topicFilter ∧ (subscribe session sub).run (exec A) w =
      (.ok true, (exec A (.grant session sub.topicFilter) w).2)) ∨
    (¬grants w session.clientId sub.topicFilter ∧
      (subscribe session sub).run (exec A) w = (.ok false, w)) := by
  have asked : execHook (.clientSubscribeCheckAcl session sub) =
      (AuthHook.checkSubscribeAcl session sub >>= fun result => pure result.2) := rfl
  unfold subscribe
  rw [asked, Prog.run_bind, Prog.run_bind]
  rcases checkSubscribeAcl_run (A := A) (w := w) session sub with ⟨h, run⟩ | ⟨h, run⟩
  · exact Or.inl ⟨h, by rw [run]; rfl⟩
  · exact Or.inr ⟨h, by rw [run]; rfl⟩

/-- No hook is registered for PUBLISH packets: all those of live connections pass. -/
theorem publish_run (session : Session) (topic : String) :
    (publish session topic).run (exec A) w =
      (.ok (w.live session), (exec A (.forward session topic) w).2) := by
  change (Except.ok (exec A (.forward session topic) w).1, _) = _
  simp only [exec]
  split
  · rename_i h; rw [h]
  · rename_i h; rw [Bool.eq_false_iff.mpr h]

theorem kickDevices_run (devices : List Device) :
    (kickDevices devices).run (exec A) w =
      (.ok (), { w with connections :=
        w.connections.filter fun c => !(devices.any fun d => d.deviceId = c.clientId) }) := by
  induction devices generalizing w with
  | nil => simp [kickDevices]
  | cons d ds ih =>
      unfold kickDevices
      rw [perform_bind_run (.kick d.deviceId), ih]
      simp only [exec, List.filter_filter, List.any_cons]
      refine congrArg _ (congrArg (fun cs => { w with connections := cs }) ?_)
      apply List.filter_congr
      intro c _
      by_cases h : d.deviceId = c.clientId
      · simp [h]
      · simp [h, Ne.symm h]

theorem any_deviceOf (devices : List Device) (userId clientId : String) :
    ((devices.filter fun d => d.userId = userId).any fun d => decide (d.deviceId = clientId)) =
      devices.any fun d => d.userId = userId && d.deviceId = clientId := by
  rw [List.any_filter]

/-- The world after a kick. Its first statement writes the cutoff and its second
finds the devices; either may fail. -/
def kicked (A : AppState) (w : World) (userId : String) : World :=
  { w with
    db := if A.outside.fails w.statements then w.db
      else w.db.updateUser userId fun u => { u with tokensValidFrom := w.clock.secs }
    connections := if A.outside.fails (w.statements + 1) then w.connections
      else w.connections.filter fun c =>
        !(w.db.devices.any fun d => d.userId = userId && d.deviceId = c.clientId)
    statements := w.statements + 2 }

theorem invalidateTokens_world (userId : String) :
    ((Db.invalidateTokens userId).run (exec A) w).2 =
      { w.counted with db := (kicked A w userId).db } := by
  change ((sql (.updateTokensValidFrom (asI64 w.clock.secs) userId) >>= fun _ =>
    pure () : Handler Unit).run (exec A) w).2 = _
  rw [Clock.asI64_secs]
  unfold sql kicked
  simp only [Prog.call_bind, Prog.run_call, exec, Statement.execute]
  cases A.outside.fails w.statements <;> rfl

@[simp] theorem kicked_devices (userId : String) :
    (kicked A w userId).db.devices = w.db.devices := by
  simp only [kicked]
  split <;> rfl

@[simp] theorem kicked_relationships (userId : String) :
    (kicked A w userId).db.relationships = w.db.relationships := by
  simp only [kicked]
  split <;> rfl

theorem kickUser_run (userId : String) :
    (kickUser userId).run (exec A) w = (.ok (), kicked A w userId) := by
  unfold kickUser
  rw [Prog.run_bind, Prog.run_attempt]
  dsimp only
  rw [Prog.run_bind, Prog.run_attempt, invalidateTokens_world, Db.getDeviceByUser_run]
  dsimp only [World.counted]
  by_cases failed : A.outside.fails (w.statements + 1) = true
  · simp only [failed, if_true]
    simp only [kicked, failed, if_true]
    rfl
  · simp only [failed, if_false, Bool.false_eq_true, kicked_devices]
    rw [kickDevices_run]
    simp only [any_deviceOf, kicked, failed, if_false, Bool.false_eq_true]

end Broker
end Smqtt
