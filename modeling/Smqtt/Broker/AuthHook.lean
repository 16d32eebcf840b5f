import Smqtt.Core.Db

/-!
The hook handler the server registers with the MQTT broker. Of the broker's
events it interprets three; every other event is passed on unchanged.
-/

namespace Smqtt

open AtomicSteps

/-- The bytes of a CONNECT password, by what `str::from_utf8` says of them. -/
inductive Password
  | text (s : String)
  | notUtf8
  deriving DecidableEq

structure ConnectInfo where
  clientId : String
  password : Option Password
  deriving DecidableEq

inductive QoS
  | atMostOnce
  | atLeastOnce
  | exactlyOnce
  deriving DecidableEq

structure Subscribe where
  topicFilter : String
  qos : QoS
  deriving DecidableEq

/-- The events the broker offers to hooks, as far as a broker may decide something by them. -/
inductive HookType
  | clientAuthenticate
  | clientSubscribeCheckAcl
  | clientDisconnected
  | messagePublishCheckAcl
  | clientConnected
  | sessionTerminated
  deriving DecidableEq

inductive Parameter
  | clientAuthenticate (info : ConnectInfo)
  | clientSubscribeCheckAcl (session : Session) (subscribe : Subscribe)
  | clientDisconnected (session : Session)
  | messagePublishCheckAcl (session : Session) (topic : String)
  | clientConnected (session : Session)
  | sessionTerminated (session : Session)

inductive AuthResult
  | allow (superuser : Bool)
  | notAuthorized
  deriving DecidableEq

inductive SubscribeAclResult
  | success (qos : QoS)
  | notAuthorized
  deriving DecidableEq

inductive HookResult
  | authResult (result : AuthResult)
  | subscribeAclResult (result : SubscribeAclResult)
  | publishAclResult (allow : Bool)
  deriving DecidableEq

/-- Whether the next hook of the event runs, and the result so far. -/
abbrev ReturnType := Bool × Option HookResult

def deny : ReturnType := (false, some (.authResult .notAuthorized))

namespace AuthHook

def authenticate (connectInfo : ConnectInfo) : Handler ReturnType :=
  match connectInfo.password with
  | some (.text token) => do
      let verified : Except Error Claims ← Prog.perform (S := signature) (.jwtVerify token)
      match verified with
      | .error _ => return deny
      | .ok claims =>
          -- the client id has to be the device the token was issued to
          if connectInfo.clientId ≠ claims.dev then return deny
          else do
            let user ← (Db.getUser claims.sub).attempt
            match user with
            | .error _ => return deny
            | .ok user =>
                if user.suspended then return deny
                else if asI64 claims.iat < user.tokensValidFrom then return deny
                else do
                  Prog.perform (S := signature) (.sessionsInsert connectInfo.clientId claims)
                  return (false, some (.authResult (.allow false)))
  | _ => return deny

def checkSubscribeAcl (session : Session) (subscribe : Subscribe) : Handler ReturnType := do
  let claims : Option Claims ← Prog.perform (S := signature) (.sessionsGet session.clientId)
  let allowed := match claims with
    | some claims => claims.subTopics.any fun t => t = subscribe.topicFilter
    | none => false
  if allowed then
    return (true, some (.subscribeAclResult (.success subscribe.qos)))
  else
    return (false, some (.subscribeAclResult .notAuthorized))

def hook (param : Parameter) (acc : Option HookResult) : Handler ReturnType :=
  match param with
  | .clientAuthenticate connectInfo => authenticate connectInfo
  | .clientSubscribeCheckAcl session subscribe => checkSubscribeAcl session subscribe
  | .clientDisconnected session => do
      Prog.perform (S := signature) (.sessionsRemove session.clientId)
      return (true, acc)
  | _ => return (true, acc)

end AuthHook
end Smqtt
