import Smqtt.Runs.Undisturbed

/-!
The smoke test of the whole stack: two newcomers register, log in, exchange keys and
talk over MQTT, and a revocation disconnects the first. A test is a program over what its
clients do, what the test machine draws and what it sees of the connections; a check
that fails is noted and does not stop it.

The test of an unpermitted topic is left out. It connects a second time under one client
id, and what the MQTT libraries then do with the first connection is not known here.
-/

namespace Smqtt

open AtomicSteps

/-- The exceptions of a script. -/
inductive Raised
  | method (e : Failure)
  | unpack
  | index
  | invalidTag
  deriving DecidableEq

inductive ScriptOp
  | client (op : ClientOp)
  /-- twelve bytes of `os.urandom` -/
  | urandom
  | check (label : String) (ok : Bool)
  | live (session : Session)
  | publish (session : Session) (topic : String) (payload : List UInt8)
  | received (connection : Nat)

@[reducible] def ScriptOp.Answer : ScriptOp → Type
  | .client op => op.Answer
  | .urandom => List UInt8
  | .check _ _ | .publish _ _ _ => Unit
  | .live _ => Bool
  | .received _ => List (String × List UInt8)

@[reducible] def scriptSignature : Signature where
  Op := ScriptOp
  Answer := ScriptOp.Answer

abbrev Script (α : Type) := Prog scriptSignature Raised α

/-- A script runs a method of a client. -/
def ofMethod {α : Type} : Method α → Script α
  | .done a => .done a
  | .fail e => .fail (.method e)
  | .call op next => .call (S := scriptSignature) (.client op) fun x => ofMethod (next x)

def check (label : String) (ok : Bool) : Script Unit :=
  .perform (S := scriptSignature) (.check label ok)

/-- The cipher of the cryptography library; decryption raises without a valid tag. -/
structure ChaCha20Poly1305 where
  encrypt (key nonce plaintext : List UInt8) : List UInt8
  decrypt (key nonce ciphertext : List UInt8) : Option (List UInt8)

namespace SharedSecret

variable (cipher : ChaCha20Poly1305) (secret : SharedSecret)

/-- The nonce is prepended to the ciphertext. -/
def encrypt (plaintext : List UInt8) : Script (List UInt8) := do
  let nonce : List UInt8 ← Prog.perform (S := scriptSignature) .urandom
  let ct := cipher.encrypt secret.encKey nonce plaintext
  return nonce ++ ct

def decrypt (data : List UInt8) : Script (List UInt8) :=
  let nonce := data.take 12
  let ct := data.drop 12
  match cipher.decrypt secret.encKey nonce ct with
  | some plaintext => .done plaintext
  | none => .fail .invalidTag

end SharedSecret

/-- A connection that the broker has accepted, if it did. -/
structure MqttClient where
  clientId : String
  connection : Option Nat

namespace MqttClient

def connect (clientId : String) (jwt : Option String) : Script MqttClient := do
  let answer : Except Error Reply ← Prog.perform (S := scriptSignature)
    (.client (.request (.connect ⟨clientId, jwt.map .text⟩)))
  match answer with
  | .ok (.connected connection) => return ⟨clientId, connection⟩
  | _ => return ⟨clientId, none⟩

variable (mqc : MqttClient)

def isConnected : Script Bool :=
  match mqc.connection with
  | some n => .perform (S := scriptSignature) (.live ⟨n, mqc.clientId⟩)
  | none => return false

def subscribe (topic : String) : Script Unit :=
  match mqc.connection with
  | some n => do
      let _answer : Except Error Reply ← Prog.perform (S := scriptSignature)
        (.client (.request (.subscribe ⟨n, mqc.clientId⟩ ⟨topic, .atLeastOnce⟩)))
      return ()
  | none => return ()

def publish (topic : String) (payload : List UInt8) : Script Unit :=
  match mqc.connection with
  | some n => .perform (S := scriptSignature) (.publish ⟨n, mqc.clientId⟩ topic payload)
  | none => return ()

def received : Script (List (String × List UInt8)) :=
  match mqc.connection with
  | some n => .perform (S := scriptSignature) (.received n)
  | none => return []

def waitForMessage : Script Bool := do
  let received ← mqc.received
  return !received.isEmpty

def waitForDisconnect : Script Bool := do
  let connected ← mqc.isConnected
  return !connected

end MqttClient

namespace SmokeTest

variable (lib : ClientLibraries) (cipher : ChaCha20Poly1305)

def registrationAndAuth : Script SmqttClient := do
  let alice ← ofMethod (SmqttClient.register lib none)
  check "register returns user_id" (alice.userId ≠ "")
  check "register returns device_id" (alice.deviceId ≠ "")
  let alice ← ofMethod (alice.authenticate lib)
  check "authenticate returns JWT" (alice.jwt.getD "" ≠ "")
  return alice

/-- What the parties hold after the key exchange. -/
structure Exchanged where
  alice : SmqttClient
  bob : SmqttClient
  secretA : SharedSecret
  secretB : SharedSecret

def keyExchange (alice : SmqttClient) : Script Exchanged := do
  let bob ← ofMethod (SmqttClient.register lib none)
  let bob ← ofMethod (bob.authenticate lib)
  let (exId, eph) ← ofMethod (alice.initiateExchange lib bob.userId)
  check "initiate_exchange returns exchange_id" (exId ≠ "")
  let (secretB, peerIdB) ← ofMethod (bob.respondToExchange lib exId)
  check "bob responds and gets peer_id" (peerIdB = alice.userId)
  let result ← ofMethod (alice.completeExchange lib exId eph)
  check "alice completes exchange" result.isSome
  match result with
  | none => .fail .unpack
  | some (secretA, peerIdA) => do
      check "alice gets bob's peer_id" (peerIdA = bob.userId)
      check "topics match across both sides"
        (secretA.outboundTopic lib alice.userId = secretB.inboundTopic lib bob.userId)
      -- new tokens, which include the topics of the relationship
      let alice ← ofMethod (alice.authenticate lib)
      let bob ← ofMethod (bob.authenticate lib)
      return ⟨alice, bob, secretA, secretB⟩

/-- Returns the connection of the first. -/
def mqttPubsub (x : Exchanged) : Script MqttClient := do
  let mqcA ← MqttClient.connect x.alice.deviceId x.alice.jwt
  let mqcB ← MqttClient.connect x.bob.deviceId x.bob.jwt
  check "alice connects to broker" (← mqcA.isConnected)
  check "bob connects to broker" (← mqcB.isConnected)
  mqcB.subscribe (x.secretB.inboundTopic lib x.bob.userId)
  let payload ← x.secretA.encrypt cipher (utf8 "hello from alice")
  mqcA.publish (x.secretA.outboundTopic lib x.alice.userId) payload
  let gotMessage ← mqcB.waitForMessage
  check "bob receives alice's message" gotMessage
  match (← mqcB.received).getLast? with
  | some (_, raw) => do
      let plaintext ← x.secretB.decrypt cipher raw
      check "bob decrypts correctly" (plaintext = utf8 "hello from alice")
      return mqcA
  | none => return mqcA

def revocationKick (alice : SmqttClient) (mqcA : MqttClient) : Script Unit := do
  let answer : Except Error Reply ← Prog.perform (S := scriptSignature)
    (.client (.request (.listRelationships alice.authHeaders)))
  match answer with
  | .ok (.relationships (rel :: _)) => do
      let _answer : Except Error Reply ← Prog.perform (S := scriptSignature)
        (.client (.request (.revokeRelationship alice.authHeaders rel.relationshipId)))
      let kicked ← mqcA.waitForDisconnect
      check "alice is kicked after revoking relationship" kicked
  | _ => .fail .index

def main : Script Unit := do
  let alice ← registrationAndAuth lib
  let x ← keyExchange lib alice
  let mqcA ← mqttPubsub lib cipher x
  revocationKick x.alice mqcA

end SmokeTest

/-- A message that an MQTT client has received. -/
structure Received where
  connection : Nat
  topic : String
  payload : List UInt8

structure Bench where
  world : World
  received : List Received
  failures : List String

/-- The deliveries of a PUBLISH carry its payload. -/
def Bench.exec (A : AppState) (around : Surroundings) :
    (op : ScriptOp) → Bench → op.Answer × Bench
  | .client op, b =>
      let (answer, world) := execClient A around op b.world
      (answer, { b with world })
  | .urandom, b => (around.nonce b.world, b)
  | .check label ok, b => ((), if ok then b else { b with failures := b.failures ++ [label] })
  | .live session, b => (b.world.live session, b)
  | .publish session topic payload, b =>
      let world := (execClient A around (.request (.publish session topic)) b.world).2
      let new := world.deliveries.drop b.world.deliveries.length
      ((), { b with
        world
        received := b.received ++ new.map fun d => ⟨d.connection, d.topic, payload⟩ })
  | .received connection, b =>
      ((b.received.filter fun m => m.connection = connection).map fun m => (m.topic, m.payload), b)

end Smqtt
