import Smqtt.Api.Handlers
import Mathlib.Data.List.Sort

/-!
The client library. A method of the client is a program over the two operations that
a client has: to draw a private key and to send a request, which the server answers.
-/

namespace Smqtt

open AtomicSteps

/-- The functions of the cryptographic libraries, and Python's base64 decoder. -/
structure ClientLibraries where
  ed25519Public (privateKey : List UInt8) : List UInt8
  ed25519Sign (privateKey message : List UInt8) : List UInt8
  x25519Public (privateKey : List UInt8) : List UInt8
  /-- The agreement raises for a public key that it refuses. -/
  x25519Exchange (privateKey peerPublic : List UInt8) : Option (List UInt8)
  hkdfSha256 (length : Nat) (salt info secret : List UInt8) : List UInt8
  hmacSha256 (key message : List UInt8) : List UInt8
  b64uDecode (text : String) : Option (List UInt8)

/-- Both sides of an agreement get the same secret. -/
def ClientLibraries.Commutes (lib : ClientLibraries) : Prop :=
  ∀ a b, lib.x25519Exchange a (lib.x25519Public b) = lib.x25519Exchange b (lib.x25519Public a)

/-- What was encoded decodes to the same bytes. -/
def ClientLibraries.Decodes (lib : ClientLibraries) : Prop :=
  ∀ bytes, lib.b64uDecode (Base64Url.encode bytes) = some bytes

/-- The exceptions of a method. -/
inductive Failure
  | status (e : Error)
  | field
  | base64
  | agreement
  deriving DecidableEq

inductive ClientOp
  | generate
  | request (c : Call)

@[reducible] def ClientOp.Answer : ClientOp → Type
  | .generate => List UInt8
  | .request _ => Except Error Reply

@[reducible] def clientSignature : Signature where
  Op := ClientOp
  Answer := ClientOp.Answer

/-- A method of the client. -/
abbrev Method (α : Type) := Prog clientSignature Failure α

def generate : Method (List UInt8) := .perform (S := clientSignature) .generate

def orRaise {α : Type} (e : Failure) : Option α → Method α
  | some a => .done a
  | none => .fail e

/-- A request, `raise_for_status`, and what the method reads of the answer. -/
def request {α : Type} (c : Call) (read : Reply → Option α) : Method α := do
  let answer : Except Error Reply ← Prog.perform (S := clientSignature) (.request c)
  match answer with
  | .error e => .fail (.status e)
  | .ok reply => orRaise .field (read reply)

namespace Reply

def readIds : Reply → Option (String × String)
  | .registered userId deviceId => some (userId, deviceId)
  | _ => none

def readNonce : Reply → Option String
  | .nonce text => some text
  | _ => none

def readToken : Reply → Option String
  | .token text => some text
  | _ => none

def readExchangeId : Reply → Option String
  | .exchangeId id => some id
  | _ => none

def readExchange : Reply → Option Exchange.ExchangeResponse
  | .exchange response => some response
  | _ => none

def readRelationshipId : Reply → Option String
  | .relationship response => some response.relationshipId
  | _ => none

end Reply

structure SharedSecret where
  peerId : String
  topicSeed : List UInt8
  encKey : List UInt8
  authKey : List UInt8
  deriving DecidableEq

namespace SharedSecret

variable (lib : ClientLibraries)

/-- The two public keys in the order of their bytes. -/
def sortedKeys (myPub peerPub : List UInt8) : List (List UInt8) :=
  [myPub, peerPub].insertionSort (· ≤ ·)

def derive (rawSecret myPub peerPub : List UInt8) (peerId : String) : SharedSecret :=
  let keys := sortedKeys myPub peerPub
  let salt := keys.getD 0 [] ++ keys.getD 1 []
  let okm := lib.hkdfSha256 96 salt (utf8 "smqtt-v1") rawSecret
  { peerId
    topicSeed := okm.take 32
    encKey := (okm.drop 32).take 32
    authKey := (okm.drop 64).take 32 }

variable (secret : SharedSecret) (myId : String)

/-- The user publishes to this topic, the peer subscribes to it. -/
def outboundTopic : String :=
  Base64Url.encode (lib.hmacSha256 secret.topicSeed (utf8 (myId ++ ">" ++ secret.peerId)))

/-- The peer publishes to this topic, the user subscribes to it. -/
def inboundTopic : String :=
  Base64Url.encode (lib.hmacSha256 secret.topicSeed (utf8 (secret.peerId ++ ">" ++ myId)))

end SharedSecret

/-- A client from its registration on. -/
structure SmqttClient where
  userId : String
  deviceId : String
  edPrivate : List UInt8
  jwt : Option String
  deriving DecidableEq

namespace SmqttClient

/-- Python prints an absent token as `None`. -/
def authHeaders (client : SmqttClient) : Option String :=
  some (bearerPrefix ++ client.jwt.getD "None")

variable (lib : ClientLibraries)

def register (registrationToken : Option String) : Method SmqttClient := do
  let edPrivate ← generate
  -- an empty token is not sent
  let registrationToken := registrationToken.filter fun token => token ≠ ""
  let ids ← request
    (.register ⟨Base64Url.encode (lib.ed25519Public edPrivate), registrationToken⟩) Reply.readIds
  return ⟨ids.1, ids.2, edPrivate, none⟩

variable (client : SmqttClient)

/-- Returns the client with its new token. -/
def authenticate : Method SmqttClient := do
  let text ← request (.challenge ⟨client.userId⟩) Reply.readNonce
  let nonce ← orRaise .base64 (lib.b64uDecode text)
  let sig := lib.ed25519Sign client.edPrivate nonce
  let token ← request (.verify ⟨client.userId, client.deviceId, Base64Url.encode sig⟩)
    Reply.readToken
  return { client with jwt := some token }

/-- Returns the id of the exchange and the private key that completes it. -/
def initiateExchange (peerId : String) : Method (String × List UInt8) := do
  let ephPriv ← generate
  let pubRaw := lib.x25519Public ephPriv
  let exchangeId ← request
    (.initiateExchange client.authHeaders ⟨peerId, Base64Url.encode pubRaw⟩) Reply.readExchangeId
  return (exchangeId, ephPriv)

def createRelationship (peerId : String) (secret : SharedSecret) : Method String :=
  request (.createRelationship client.authHeaders
    ⟨peerId, [secret.outboundTopic lib client.userId], [secret.inboundTopic lib client.userId]⟩)
    Reply.readRelationshipId

def respondToExchange (exchangeId : String) : Method (SharedSecret × String) := do
  let data ← request (.getExchange client.authHeaders exchangeId) Reply.readExchange
  let initiatorPubRaw ← orRaise .base64 (lib.b64uDecode data.initiatorPubkey)
  let peerId := data.initiatorId
  let ephPriv ← generate
  let ourPubRaw := lib.x25519Public ephPriv
  let rawSecret ← orRaise .agreement (lib.x25519Exchange ephPriv initiatorPubRaw)
  let _answer ← request
    (.respondExchange client.authHeaders exchangeId ⟨Base64Url.encode ourPubRaw⟩) some
  let secret := SharedSecret.derive lib rawSecret ourPubRaw initiatorPubRaw peerId
  let _relationshipId ← client.createRelationship lib peerId secret
  return (secret, peerId)

/-- Returns nothing while the peer has not responded. -/
def completeExchange (exchangeId : String) (ephPriv : List UInt8) :
    Method (Option (SharedSecret × String)) := do
  let data ← request (.getExchange client.authHeaders exchangeId) Reply.readExchange
  match data.responderPubkey.filter fun text => text ≠ "" with
  | none => return none
  | some text => do
      let ourPubRaw := lib.x25519Public ephPriv
      let responderPubRaw ← orRaise .base64 (lib.b64uDecode text)
      let rawSecret ← orRaise .agreement (lib.x25519Exchange ephPriv responderPubRaw)
      let peerId := data.responderId
      let secret := SharedSecret.derive lib rawSecret ourPubRaw responderPubRaw peerId
      let _relationshipId ← client.createRelationship lib peerId secret
      return some (secret, peerId)

end SmqttClient

end Smqtt
