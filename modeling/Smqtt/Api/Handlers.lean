import Smqtt.Api.Auth

/-!
The authenticated endpoints, relationships and key exchange, and the admin ones.
-/

namespace Smqtt

open AtomicSteps

namespace Relationships

structure CreateRequest where
  peerId : String
  publishTopics : List String
  subscribeTopics : List String
  deriving DecidableEq

structure RelationshipResponse where
  relationshipId : String
  userId : String
  peerId : String
  publishTopics : List String
  subscribeTopics : List String
  createdAt : Int
  deriving DecidableEq

def create (authorization : Option String) (req : CreateRequest) :
    Handler RelationshipResponse := do
  let userId ← AuthUser.fromRequestParts authorization
  let rel ← Db.createRelationship userId req.peerId req.publishTopics req.subscribeTopics
  return ⟨rel.relationshipId, rel.userId, rel.peerId, req.publishTopics,
    req.subscribeTopics, rel.createdAt⟩

def list (authorization : Option String) : Handler (List RelationshipResponse) := do
  let userId ← AuthUser.fromRequestParts authorization
  let rels ← Db.listRelationships userId
  return rels.map fun r => ⟨r.relationshipId, r.userId, r.peerId,
    Db.decodeTopics r.publishTopics, Db.decodeTopics r.subscribeTopics, r.createdAt⟩

def revoke (authorization : Option String) (relationshipId : String) : Handler Unit := do
  let userId ← AuthUser.fromRequestParts authorization
  let rel ← Db.getRelationship userId relationshipId
  Db.deleteRelationship userId relationshipId
  Broker.kickUser userId
  Broker.kickUser rel.peerId

end Relationships

namespace Exchange

structure InitiateRequest where
  peerId : String
  ephemeralPubkey : String
  deriving DecidableEq

structure RespondRequest where
  ephemeralPubkey : String
  deriving DecidableEq

structure ExchangeResponse where
  exchangeId : String
  initiatorId : String
  responderId : String
  initiatorPubkey : String
  responderPubkey : Option String
  deriving DecidableEq

def decodePubkey (A : AppState) (text : String) : Except Error (List UInt8) := do
  let pubkey ← b64Decode A text
  if pubkey.length ≠ 32 then .error (.badRequest "ephemeral_pubkey must be 32 bytes (X25519)")
  else .ok pubkey

def initiate (A : AppState) (authorization : Option String) (req : InitiateRequest) :
    Handler String := do
  let userId ← AuthUser.fromRequestParts authorization
  let _peer ← Db.getUser req.peerId
  let pubkey ← Prog.ofExcept (decodePubkey A req.ephemeralPubkey)
  let exchange ← Db.createExchange userId req.peerId pubkey
  Broker.publishSystem (A.notifyTopic req.peerId) ⟨"pending_exchange", exchange.exchangeId⟩
  return exchange.exchangeId

def get (authorization : Option String) (exchangeId : String) : Handler ExchangeResponse := do
  let userId ← AuthUser.fromRequestParts authorization
  let ex ← Db.getExchange exchangeId
  if ex.initiatorId ≠ userId ∧ ex.responderId ≠ userId then .fail .forbidden
  else do
    let response : ExchangeResponse := ⟨exchangeId, ex.initiatorId, ex.responderId,
      Base64Url.encode ex.initiatorPubkey, ex.responderPubkey.map Base64Url.encode⟩
    -- both keys are about to be returned: the initiator's read discards the record
    if ex.responderPubkey.isSome ∧ ex.initiatorId = userId then do
      let _ignored ← ((Db.deleteExchange exchangeId).attempt : Handler (Except Error Unit))
      return response
    else return response

def respond (A : AppState) (authorization : Option String) (exchangeId : String)
    (req : RespondRequest) : Handler ExchangeResponse := do
  let userId ← AuthUser.fromRequestParts authorization
  let ex ← Db.getExchange exchangeId
  if ex.responderId ≠ userId then .fail .forbidden
  else if ex.responderPubkey.isSome then .fail (.conflict "exchange already has a response")
  else do
    let pubkey ← Prog.ofExcept (decodePubkey A req.ephemeralPubkey)
    Db.setResponderPubkey exchangeId pubkey
    Broker.publishSystem (A.notifyTopic ex.initiatorId) ⟨"exchange_complete", exchangeId⟩
    return ⟨exchangeId, ex.initiatorId, ex.responderId,
      Base64Url.encode ex.initiatorPubkey, some (Base64Url.encode pubkey)⟩

end Exchange

namespace Admin

def requireAdminKey (provided : Option String) (expected : String) : Handler Unit :=
  if provided.getD "" = expected then return () else .fail .unauthorized

def defaultExpiresIn : UInt64 := 3600
def defaultMaxUses : Int64 := 1

structure CreateTokenRequest where
  expiresIn : UInt64 := defaultExpiresIn
  maxUses : Int64 := defaultMaxUses
  deriving DecidableEq

/-- The admin module has its own copy of the hash that registration uses. -/
def tokenHash (A : AppState) (token : String) : List UInt8 :=
  A.lib.hmacSha256 (utf8 "smqtt-token-hash") (utf8 token)

def createRegistrationToken (A : AppState) (adminKey : Option String)
    (req : CreateTokenRequest) : Handler String := do
  requireAdminKey adminKey A.config.adminApiKey
  let raw : List UInt8 ← Prog.perform (S := signature) .fillBytes
  let token := Base64Url.encode raw
  let _tokenId ← Db.createRegistrationToken (tokenHash A token) req.expiresIn req.maxUses
  return token

structure SuspendRequest where
  reason : Option String
  deriving DecidableEq

def suspendUser (A : AppState) (adminKey : Option String) (userId : String)
    (req : SuspendRequest) : Handler Unit := do
  requireAdminKey adminKey A.config.adminApiKey
  Db.setSuspended userId true req.reason
  Broker.kickUser userId

def unsuspendUser (A : AppState) (adminKey : Option String) (userId : String) :
    Handler Unit := do
  requireAdminKey adminKey A.config.adminApiKey
  Db.setSuspended userId false none

end Admin

inductive Call
  | register (req : Register.RegisterRequest)
  | challenge (q : Auth.ChallengeQuery)
  | verify (req : Auth.VerifyRequest)
  | createRelationship (authorization : Option String) (req : Relationships.CreateRequest)
  | listRelationships (authorization : Option String)
  | revokeRelationship (authorization : Option String) (relationshipId : String)
  | initiateExchange (authorization : Option String) (req : Exchange.InitiateRequest)
  | getExchange (authorization : Option String) (exchangeId : String)
  | respondExchange (authorization : Option String) (exchangeId : String)
      (req : Exchange.RespondRequest)
  | createRegistrationToken (adminKey : Option String) (req : Admin.CreateTokenRequest)
  | suspendUser (adminKey : Option String) (userId : String) (req : Admin.SuspendRequest)
  | unsuspendUser (adminKey : Option String) (userId : String)
  /-- one tick of the purge loop -/
  | purge
  | connect (info : ConnectInfo)
  | subscribe (session : Session) (subscribe : Subscribe)
  | publish (session : Session) (topic : String)
  | disconnected (session : Session)
  deriving DecidableEq

inductive Reply
  | registered (userId deviceId : String)
  | nonce (nonce : String)
  | token (token : String)
  | relationship (response : Relationships.RelationshipResponse)
  | relationships (responses : List Relationships.RelationshipResponse)
  | revoked
  | exchangeId (exchangeId : String)
  | exchange (response : Exchange.ExchangeResponse)
  | registrationToken (token : String)
  | noContent
  | purged (rows : Nat)
  | connected (connection : Option Nat)
  | subscribed (granted : Bool)
  | published (forwarded : Bool)
  | disconnected
  deriving DecidableEq

def Prog.reply {α : Type} (p : Handler α) (f : α → Reply) : Handler Reply := do
  let a ← p
  return f a

def handle (A : AppState) : Call → Handler Reply
  | .register req => Prog.reply (Register.register A req) fun ids => .registered ids.1 ids.2
  | .challenge q => Prog.reply (Auth.challenge q) .nonce
  | .verify req => Prog.reply (Auth.verify A req) .token
  | .createRelationship authorization req =>
      Prog.reply (Relationships.create authorization req) .relationship
  | .listRelationships authorization =>
      Prog.reply (Relationships.list authorization) .relationships
  | .revokeRelationship authorization relationshipId =>
      Prog.reply (Relationships.revoke authorization relationshipId) fun _ => .revoked
  | .initiateExchange authorization req =>
      Prog.reply (Exchange.initiate A authorization req) .exchangeId
  | .getExchange authorization exchangeId =>
      Prog.reply (Exchange.get authorization exchangeId) .exchange
  | .respondExchange authorization exchangeId req =>
      Prog.reply (Exchange.respond A authorization exchangeId req) .exchange
  | .createRegistrationToken adminKey req =>
      Prog.reply (Admin.createRegistrationToken A adminKey req) .registrationToken
  | .suspendUser adminKey userId req =>
      Prog.reply (Admin.suspendUser A adminKey userId req) fun _ => .noContent
  | .unsuspendUser adminKey userId =>
      Prog.reply (Admin.unsuspendUser A adminKey userId) fun _ => .noContent
  | .purge => Prog.reply Db.purgeExpiredExchanges .purged
  | .connect info => Prog.reply (Broker.connect info) .connected
  | .subscribe session subscribe =>
      Prog.reply (Broker.subscribe session subscribe) .subscribed
  | .publish session topic => Prog.reply (Broker.publish session topic) .published
  | .disconnected session => Prog.reply (Broker.disconnected session) fun _ => .disconnected

end Smqtt
