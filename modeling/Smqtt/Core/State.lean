import Smqtt.Library.TopicFilter
import Mathlib.Logic.Function.Basic
import Mathlib.Data.Int.ModEq

/-!
The data of the server: errors, token claims, database rows, configuration and
the mutable world that handlers and broker hooks share.

What never changes while the server runs is `AppState`: the configuration, the
signing keys, the functions of the libraries it links against and the outside
it draws ids, random bytes, statement failures and hook replies from. The n-th
draw and the n-th statement of a run look at position n of these supplies, so a
claim about every supply is a claim about every outcome.
-/

namespace Smqtt

inductive Error
  | notFound
  | unauthorized
  | forbidden
  | badRequest (message : String)
  | conflict (message : String)
  | database
  | internal (message : String)
  deriving DecidableEq

/-- Status code and message of the HTTP answer. -/
def Error.intoResponse : Error → Nat × String
  | .notFound => (404, "not found")
  | .unauthorized => (401, "unauthorized")
  | .forbidden => (403, "forbidden")
  | .badRequest m => (400, m)
  | .conflict m => (409, m)
  | .database => (500, "database error")
  | .internal _ => (500, "internal error")

/-- The cast of a `u64` to an `i64`. -/
def asI64 (n : Nat) : Int := (n : Int).bmod (2 ^ 64)

/-- The sum of two `u64`, as release builds compute it. -/
def addU64 (a b : Nat) : Nat := (a + b) % 2 ^ 64

theorem asI64_of_lt {n : Nat} (h : n < 2 ^ 63) : asI64 n = n := by
  unfold asI64
  apply Int.bmod_eq_of_le <;> omega

theorem addU64_of_lt {a b : Nat} (h : a + b < 2 ^ 64) : addU64 a b = a + b :=
  Nat.mod_eq_of_lt h

/-- The default leeway of `jsonwebtoken::Validation`, in seconds. -/
def jwtLeeway : Nat := 60

/-- Seconds since the epoch. The system clock keeps them in a signed 64-bit field, and it
is past the first minute: the default validation subtracts its leeway from the `u64`. -/
structure Clock where
  secs : Nat
  started : jwtLeeway ≤ secs
  inRange : secs < 2 ^ 63

@[simp] theorem Clock.asI64_secs (c : Clock) : asI64 c.secs = c.secs := asI64_of_lt c.inRange

structure Claims where
  sub : String
  dev : String
  exp : Nat
  iat : Nat
  pubTopics : List String
  subTopics : List String
  notifyTopic : String
  deriving DecidableEq

structure User where
  userId : String
  createdAt : Int
  suspended : Bool
  suspendReason : Option String
  tokensValidFrom : Int
  deriving DecidableEq

structure Device where
  deviceId : String
  userId : String
  pubkey : List UInt8
  registeredAt : Int
  deriving DecidableEq

/-- The topic lists are stored as JSON text. -/
structure Relationship where
  relationshipId : String
  userId : String
  peerId : String
  publishTopics : String
  subscribeTopics : String
  createdAt : Int
  deriving DecidableEq

structure PendingExchange where
  exchangeId : String
  initiatorId : String
  responderId : String
  initiatorPubkey : List UInt8
  responderPubkey : Option (List UInt8)
  createdAt : Int
  expiresAt : Int
  deriving DecidableEq

structure RegistrationToken where
  tokenId : String
  tokenHash : List UInt8
  createdAt : Int
  expiresAt : Int
  maxUses : Int
  uses : Int
  deriving DecidableEq

structure Database where
  users : List User
  devices : List Device
  relationships : List Relationship
  pendingExchanges : List PendingExchange
  registrationTokens : List RegistrationToken
  deriving DecidableEq

def Database.empty : Database := ⟨[], [], [], [], []⟩

inductive RegistrationMode
  | open
  | closed
  | policy
  deriving DecidableEq

inductive PolicyKind
  | push
  | hook
  deriving DecidableEq

structure RegistrationPolicy where
  kind : PolicyKind
  hookUrl : Option String

structure Config where
  registrationMode : RegistrationMode
  registrationPolicy : Option RegistrationPolicy
  adminApiKey : String
  notifySecret : String
  jwtTtlSeconds : UInt64

/-- HS256 uses one secret for signing and for checking. -/
structure JwtKeys where
  secret : List UInt8

/-- The library functions whose results the server only passes on or tests. -/
structure Libraries where
  hmacSha256 (key message : List UInt8) : List UInt8
  /-- `jsonwebtoken::encode` with HS256. -/
  jwtEncode (secret : List UInt8) (claims : Claims) : Option String
  /-- `jsonwebtoken::decode` up to the expiry test: signature and shape. -/
  jwtDecode (secret : List UInt8) (token : String) : Option Claims
  /-- What was encoded decodes to the same claims. -/
  jwtDecode_jwtEncode : ∀ secret claims token,
    jwtEncode secret claims = some token → jwtDecode secret token = some claims
  /-- Whether `VerifyingKey::from_bytes` accepts these 32 bytes. -/
  ed25519Point (key : List UInt8) : Bool
  ed25519Verify (key message signature : List UInt8) : Bool
  /-- The text of the base64 decoder's error for an input it refuses. -/
  base64Error (text : String) : String

structure Outside where
  bootTime : Clock
  uuid : Nat → String
  randomBytes : Nat → List UInt8
  /-- Whether the n-th statement sent to the database fails. -/
  fails : Nat → Bool
  /-- The registration hook's `allowed` field, or the error of the exchange with it. -/
  hookReply : Nat → (url pubkey : String) → Except String (Option Bool)

structure AppState where
  config : Config
  jwtKeys : JwtKeys
  lib : Libraries
  outside : Outside

/-- A connection the broker has admitted and not yet closed. -/
structure Connection where
  id : Nat
  clientId : String
  token : String
  subscriptions : List String
  deriving DecidableEq

/-- A message on `topic` handed to a connection. -/
structure Delivery where
  topic : String
  connection : Nat
  clientId : String
  deriving DecidableEq

structure SystemMessage where
  type : String
  exchangeId : String
  deriving DecidableEq

structure World where
  db : Database
  /-- `user_id -> (nonce, expires_at)` -/
  challenges : String → Option (List UInt8 × Nat)
  /-- `mqtt client_id -> verified claims` -/
  sessions : String → Option Claims
  connections : List Connection
  /-- Connections admitted so far; numbers the next one. -/
  admitted : Nat
  deliveries : List Delivery
  systemMessages : List (String × SystemMessage)
  clock : Clock
  draws : Nat
  statements : Nat

def World.boot (A : AppState) : World where
  db := .empty
  challenges := fun _ => none
  sessions := fun _ => none
  connections := []
  admitted := 0
  deliveries := []
  systemMessages := []
  clock := A.outside.bootTime
  draws := 0
  statements := 0

/-- The broker's routing: a live connection receives a message when one of its
granted filters matches the topic. -/
def deliver (topic : String) (connections : List Connection) : List Delivery :=
  (connections.filter fun c => c.subscriptions.any fun f =>
    decide (TopicFilter.Matches f topic)).map fun c => ⟨topic, c.id, c.clientId⟩

theorem mem_deliver {topic : String} {connections : List Connection} {d : Delivery} :
    d ∈ deliver topic connections ↔ ∃ c ∈ connections,
      (∃ f ∈ c.subscriptions, TopicFilter.Matches f topic) ∧
        d = ⟨topic, c.id, c.clientId⟩ := by
  simp only [deliver, List.mem_map, List.mem_filter, List.any_eq_true, decide_eq_true_eq]
  constructor
  · rintro ⟨c, ⟨hc, hf⟩, rfl⟩
    exact ⟨c, hc, hf, rfl⟩
  · rintro ⟨c, hc, hf, rfl⟩
    exact ⟨c, ⟨hc, hf⟩, rfl⟩

end Smqtt
