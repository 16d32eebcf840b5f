import Smqtt.Runs.Atomic

/-!
A deployment to execute: the libraries are small computable stand-ins, the ids
are numbered and the answers of the outside are fixed. A token is a keyed checksum
followed by the claims, and what was encoded decodes.
-/

namespace Smqtt.Deployment

open AtomicSteps

def digits (n : Nat) : String := String.ofList (Nat.toDigits 10 n)

def readDigits (s : String) : Nat := Nat.ofDigitChars 10 s.toList 0

theorem readDigits_digits (n : Nat) : readDigits (digits n) = n := by
  simp [readDigits, digits, Nat.ofDigitChars_ten_toDigits]

/-- Strings one after the other: a dot before each character, a bar after each string. -/
def pack : List String → List Char
  | [] => []
  | s :: rest => s.toList.flatMap (fun c => ['.', c]) ++ '|' :: pack rest

def unpack : List Char → List Char → List String
  | read, '.' :: c :: rest => unpack (read ++ [c]) rest
  | read, _ :: rest => String.ofList read :: unpack [] rest
  | _, [] => []

theorem unpack_pack (strings : List String) : unpack [] (pack strings) = strings := by
  have word (cs read rest : List Char) :
      unpack read (cs.flatMap (fun c => ['.', c]) ++ '|' :: rest) =
        String.ofList (read ++ cs) :: unpack [] rest := by
    induction cs generalizing read with
    | nil => simp [unpack]
    | cons c cs ih => simp [unpack, ih]
  induction strings with
  | nil => rfl
  | cons s rest ih => simp [pack, word, ih]

def payload (c : Claims) : String :=
  String.ofList (pack (c.sub :: c.dev :: digits c.exp :: digits c.iat :: c.notifyTopic ::
    digits c.pubTopics.length :: (c.pubTopics ++ c.subTopics)))

def readPayload (text : String) : Option Claims :=
  match unpack [] text.toList with
  | sub :: dev :: exp :: iat :: notifyTopic :: count :: topics =>
      some ⟨sub, dev, readDigits exp, readDigits iat, topics.take (readDigits count),
        topics.drop (readDigits count), notifyTopic⟩
  | _ => none

theorem readPayload_payload (c : Claims) : readPayload (payload c) = some c := by
  simp [readPayload, payload, unpack_pack, readDigits_digits]

/-- A keyed checksum of three bytes. -/
def digest (key message : List UInt8) : List UInt8 :=
  let n := (key ++ message).foldl (fun n b => (n * 31 + b.toNat) % 2 ^ 24) 1
  [UInt8.ofNat (n / 2 ^ 16), UInt8.ofNat (n / 2 ^ 8), UInt8.ofNat n]

def tag (secret : List UInt8) (text : String) : List Char :=
  (Base64Url.encode (digest secret (utf8 text))).toList

theorem tag_length (secret : List UInt8) (text : String) : (tag secret text).length = 4 := by
  simp [tag, Base64Url.encode, digest, Base64Url.toSextets]

def jwtEncode (secret : List UInt8) (claims : Claims) : Option String :=
  some (String.ofList (tag secret (payload claims) ++ (payload claims).toList))

def jwtDecode (secret : List UInt8) (token : String) : Option Claims :=
  let text := String.ofList (token.toList.drop 4)
  if token.toList.take 4 = tag secret text then readPayload text else none

theorem jwtDecode_jwtEncode (secret : List UInt8) (claims : Claims) (token : String)
    (h : jwtEncode secret claims = some token) : jwtDecode secret token = some claims := by
  obtain rfl := Option.some.inj h
  have four := tag_length secret (payload claims)
  simp [jwtDecode, ← four, readPayload_payload]

/-- The signature of a message under a key: here both of them together. -/
def sign (pubkey message : List UInt8) : List UInt8 := pubkey ++ message

def libraries : Libraries where
  hmacSha256 := digest
  jwtEncode := jwtEncode
  jwtDecode := jwtDecode
  jwtDecode_jwtEncode := jwtDecode_jwtEncode
  ed25519Point key := key.length = 32
  ed25519Verify key message signature := signature = sign key message
  base64Error text := "Invalid input " ++ text

def outside : Outside where
  bootTime := ⟨100, by decide, by decide⟩
  uuid n := digits n
  randomBytes n := List.replicate 31 0 ++ [UInt8.ofNat n]
  fails _ := false
  hookReply _ _ _ := .ok (some true)

def config : Config where
  registrationMode := .open
  registrationPolicy := none
  adminApiKey := "admin"
  notifySecret := "n"
  jwtTtlSeconds := 5

def app : AppState := ⟨config, ⟨[7]⟩, libraries, outside⟩

theorem unfailing : Unfailing app := fun _ => rfl

abbrev machine : Machine World Action (Option (Except Error Reply)) := (server app).atomic

def history (actions : List Action) : Log := machine.trace machine.start actions

def reached (actions : List Action) : World := machine.final machine.start actions

/-- The step `a` takes once the actions have been performed. -/
def stepAfter (actions : List Action) (a : Action) : Step := machine.entry (reached actions) a

@[simp] theorem stepAfter_before (actions : List Action) (a : Action) :
    (stepAfter actions a).before = reached actions := rfl

/-- No action presents a token that was not issued before. -/
def Honest (actions : List Action) : Prop :=
  machine.AllowedFrom (Unforged app) [] machine.start actions

instance (actions : List Action) : Decidable (Honest actions) :=
  inferInstanceAs (Decidable (machine.AllowedFrom _ _ _ _))

theorem Honest.left {actions more : List Action} (honest : Honest (actions ++ more)) :
    Honest actions :=
  Machine.AllowedFrom.left machine honest

theorem run_history {actions : List Action} (honest : Honest actions) :
    AtomicRun app (Unforged app) (history actions) (reached actions) :=
  machine.run_trace actions honest

theorem history_split (actions : List Action) (a : Action) (rest : List Action) :
    history (actions ++ a :: rest) =
      history actions ++ stepAfter actions a :: machine.trace (stepAfter actions a).after rest :=
  machine.trace_append _ _ _

/-- The public key of the client with this number. -/
def key (n : Nat) : List UInt8 := List.replicate 31 1 ++ [UInt8.ofNat n]

def register (n : Nat) : Action := .call (.register ⟨Base64Url.encode (key n), none⟩)

def challenge (userId : String) : Action := .call (.challenge ⟨userId⟩)

/-- A device answers the challenge whose nonce was draw `nonce`. -/
def verify (userId deviceId : String) (n nonce : Nat) : Action :=
  .call (.verify ⟨userId, deviceId, Base64Url.encode (sign (key n) (outside.randomBytes nonce))⟩)

/-- The token of a user's device, as `verify` would issue it at this time. -/
def token (userId deviceId : String) (now : Nat) (pubTopics subTopics : List String) : String :=
  (jwtEncode [7] ⟨userId, deviceId, now + 5, now, pubTopics,
    subTopics ++ [app.notifyTopic userId], app.notifyTopic userId⟩).getD ""

def bearer (token : String) : Option String := some (bearerPrefix ++ token)

def connect (clientId token : String) : Action := .call (.connect ⟨clientId, some (.text token)⟩)

def subscribe (connection : Nat) (clientId filter : String) : Action :=
  .call (.subscribe ⟨connection, clientId⟩ ⟨filter, .atMostOnce⟩)

def relate (token peerId : String) (pubTopics subTopics : List String) : Action :=
  .call (.createRelationship (bearer token) ⟨peerId, pubTopics, subTopics⟩)

def revoke (token relationshipId : String) : Action :=
  .call (.revokeRelationship (bearer token) relationshipId)

def suspend (userId : String) : Action := .call (.suspendUser (some "admin") userId ⟨none⟩)

def publish (connection : Nat) (clientId topic : String) : Action :=
  .call (.publish ⟨connection, clientId⟩ topic)

/-- A user registers, logs in and connects. -/
def login : List Action :=
  [register 0, challenge "0", verify "0" "1" 0 2, connect "1" (token "0" "1" 100 [] [])]

end Smqtt.Deployment
