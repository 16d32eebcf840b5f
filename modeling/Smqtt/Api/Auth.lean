import Smqtt.Broker.Broker

/-!
Registration, challenge-response login and the extractor that turns a bearer
token into a user id.
-/

namespace Smqtt

open AtomicSteps

def bearerPrefix : String := "Bearer "

/-- `authorization` is the header's value, absent also when it is not text. -/
def AuthUser.fromRequestParts (authorization : Option String) : Handler String := do
  let auth := authorization.getD ""
  if !(bearerPrefix.toList.isPrefixOf auth.toList) then .fail .unauthorized
  else do
    let token := String.ofList (auth.toList.drop 7)
    let verified : Except Error Claims ← Prog.perform (S := signature) (.jwtVerify token)
    let claims ← Prog.ofExcept verified
    return claims.sub

namespace Auth

def challengeTtlSecs : Nat := 60

structure ChallengeQuery where
  userId : String
  deriving DecidableEq

def challenge (q : ChallengeQuery) : Handler String := do
  let _user ← Db.getUser q.userId
  let nonce : List UInt8 ← Prog.perform (S := signature) .fillBytes
  let expiresAt := addU64 (← unixNow) challengeTtlSecs
  Prog.perform (S := signature) (.challengesInsert q.userId nonce expiresAt)
  return Base64Url.encode nonce

structure VerifyRequest where
  userId : String
  deviceId : String
  signature : String
  deriving DecidableEq

def verify (A : AppState) (req : VerifyRequest) : Handler String := do
  -- 1. pop and validate the challenge
  let entry : Option (List UInt8 × Nat) ←
    Prog.perform (S := Smqtt.signature) (.challengesRemove req.userId)
  match entry with
  | none => .fail .unauthorized
  | some (nonce, expiresAt) => do
      let now ← unixNow
      if now > expiresAt then .fail .unauthorized
      else do
        -- 2. the user must not be suspended
        let user ← Db.getUser req.userId
        if user.suspended then .fail .forbidden
        else do
          -- 3. find the device and verify the signature
          let devices ← Db.getDeviceByUser req.userId
          match devices.find? fun d => d.deviceId = req.deviceId with
          | none => .fail .unauthorized
          | some device =>
              if device.pubkey.length ≠ 32 then .fail (.internal "invalid pubkey in db")
              else if !A.lib.ed25519Point device.pubkey then
                .fail (.internal "invalid pubkey in db")
              else do
                let sigBytes ← Prog.ofExcept (b64Decode A req.signature)
                if sigBytes.length ≠ 64 then
                  .fail (.badRequest "signature must be 64 bytes")
                else if !A.lib.ed25519Verify device.pubkey nonce sigBytes then
                  .fail .unauthorized
                else do
                  -- 4. gather topic permissions and issue the token
                  let topics ← Db.userTopics req.userId
                  let notifyTopic := A.notifyTopic req.userId
                  let token : Except Error String ← Prog.perform (S := Smqtt.signature)
                    (.jwtIssue req.userId req.deviceId topics.1 (topics.2 ++ [notifyTopic])
                      notifyTopic)
                  Prog.ofExcept token

end Auth

namespace Register

structure RegisterRequest where
  pubkey : String
  registrationToken : Option String
  deriving DecidableEq

def tokenHash (A : AppState) (token : String) : List UInt8 :=
  A.lib.hmacSha256 (utf8 "smqtt-token-hash") (utf8 token)

def validateViaHook (url pubkey : String) : Handler Unit := do
  let reply : Except String (Option Bool) ←
    Prog.perform (S := signature) (.callHook url pubkey)
  match reply with
  | .error e => .fail (.internal e)
  | .ok allowed => if allowed.getD false then return () else .fail .forbidden

def checkPolicy (A : AppState) (req : RegisterRequest) : Handler Unit :=
  match A.config.registrationMode with
  | .closed => .fail .forbidden
  | .open => return ()
  | .policy =>
      match A.config.registrationPolicy with
      | none => .fail (.internal "policy mode configured but no policy")
      | some policy =>
          match policy.kind with
          | .push =>
              match req.registrationToken with
              | none => .fail (.badRequest "registration_token required")
              | some token => Db.consumeRegistrationToken (tokenHash A token)
          | .hook =>
              match policy.hookUrl with
              | none => .fail (.internal "hook_url not configured")
              | some url => validateViaHook url req.pubkey

/-- Answers with the ids of the new user and of its device. -/
def register (A : AppState) (req : RegisterRequest) : Handler (String × String) := do
  checkPolicy A req
  let pubkey ← Prog.ofExcept (b64Decode A req.pubkey)
  if pubkey.length ≠ 32 then .fail (.badRequest "pubkey must be 32 bytes (Ed25519)")
  else if !A.lib.ed25519Point pubkey then .fail (.badRequest "invalid Ed25519 public key")
  else do
    let user ← Db.createUser
    let device ← Db.createDevice user.userId pubkey
    return (user.userId, device.deviceId)

end Register

variable {A : AppState} {w w' : World}

/-- The token in an authorization header. -/
def bearerToken (authorization : Option String) : Option String :=
  let auth := authorization.getD ""
  if bearerPrefix.toList.isPrefixOf auth.toList then some (String.ofList (auth.toList.drop 7))
  else none

theorem bearerToken_bearer (token : String) :
    bearerToken (some (bearerPrefix ++ token)) = some token := by
  have seven : bearerPrefix.toList.length = 7 := by decide
  simp [bearerToken, ← seven]

/-- The user a request authenticates as: its bearer token verifies at this time. -/
def authUser (A : AppState) (now : Clock) (authorization : Option String) : Option String :=
  match bearerToken authorization with
  | some token =>
      match JwtKeys.verify A now token with
      | .ok claims => some claims.sub
      | .error _ => none
  | none => none

theorem authUser_some {now : Clock} {authorization : Option String} {u : String}
    (h : authUser A now authorization = some u) : ∃ token claims,
      bearerToken authorization = some token ∧ JwtKeys.verify A now token = .ok claims ∧
        claims.sub = u := by
  unfold authUser at h
  split at h
  · rename_i token hb
    split at h
    · rename_i claims hv
      exact ⟨token, claims, hb, hv, Option.some.inj h⟩
    · cases h
  · cases h

/-- The claims a token was issued for. -/
theorem jwtIssue_decodes {now : Clock} {u d n : String} {ps ss : List String} {token : String}
    (h : JwtKeys.issue A now u d ps ss n = .ok token) :
    A.lib.jwtDecode A.jwtKeys.secret token = some (JwtKeys.claims A now u d ps ss n) := by
  unfold JwtKeys.issue at h
  split at h
  · rename_i t ht
    obtain rfl := Except.ok.inj h
    exact A.lib.jwtDecode_jwtEncode _ _ _ ht
  · cases h

theorem jwtVerify_decodes {now : Clock} {token : String} {claims : Claims}
    (h : JwtKeys.verify A now token = .ok claims) :
    A.lib.jwtDecode A.jwtKeys.secret token = some claims ∧
      now.secs ≤ claims.exp + jwtLeeway := by
  unfold JwtKeys.verify at h
  split at h
  · rename_i c hc
    split at h
    · rename_i unexpired
      obtain rfl := Except.ok.inj h
      exact ⟨hc, Nat.sub_le_iff_le_add.mp unexpired⟩
    · cases h
  · cases h

theorem jwtVerify_ok {now : Clock} {token : String} {claims : Claims}
    (decodes : A.lib.jwtDecode A.jwtKeys.secret token = some claims)
    (unexpired : now.secs ≤ claims.exp + jwtLeeway) :
    JwtKeys.verify A now token = .ok claims := by
  unfold JwtKeys.verify
  rw [decodes]
  exact if_pos (Nat.sub_le_iff_le_add.mpr unexpired)

theorem jwtVerify_error {now : Clock} {token : String} {e : Error}
    (h : JwtKeys.verify A now token = .error e) : e = .unauthorized := by
  unfold JwtKeys.verify at h
  split at h
  · split at h
    · cases h
    · exact (Except.error.inj h).symm
  · exact (Except.error.inj h).symm

theorem fromRequestParts_run (authorization : Option String) :
    (AuthUser.fromRequestParts authorization).run (exec A) w =
      (match authUser A w.clock authorization with
        | some u => .ok u
        | none => .error .unauthorized, w) := by
  unfold AuthUser.fromRequestParts authUser bearerToken
  dsimp only
  cases bearerPrefix.toList.isPrefixOf (authorization.getD "").toList with
  | false => rfl
  | true =>
      change ((Prog.ofExcept (JwtKeys.verify A w.clock _) >>=
        fun claims => pure claims.sub : Handler String).run (exec A) w) = _
      simp only [if_true]
      cases hv : JwtKeys.verify A w.clock
          (String.ofList ((authorization.getD "").toList.drop 7)) with
      | ok claims => rfl
      | error e => rw [jwtVerify_error hv]; rfl

/-- What holds when `verify` answers with a token: every check has passed in the
state before the call, and the token carries the topics of that state. -/
structure Verified (A : AppState) (w : World) (req : Auth.VerifyRequest) (token : String) :
    Prop where
  challenge : ∃ nonce expiresAt, w.challenges req.userId = some (nonce, expiresAt) ∧
    w.clock.secs ≤ expiresAt
  user : ∃ user, w.db.user req.userId = some user ∧ user.suspended = false
  device : ∃ device ∈ w.db.devices,
    device.deviceId = req.deviceId ∧ device.userId = req.userId
  issued : JwtKeys.issue A w.clock req.userId req.deviceId (Db.topicsOf w.db req.userId).1
    ((Db.topicsOf w.db req.userId).2 ++ [A.notifyTopic req.userId])
    (A.notifyTopic req.userId) = .ok token

theorem verify_ok {req : Auth.VerifyRequest} {token : String}
    (h : (Auth.verify A req).run (exec A) w = (.ok token, w')) : Verified A w req token := by
  unfold Auth.verify at h
  rw [perform_bind_run (.challengesRemove req.userId)] at h
  dsimp only [exec] at h
  split at h
  · exact (not_error_ok h).elim
  · rename_i nonce expiresAt hc
    obtain ⟨now, v, hnow, h⟩ := (Prog.run_bind_ok _).mp h
    rw [unixNow_run] at hnow
    obtain ⟨rfl, rfl⟩ := ok_inj hnow
    split at h
    · exact (not_error_ok h).elim
    · rename_i hexp
      obtain ⟨user, v, hu, h⟩ := (Prog.run_bind_ok _).mp h
      obtain ⟨hfind, rfl⟩ := Db.getUser_ok hu
      split at h
      · exact (not_error_ok h).elim
      · rename_i hsus
        obtain ⟨devices, v, hd, h⟩ := (Prog.run_bind_ok _).mp h
        obtain ⟨rfl, rfl⟩ := Db.getDeviceByUser_ok hd
        split at h
        · exact (not_error_ok h).elim
        · rename_i device hdev
          split at h
          · exact (not_error_ok h).elim
          · split at h
            · exact (not_error_ok h).elim
            · obtain ⟨sig, v, hsig, h⟩ := (Prog.run_bind_ok _).mp h
              rw [ofExcept_run] at hsig
              obtain ⟨-, rfl⟩ := Prod.mk.inj hsig
              split at h
              · exact (not_error_ok h).elim
              · split at h
                · exact (not_error_ok h).elim
                · obtain ⟨topics, v, ht, h⟩ := (Prog.run_bind_ok _).mp h
                  obtain ⟨rfl, rfl⟩ := Db.userTopics_ok ht
                  rw [perform_bind_run (.jwtIssue _ _ _ _ _), ofExcept_run] at h
                  have owner := List.mem_filter.mp (List.mem_of_find?_eq_some hdev)
                  exact {
                    challenge := ⟨nonce, expiresAt, hc, Nat.le_of_not_lt hexp⟩
                    user := ⟨user, hfind, by simpa using hsus⟩
                    device := ⟨device, owner.1, by simpa using List.find?_some hdev,
                      by simpa using owner.2⟩
                    issued := (Prod.mk.inj h).1 }

end Smqtt
