import Smqtt.Metatheory.ReportedSuccess

/-!
Expiries as numbers. `create_registration_token` and `JwtKeys::issue` add a `u64` of a
request or of the configuration to the clock, and the first casts the sum to the `i64`
its column has. Nothing checks either step: the sum of a token's expiry has to stay
below `2 ^ 64`, the expiry of a registration token below `2 ^ 63`.
-/

namespace Smqtt

open AtomicSteps

variable {A : AppState} {w v : World}

theorem asI64_lt (n : Nat) : asI64 n < 2 ^ 63 := by
  have := Int.bmod_lt (x := (n : Int)) (m := 2 ^ 64) (by decide)
  unfold asI64
  omega

/-- The cast loses nothing exactly below `2 ^ 63`. -/
theorem asI64_addU64_iff (a b : Nat) :
    asI64 (addU64 a b) = ((a + b : Nat) : Int) ↔ a + b < 2 ^ 63 := by
  constructor
  · intro sum
    have := asI64_lt (addU64 a b)
    rw [sum] at this
    exact_mod_cast this
  · intro fits
    rw [addU64_of_lt (Nat.lt_trans fits (by decide)), asI64_of_lt fits]

namespace Admin

/-- The row of a token minted in this world. -/
def mintedRow (A : AppState) (w : World) (req : CreateTokenRequest) : RegistrationToken where
  tokenId := A.outside.uuid (w.draws + 1)
  tokenHash := tokenHash A (Base64Url.encode (A.outside.randomBytes w.draws))
  createdAt := asI64 w.clock.secs
  expiresAt := asI64 (addU64 w.clock.secs req.expiresIn.toNat)
  maxUses := req.maxUses.toInt
  uses := 0

theorem createRegistrationToken_ok {key : Option String} {req : CreateTokenRequest}
    {token : String} (ok : (createRegistrationToken A key req).run (exec A) w = (.ok token, v)) :
    token = Base64Url.encode (A.outside.randomBytes w.draws) ∧ v.clock = w.clock ∧
      v.db = { w.db with
        registrationTokens := w.db.registrationTokens ++ [mintedRow A w req] } := by
  unfold createRegistrationToken requireAdminKey at ok
  split at ok
  · rw [Prog.pure_eq, Prog.done_bind, perform_bind_run .fillBytes] at ok
    obtain ⟨id, u, inserted, returned⟩ := (Prog.run_bind_ok _).mp ok
    obtain ⟨rfl, rfl⟩ := ok_inj returned
    obtain ⟨-, _, db, executed, last⟩ := sql_bind_ok
      (s := .insertRegistrationToken (mintedRow A w req))
      (f := fun _ => pure (A.outside.uuid (w.draws + 1)))
      (w := { w with draws := w.draws + 2 }) inserted
    obtain ⟨-, rfl⟩ := ok_inj last
    simp only [Statement.execute, Option.ite_none_left_eq_some, Option.some.injEq,
      Prod.mk.injEq] at executed
    obtain ⟨-, -, rfl⟩ := executed
    exact ⟨rfl, rfl, rfl⟩
  · exact (not_error_ok ok).elim

end Admin

/-- The expiry of the token minted last. -/
def World.lastExpiry (v : World) : Option Int :=
  v.db.registrationTokens.getLast?.map fun t => t.expiresAt

theorem lastExpiry_minted {key : Option String} {req : Admin.CreateTokenRequest}
    {token : String}
    (ok : (Admin.createRegistrationToken A key req).run (exec A) w = (.ok token, v)) :
    v.lastExpiry = some (asI64 (addU64 w.clock.secs req.expiresIn.toNat)) := by
  obtain ⟨-, -, db⟩ := Admin.createRegistrationToken_ok ok
  simp only [World.lastExpiry, db, List.getLast?_concat, Option.map_some, Admin.mintedRow]

/-- The token expires `expires_in` seconds after now. A shorter life would have ended no
later, and the token is good at once. -/
structure MintsExactly (A : AppState) (w v : World) (req : Admin.CreateTokenRequest)
    (token : String) : Prop where
  unwrapped : w.clock.secs + req.expiresIn.toNat < 2 ^ 64
  stored : v.lastExpiry = some ((w.clock.secs + req.expiresIn.toNat : Nat) : Int)
  monotone : ∀ key' req' token' v', req'.expiresIn ≤ req.expiresIn →
    (Admin.createRegistrationToken A key' req').run (exec A) w = (.ok token', v') →
    ∀ x y, v'.lastExpiry = some x → v.lastExpiry = some y → x ≤ y
  usable : 0 < req.expiresIn → 0 < req.maxUses → A.outside.fails v.statements = false →
    ((Db.consumeRegistrationToken (Register.tokenHash A token)).run (exec A) v).1 = .ok ()

theorem mintsExactly_iff (key : Option String) {req : Admin.CreateTokenRequest}
    {token : String}
    (ok : (Admin.createRegistrationToken A key req).run (exec A) w = (.ok token, v)) :
    MintsExactly A w v req token ↔ w.clock.secs + req.expiresIn.toNat < 2 ^ 63 := by
  have expiry := lastExpiry_minted ok
  constructor
  · intro minted
    rw [minted.stored] at expiry
    exact (asI64_addU64_iff _ _).mp (Option.some.inj expiry).symm
  · intro fits
    have sum := (asI64_addU64_iff _ _).mpr fits
    refine ⟨Nat.lt_trans fits (by decide), ?_, ?_, ?_⟩
    · rw [expiry, sum]
    · intro key' req' token' v' shorter ok' x y before after
      have le : req'.expiresIn.toNat ≤ req.expiresIn.toNat := shorter
      have fits' : w.clock.secs + req'.expiresIn.toNat < 2 ^ 63 :=
        Nat.lt_of_le_of_lt (Nat.add_le_add_left le _) fits
      rw [lastExpiry_minted ok', (asI64_addU64_iff _ _).mpr fits'] at before
      rw [expiry, sum] at after
      obtain rfl := Option.some.inj before
      obtain rfl := Option.some.inj after
      exact_mod_cast Nat.add_le_add_left le _
    · intro lives uses answered
      obtain ⟨rfl, clock, db⟩ := Admin.createRegistrationToken_ok ok
      have usable : (Admin.mintedRow A w req).usable
          (Register.tokenHash A (Base64Url.encode (A.outside.randomBytes w.draws)))
          v.clock.secs = true := by
        have positive : 0 < req.expiresIn.toNat := lives
        have allowed : 0 < req.maxUses.toInt := Int64.lt_iff_toInt_lt.mp uses
        unfold RegistrationToken.usable Admin.mintedRow
        rw [clock, sum]
        simp [positive, allowed, Register.tokenHash, Admin.tokenHash]
      rw [Db.consumeRegistrationToken_run]
      dsimp only
      rw [if_neg (by simp [answered]), if_pos]
      rw [db, List.any_append]
      simp [usable]

/-- The token carries the second of its issue and expires `ttl_seconds` later. -/
def IssuesExactly (A : AppState) (w : World) (token : String) : Prop :=
  ∃ claims, A.lib.jwtDecode A.jwtKeys.secret token = some claims ∧ claims.iat = w.clock.secs ∧
    claims.iat + A.config.jwtTtlSeconds.toNat < 2 ^ 64 ∧
    claims.exp = claims.iat + A.config.jwtTtlSeconds.toNat

theorem issuesExactly_iff {req : Auth.VerifyRequest} {token : String}
    (verified : Verified A w req token) : IssuesExactly A w token ↔
      w.clock.secs + A.config.jwtTtlSeconds.toNat < 2 ^ 64 := by
  have decodes := jwtIssue_decodes verified.issued
  constructor
  · rintro ⟨claims, decodes', iat, fits, -⟩
    rwa [iat] at fits
  · intro fits
    exact ⟨_, decodes, rfl, fits, addU64_of_lt fits⟩

/-- What a successful call has computed about expiries is exact. -/
def ExpiresExactly (A : AppState) (w v : World) (c : Call) (reply : Reply) : Prop :=
  match c, reply with
  | .createRegistrationToken _ req, .registrationToken token => MintsExactly A w v req token
  | .verify _, .token token => IssuesExactly A w token
  | _, _ => True

/-- The sum a call computes fits where it is kept. -/
def Call.Fits (A : AppState) (now : Nat) : Call → Prop
  | .createRegistrationToken _ req => now + req.expiresIn.toNat < 2 ^ 63
  | .verify _ => now + A.config.jwtTtlSeconds.toNat < 2 ^ 64
  | _ => True

/-- An accepted request gets exact expiries if and only if its sum fits. -/
theorem expiresExactly_iff_fits {c : Call} {reply : Reply}
    (ok : (handle A c).run (exec A) w = (.ok reply, v)) :
    ExpiresExactly A w v c reply ↔ c.Fits A w.clock.secs := by
  cases c with
  | createRegistrationToken key req =>
      rw [handle, reply_run] at ok
      obtain ⟨returned, rfl⟩ := Prod.mk.inj ok
      cases minted : ((Admin.createRegistrationToken A key req).run (exec A) w).1 with
      | error e =>
          rw [minted] at returned
          cases returned
      | ok token =>
          rw [minted] at returned
          obtain rfl := Except.ok.inj returned
          exact mintsExactly_iff key (Prod.ext minted rfl)
  | verify req =>
      rw [handle_verify] at ok
      obtain ⟨returned, rfl⟩ := Prod.mk.inj ok
      cases issued : ((Auth.verify A req).run (exec A) w).1 with
      | error e =>
          rw [issued] at returned
          cases returned
      | ok token =>
          rw [issued] at returned
          obtain rfl := Except.ok.inj returned
          exact issuesExactly_iff (verify_ok (Prod.ext issued rfl))
  | _ =>
      cases reply <;> exact Iff.rfl

section
open Deployment

/-- A registration token that is to live for this long. -/
def mint (expiresIn : UInt64) : Call :=
  .createRegistrationToken (some "admin") ⟨expiresIn, 1⟩

private theorem mint_facts :
    ((handle app (mint 3600)).run (exec app) (World.boot app)).1 =
      .ok (.registrationToken (Base64Url.encode (app.outside.randomBytes 0))) ∧
    ((handle app (mint 0x8000000000000000)).run (exec app) (World.boot app)).1 =
      .ok (.registrationToken (Base64Url.encode (app.outside.randomBytes 0))) ∧
    ((handle app (mint 0x8000000000000000)).run (exec app) (World.boot app)).2.lastExpiry =
      some (100 - 2 ^ 63) := by
  decide +kernel

/-- A token for an hour. -/
theorem expiresExactly_iff_fits_hour : ∃ token v,
    (handle app (mint 3600)).run (exec app) (World.boot app) =
      (.ok (.registrationToken token), v) ∧
    MintsExactly app (World.boot app) v ⟨3600, 1⟩ token := by
  have run := Prod.ext mint_facts.1 rfl
  have fits : (World.boot app).clock.secs + (3600 : UInt64).toNat < 2 ^ 63 := by decide
  exact ⟨_, _, run, (expiresExactly_iff_fits (c := mint 3600) run).mpr fits⟩

/-- A token for `2 ^ 63` seconds expires before the epoch. -/
theorem not_expiresExactly : ¬∀ (A : AppState) (w v : World) (c : Call) (reply : Reply),
    w.clock.secs < 2 ^ 62 → (handle A c).run (exec A) w = (.ok reply, v) →
    ExpiresExactly A w v c reply := by
  intro claimed
  obtain ⟨v, run, expiry⟩ : ∃ v,
      (handle app (mint 0x8000000000000000)).run (exec app) (World.boot app) =
      (.ok (.registrationToken (Base64Url.encode (app.outside.randomBytes 0))), v) ∧
      v.lastExpiry = some (100 - 2 ^ 63) :=
    ⟨_, Prod.ext mint_facts.2.1 rfl, mint_facts.2.2⟩
  have minted : MintsExactly app (World.boot app) v ⟨0x8000000000000000, 1⟩ _ :=
    claimed app (World.boot app) v (mint 0x8000000000000000) _ (by decide) run
  have stored := expiry.symm.trans minted.stored
  exact absurd (Option.some.inj stored) (by decide)

end
end Smqtt
