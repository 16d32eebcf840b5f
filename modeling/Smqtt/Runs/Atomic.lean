import Smqtt.Api.Outcomes

/-!
The server as a system, and its runs with handlers and hooks as atomic steps.

The environment moves the clock and lets the holders of keys sign; everything
else it does is a call. What is assumed of it stands in definitions of their
own: `Unforged` says that only issued tokens verify, `Unfailing` that no
statement fails. The invariants here are those every later argument starts from:
the database stays sound, the clock never goes back, no cutoff lies in the future
and every issued token goes back to a verified challenge.
-/

namespace Smqtt

open AtomicSteps

inductive Env
  | tick (seconds : Nat)
  /-- The holder of a key signs a message. -/
  | sign (pubkey message : List UInt8)
  deriving DecidableEq

/-- The clock stops before it leaves its range. -/
def Clock.advance (c : Clock) (seconds : Nat) : Clock :=
  if h : c.secs + seconds < 2 ^ 63 then
    ⟨c.secs + seconds, Nat.le_add_right_of_le c.started, h⟩
  else c

theorem Clock.le_advance (c : Clock) (seconds : Nat) : c.secs ≤ (c.advance seconds).secs := by
  unfold advance
  split
  · exact Nat.le_add_right _ _
  · exact Nat.le_refl _

def environment : Env → World → World
  | .tick seconds, w => { w with clock := w.clock.advance seconds }
  | .sign _ _, w => w

def server (A : AppState) : System signature World Call Env Error Reply where
  start := World.boot A
  exec := exec A
  handler := handle A
  environment := environment

abbrev Action := AtomicAction Call Env

abbrev Step := Entry World Action (Option (Except Error Reply))

abbrev Log := History World Action (Option (Except Error Reply))

/-- A run of the server with every call as one step. -/
abbrev AtomicRun (A : AppState)
    (allowed : Assumption World Action (Option (Except Error Reply))) (h : Log) (w : World) :
    Prop :=
  Run (server A).atomic allowed h w

/-- The token a step has issued. -/
def Step.issued (e : Step) : Option String :=
  match e.action, e.response with
  | .call (.verify _), some (.ok (.token token)) => some token
  | _, _ => none

/-- The token a call presents to the server. -/
def Call.presented : Call → Option String
  | .connect info =>
      match info.password with
      | some (.text token) => some token
      | _ => none
  | c => c.authorization.bind bearerToken

theorem Broker.Admits.presented {A : AppState} {w : World} {info : ConnectInfo} {token : String}
    {claims : Claims} (admits : Broker.Admits A w info token claims) :
    (Call.connect info).presented = some token := by
  simp only [Call.presented, admits.password]

/-- Signatures are ideal: a presented token that verifies was issued before. -/
def Unforged (A : AppState) : Assumption World Action (Option (Except Error Reply)) :=
  fun h w a =>
    match a with
    | .call c =>
        match c.presented with
        | some token =>
            (JwtKeys.verify A w.clock token).toOption = none ∨
              ∃ e ∈ h, Step.issued e = some token
        | none => True
    | .env _ => True

instance (A : AppState) (h : Log) (w : World) (a : Action) : Decidable (Unforged A h w a) := by
  unfold Unforged
  split
  · split <;> infer_instance
  · infer_instance

/-- No database statement ever fails. -/
def Unfailing (A : AppState) : Prop := ∀ n, A.outside.fails n = false

section
variable {A : AppState} {h k : Log} {w v : World} {e : Step}
  {allowed : Assumption World Action (Option (Except Error Reply))}

theorem exec_answered (unfailing : Unfailing A) {statement : Statement} {x : statement.Answer}
    {db : Database} (hs : statement.execute w.db = some (x, db)) :
    (exec A (.sql statement) w).1 = some x := by
  simp only [exec, hs]
  rw [if_neg (by simp [unfailing w.statements])]

theorem Unforged.issued {c : Call} (ok : Unforged A h w (.call c)) {token : String}
    {claims : Claims} (presented : c.presented = some token)
    (verifies : JwtKeys.verify A w.clock token = .ok claims) :
    ∃ e ∈ h, Step.issued e = some token := by
  simp only [Unforged, presented, verifies, Except.toOption] at ok
  simpa using ok

/-- Step `e` issued `token` with these claims to the user and device they name. -/
structure Issues (A : AppState) (e : Step) (token : String) (claims : Claims) : Prop where
  request : ∃ req, e.action = .call (.verify req) ∧ Verified A e.before req token ∧
    req.userId = claims.sub ∧ req.deviceId = claims.dev
  decodes : A.lib.jwtDecode A.jwtKeys.secret token = some claims
  claims : claims = JwtKeys.claims A e.before.clock claims.sub claims.dev
    (Db.topicsOf e.before.db claims.sub).1
    ((Db.topicsOf e.before.db claims.sub).2 ++ [A.notifyTopic claims.sub])
    (A.notifyTopic claims.sub)

theorem Issues.iat {token : String} {claims : Claims} (i : Issues A e token claims) :
    claims.iat = e.before.clock.secs := by
  rw [i.claims]
  rfl

theorem Issues.asI64_iat {token : String} {claims : Claims} (i : Issues A e token claims) :
    asI64 claims.iat = e.before.clock.secs := by
  rw [i.iat, Clock.asI64_secs]

theorem Issues.subTopics {token : String} {claims : Claims} (i : Issues A e token claims) :
    claims.subTopics = (Db.topicsOf e.before.db claims.sub).2 ++ [A.notifyTopic claims.sub] := by
  conv_lhs => rw [i.claims]
  rfl

theorem Issues.pubTopics {token : String} {claims : Claims} (i : Issues A e token claims) :
    claims.pubTopics = (Db.topicsOf e.before.db claims.sub).1 := by
  conv_lhs => rw [i.claims]
  rfl

theorem step_shape (run : AtomicRun A allowed h w) (he : e ∈ h) {c : Call}
    (action : e.action = .call c) :
    e.response = some ((handle A c).run (exec A) e.before).1 ∧
      e.after = ((handle A c).run (exec A) e.before).2 := by
  have hr := run.response_eq he
  have ha := run.after_eq he
  rw [action] at hr ha
  exact ⟨hr, ha⟩

theorem issued_issues (run : AtomicRun A allowed h w) (he : e ∈ h) {token : String}
    (issued : Step.issued e = some token) : ∃ claims, Issues A e token claims := by
  unfold Step.issued at issued
  split at issued
  · rename_i req t action response
    obtain rfl := Option.some.inj issued
    have shape := (step_shape run he action).1
    rw [response, handle_verify] at shape
    cases hr : ((Auth.verify A req).run (exec A) e.before).1 with
    | error err => rw [hr] at shape; cases shape
    | ok t' =>
        rw [hr] at shape
        obtain rfl : t = t' := by simpa [Except.map] using shape
        have verified : Verified A e.before req t := verify_ok (Prod.ext hr rfl)
        exact ⟨_, ⟨req, action, verified, rfl, rfl⟩, jwtIssue_decodes verified.issued, rfl⟩
  · cases issued

/-- An accepted token was issued earlier in the run, with the claims it carries. -/
theorem Unforged.issues (run : AtomicRun A allowed h w) {c : Call}
    (ok : Unforged A h w (.call c)) {token : String} {claims : Claims}
    (presented : c.presented = some token)
    (verifies : JwtKeys.verify A w.clock token = .ok claims) :
    ∃ e ∈ h, Step.issued e = some token ∧ Issues A e token claims := by
  obtain ⟨e, he, issued⟩ := ok.issued presented verifies
  obtain ⟨claims', i⟩ := issued_issues run he issued
  obtain rfl : claims' = claims :=
    Option.some.inj (i.decodes.symm.trans (jwtVerify_decodes verifies).1)
  exact ⟨e, he, issued, i⟩

theorem run_integrity (run : AtomicRun A allowed h w) : w.db.Integrity :=
  System.atomic_invariant (I := fun w => w.db.Integrity) Database.empty_integrity
    (exec_integrity A) (fun e w hw => by cases e <;> exact hw) run

theorem run_extends (first : AtomicRun A allowed h v) (run : AtomicRun A allowed (h ++ k) w) :
    v.db.Extends w.db :=
  System.atomic_monotone (R := fun v w => v.db.Extends w.db) (fun _ => .refl _)
    (fun _ _ _ => .trans) (exec_extends A)
    (fun e w => by cases e <;> exact .refl _) first run

theorem run_clock (first : AtomicRun A allowed h v) (run : AtomicRun A allowed (h ++ k) w) :
    v.clock.secs ≤ w.clock.secs :=
  System.atomic_monotone (R := fun v w => v.clock.secs ≤ w.clock.secs)
    (fun _ => Nat.le_refl _) (fun _ _ _ => Nat.le_trans)
    (fun op w => by rw [show ((server A).exec op w).2.clock = w.clock from exec_clock A op w])
    (fun e w => by
      cases e with
      | tick n => exact Clock.le_advance _ _
      | sign key m => exact Nat.le_refl _) first run

theorem before_extends (run : AtomicRun A allowed h w) (he : e ∈ h) :
    e.before.db.Extends w.db := by
  obtain ⟨h₁, h₂, rfl⟩ := List.append_of_mem he
  exact run_extends run.cut.1 run

theorem before_clock (run : AtomicRun A allowed h w) (he : e ∈ h) :
    e.before.clock.secs ≤ w.clock.secs := by
  obtain ⟨h₁, h₂, rfl⟩ := List.append_of_mem he
  exact run_clock run.cut.1 run

/-- The device a token was issued to is registered to its user from then on. -/
theorem Issues.device (run : AtomicRun A allowed h w) (he : e ∈ h) {token : String}
    {claims : Claims} (i : Issues A e token claims) :
    ∃ d ∈ w.db.devices, d.deviceId = claims.dev ∧ d.userId = claims.sub := by
  obtain ⟨req, -, verified, sub, dev⟩ := i.request
  obtain ⟨d, hd, hdev, hsub⟩ := verified.device
  exact ⟨d, (before_extends run he).devices d hd, hdev.trans dev, hsub.trans sub⟩

/-- The induction rule of these runs, with one case for the environment and one
for calls. -/
theorem run_induction {I : Log → World → Prop} (run : AtomicRun A allowed h w)
    (base : I [] (World.boot A))
    (env : ∀ h w x, AtomicRun A allowed h w → I h w → allowed h w (.env x) →
      I (h ++ [(server A).atomic.entry w (.env x)]) (environment x w))
    (call : ∀ h w c, AtomicRun A allowed h w → I h w → allowed h w (.call c) →
      I (h ++ [(server A).atomic.entry w (.call c)]) ((handle A c).run (exec A) w).2) :
    I h w := by
  refine run.invariant base ?_
  intro h w a prior hI ok
  cases a with
  | env x => exact env h w x prior hI ok
  | call c => exact call h w c prior hI ok

/-- No cutoff lies in the future. -/
theorem run_cutoff (run : AtomicRun A allowed h w) {u : String} {x : User}
    (row : w.db.user u = some x) : x.tokensValidFrom ≤ w.clock.secs := by
  revert u x
  refine run_induction (I := fun _ w => ∀ {u : String} {x : User}, w.db.user u = some x →
    x.tokensValidFrom ≤ w.clock.secs) run ?_ ?_ ?_
  · intro u x row
    cases row
  · intro h w e _ ih _ u x row
    cases e with
    | tick n => exact (ih row).trans (by exact_mod_cast Clock.le_advance _ _)
    | sign key m => exact ih row
  · intro h w c _ ih _ u x row
    rw [handle_clock]
    have change := handle_user (A := A) (w := w) c u
    rw [row] at change
    generalize hold : w.db.user u = old at change
    cases change with
    | same => exact ih hold
    | registered now => exact Int.natCast_nonneg _
    | kicked y kick => exact Int.le_refl _
    | suspended y cutoff key req hc kick written =>
        rcases written with rfl | rfl
        · exact Int.le_refl _
        · exact ih (x := y) hold
    | unsuspended y key hc done => exact ih (x := y) hold

end
end Smqtt
