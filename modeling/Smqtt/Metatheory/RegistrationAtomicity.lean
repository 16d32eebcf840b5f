import Smqtt.Api.RegistrationEvents
import Smqtt.Runs.Deployment

/-!
What an error of `register` leaves behind. Its writes come one after the other and
none is taken back: the use of the registration token, the user, the device. So an
error after the first one leaves a trace, and exactly these errors do.
-/

namespace Smqtt

open AtomicSteps

variable {A : AppState} {w : World} {req : Register.RegisterRequest}

namespace Register

/-- The number of the first statement after the policy. -/
def firstStatement (A : AppState) (w : World) : Nat :=
  w.statements + if gate A = some .push then 1 else 0

/-- The number of the first draw after the policy. -/
def firstDraw (A : AppState) (w : World) : Nat :=
  w.draws + if gate A = some .hook then 1 else 0

/-- A registration token is asked for, and the one presented can be used. -/
def UsesToken (A : AppState) (w : World) (req : RegisterRequest) : Prop :=
  gate A = some .push ∧ ∃ token, req.registrationToken = some token ∧
    A.outside.fails w.statements = false ∧
    (w.db.registrationTokens.any
      (RegistrationToken.usable (tokenHash A token) w.clock.secs)) = true

/-- The hook is asked, and it allows the key. -/
def HookAllows (A : AppState) (w : World) (req : RegisterRequest) : Prop :=
  gate A = some .hook ∧ ∃ policy url, A.config.registrationPolicy = some policy ∧
    policy.hookUrl = some url ∧ A.outside.hookReply w.draws url req.pubkey = .ok (some true)

def Passes (A : AppState) (w : World) (req : RegisterRequest) : Prop :=
  A.config.registrationMode = .open ∨ UsesToken A w req ∨ HookAllows A w req

def ValidKey (A : AppState) (req : RegisterRequest) (key : List UInt8) : Prop :=
  b64Decode A req.pubkey = .ok key ∧ key.length = 32 ∧ A.lib.ed25519Point key = true

/-- The statement that inserts the user is executed. -/
def StoresUser (A : AppState) (w : World) : Prop :=
  A.outside.fails (firstStatement A w) = false ∧
    w.db.hasUser (A.outside.uuid (firstDraw A w)) = false

/-- The statement that inserts the device is executed. -/
def StoresDevice (A : AppState) (w : World) : Prop :=
  A.outside.fails (firstStatement A w + 1) = false ∧
    (w.db.devices.any fun d => d.deviceId = A.outside.uuid (firstDraw A w + 1)) = false

/-- The database once the policy has passed the request. -/
def spent (A : AppState) (w : World) (req : RegisterRequest) : Database :=
  match gate A, req.registrationToken with
  | some .push, some token =>
      w.db.updateTokens (RegistrationToken.usable (tokenHash A token) w.clock.secs) fun t =>
        { t with uses := t.uses + 1 }
  | _, _ => w.db

def newUser (A : AppState) (w : World) : User :=
  ⟨A.outside.uuid (firstDraw A w), w.clock.secs, false, none, 0⟩

def newDevice (A : AppState) (w : World) (key : List UInt8) : Device :=
  ⟨A.outside.uuid (firstDraw A w + 1), (newUser A w).userId, key, w.clock.secs⟩

/-- The world once the policy has passed the request. -/
def passed (A : AppState) (w : World) (req : RegisterRequest) : World :=
  { w with
    db := spent A w req
    statements := firstStatement A w
    draws := firstDraw A w }

theorem push_cases (isPush : gate A = some .push) {token : String}
    (given : req.registrationToken = some token) :
    (UsesToken A w req ∧ (Db.consumeRegistrationToken (tokenHash A token)).run (exec A) w =
      (.ok (), passed A w req)) ∨
    (¬UsesToken A w req ∧ ∃ e v,
      (Db.consumeRegistrationToken (tokenHash A token)).run (exec A) w = (.error e, v) ∧
      v.db = w.db) := by
  have uses : UsesToken A w req ↔ A.outside.fails w.statements = false ∧
      (w.db.registrationTokens.any
        (RegistrationToken.usable (tokenHash A token) w.clock.secs)) = true := by
    simp [UsesToken, isPush, given]
  rw [uses, Db.consumeRegistrationToken_run]
  dsimp only
  cases failed : A.outside.fails w.statements with
  | true => exact Or.inr ⟨by simp, _, _, rfl, rfl⟩
  | false =>
      simp only [Bool.false_eq_true, if_false, true_and]
      split
      · rename_i usable
        refine Or.inl ⟨usable, ?_⟩
        simp [passed, spent, firstStatement, firstDraw, isPush, given, World.counted]
      · rename_i unusable
        exact Or.inr ⟨unusable, _, _, rfl, rfl⟩

theorem hook_cases (isHook : gate A = some .hook) {policy : RegistrationPolicy}
    (set : A.config.registrationPolicy = some policy) {url : String}
    (known : policy.hookUrl = some url) :
    (HookAllows A w req ∧ (validateViaHook url req.pubkey).run (exec A) w =
      (.ok (), passed A w req)) ∨
    (¬HookAllows A w req ∧ ∃ e v,
      (validateViaHook url req.pubkey).run (exec A) w = (.error e, v) ∧ v.db = w.db) := by
  have allows : HookAllows A w req ↔
      A.outside.hookReply w.draws url req.pubkey = .ok (some true) := by
    simp [HookAllows, isHook, set, known]
  rw [allows]
  unfold validateViaHook
  rw [perform_bind_run (.callHook url req.pubkey)]
  dsimp only [exec]
  cases A.outside.hookReply w.draws url req.pubkey with
  | error e => exact Or.inr ⟨nofun, _, _, rfl, rfl⟩
  | ok allowed =>
      rcases allowed with _ | _ | _
      · exact Or.inr ⟨nofun, _, _, rfl, rfl⟩
      · exact Or.inr ⟨by simp, _, _, rfl, rfl⟩
      · refine Or.inl ⟨rfl, ?_⟩
        simp [passed, spent, firstStatement, firstDraw, isHook]

theorem checkPolicy_cases (req : RegisterRequest) :
    (Passes A w req ∧ (checkPolicy A req).run (exec A) w = (.ok (), passed A w req)) ∨
    (¬Passes A w req ∧ ∃ e v, (checkPolicy A req).run (exec A) w = (.error e, v) ∧
      v.db = w.db) := by
  unfold checkPolicy
  cases mode : A.config.registrationMode with
  | closed =>
      refine Or.inr ⟨?_, _, _, rfl, rfl⟩
      simp [Passes, UsesToken, HookAllows, gate, mode]
  | «open» =>
      refine Or.inl ⟨Or.inl mode, ?_⟩
      simp [passed, spent, firstStatement, firstDraw, gate, mode]
  | policy =>
      cases set : A.config.registrationPolicy with
      | none =>
          refine Or.inr ⟨?_, _, _, rfl, rfl⟩
          simp [Passes, UsesToken, HookAllows, gate, mode, set]
      | some policy =>
          cases kind : policy.kind with
          | push =>
              have isPush : gate A = some .push := by simp [gate, mode, set, kind]
              have passes : Passes A w req ↔ UsesToken A w req := by
                simp [Passes, HookAllows, isPush, mode]
              simp only [passes, kind]
              cases given : req.registrationToken with
              | none =>
                  refine Or.inr ⟨?_, _, _, rfl, rfl⟩
                  simp [UsesToken, given]
              | some token => exact push_cases isPush given
          | hook =>
              have isHook : gate A = some .hook := by simp [gate, mode, set, kind]
              have passes : Passes A w req ↔ HookAllows A w req := by
                simp [Passes, UsesToken, isHook, mode]
              simp only [passes, kind]
              cases known : policy.hookUrl with
              | none =>
                  refine Or.inr ⟨?_, _, _, rfl, rfl⟩
                  simp [HookAllows, set, known]
              | some url => exact hook_cases isHook set known

/-- A token that passes has one use more. -/
theorem spent_ne (uses : UsesToken A w req) : spent A w req ≠ w.db := by
  obtain ⟨isPush, token, given, -, usable⟩ := uses
  obtain ⟨t, mem, hit⟩ := List.any_eq_true.mp usable
  simp only [spent, isPush, given]
  intro same
  have rows : updateWhere _ _ w.db.registrationTokens = w.db.registrationTokens :=
    congrArg Database.registrationTokens same
  conv_rhs at rows => rw [← List.map_id w.db.registrationTokens]
  have uses := congrArg RegistrationToken.uses (List.map_inj_left.mp rows t mem)
  simp only [hit, if_true, id] at uses
  omega

theorem spent_eq (passes : Passes A w req) (unused : ¬UsesToken A w req) :
    spent A w req = w.db := by
  unfold spent
  split
  · rename_i isPush given
    rcases passes with mode | uses | ⟨isHook, -⟩
    · simp [gate, mode] at isPush
    · exact absurd uses unused
    · rw [isPush] at isHook
      cases isHook
  · rfl

@[simp] theorem spent_users : (spent A w req).users = w.db.users := by
  unfold spent
  split <;> rfl

@[simp] theorem spent_devices : (spent A w req).devices = w.db.devices := by
  unfold spent
  split <;> rfl

/-- The world once the user is stored as well. -/
def userStored (A : AppState) (w : World) (req : RegisterRequest) : World :=
  { passed A w req with
    db := { spent A w req with users := w.db.users ++ [newUser A w] }
    statements := firstStatement A w + 1
    draws := firstDraw A w + 1 }

/-- The records of a new account. -/
def store (key : List UInt8) : Handler (String × String) := do
  let user ← Db.createUser
  let device ← Db.createDevice user.userId key
  return (user.userId, device.deviceId)

theorem store_cases (key : List UInt8) :
    (¬StoresUser A w ∧ ∃ e v, (store key).run (exec A) (passed A w req) = (.error e, v) ∧
      v.db = spent A w req) ∨
    (StoresUser A w ∧ ¬StoresDevice A w ∧ ∃ e v,
      (store key).run (exec A) (passed A w req) = (.error e, v) ∧
      v.db = { spent A w req with users := w.db.users ++ [newUser A w] }) ∨
    (StoresUser A w ∧ StoresDevice A w ∧ ∃ v, (store key).run (exec A) (passed A w req) =
        (.ok ((newUser A w).userId, (newDevice A w key).deviceId), v) ∧
      v.db = { spent A w req with
        users := w.db.users ++ [newUser A w]
        devices := w.db.devices ++ [newDevice A w key] }) := by
  have users : (passed A w req).db.users = w.db.users := spent_users
  have devices : (passed A w req).db.devices = w.db.devices := spent_devices
  unfold store
  rw [Prog.run_bind]
  rcases Db.createUser_cases (A := A) (w := passed A w req) with
    ⟨executed, fresh, run⟩ | ⟨lost, run⟩
  · have user : StoresUser A w := ⟨executed, by rwa [Database.hasUser, users] at fresh⟩
    have stored : Db.createUser.run (exec A) (passed A w req) =
        (.ok (newUser A w), userStored A w req) := by
      rw [run, users]
      rfl
    rw [stored]
    dsimp only
    rw [Prog.run_bind]
    rcases Db.createDevice_cases (A := A) (w := userStored A w req) (u := (newUser A w).userId)
        (by simp [userStored, Database.hasUser]) key with
      ⟨executed', fresh', run'⟩ | ⟨lost', run'⟩
    · refine Or.inr (Or.inr ⟨user, ⟨executed', ?_⟩, ?_⟩)
      · rw [← devices]
        exact fresh'
      · rw [run', ← devices]
        exact ⟨_, rfl, rfl⟩
    · refine Or.inr (Or.inl ⟨user, fun device => lost' ⟨device.1, ?_⟩, ?_⟩)
      · rw [StoresDevice, ← devices] at device
        exact device.2
      · rw [run']
        exact ⟨_, _, rfl, rfl⟩
  · rw [run]
    refine Or.inl ⟨fun user => lost ⟨user.1, ?_⟩, _, _, rfl, rfl⟩
    rw [Database.hasUser, users]
    exact user.2

/-- The writes of a request, each with what makes it the last one. -/
theorem register_cases (req : RegisterRequest) :
    (¬Passes A w req ∧ ∃ e v, (register A req).run (exec A) w = (.error e, v) ∧ v.db = w.db) ∨
    (Passes A w req ∧ (∀ key, ¬ValidKey A req key) ∧ ∃ e,
      (register A req).run (exec A) w = (.error e, passed A w req)) ∨
    Passes A w req ∧ ∃ key, ValidKey A req key ∧
      ((¬StoresUser A w ∧ ∃ e v, (register A req).run (exec A) w = (.error e, v) ∧
        v.db = spent A w req) ∨
      (StoresUser A w ∧ ¬StoresDevice A w ∧ ∃ e v,
        (register A req).run (exec A) w = (.error e, v) ∧
        v.db = { spent A w req with users := w.db.users ++ [newUser A w] }) ∨
      (StoresUser A w ∧ StoresDevice A w ∧ ∃ v, (register A req).run (exec A) w =
          (.ok ((newUser A w).userId, (newDevice A w key).deviceId), v) ∧
        v.db = { spent A w req with
          users := w.db.users ++ [newUser A w]
          devices := w.db.devices ++ [newDevice A w key] })) := by
  unfold register
  rw [Prog.run_bind]
  rcases checkPolicy_cases (A := A) (w := w) req with
    ⟨passes, run⟩ | ⟨refused, e, v, run, same⟩
  · refine Or.inr ?_
    rw [run]
    dsimp only
    rw [Prog.run_bind, ofExcept_run]
    cases decoded : b64Decode A req.pubkey with
    | error e => exact Or.inl ⟨passes, by simp [ValidKey, decoded], e, rfl⟩
    | ok key =>
        dsimp only
        by_cases short : key.length ≠ 32
        · rw [if_pos short]
          exact Or.inl ⟨passes, by simpa [ValidKey, decoded] using fun h => absurd h short, _, rfl⟩
        · rw [if_neg short]
          cases point : A.lib.ed25519Point key with
          | false => exact Or.inl ⟨passes, by simp [ValidKey, decoded, point], _, rfl⟩
          | true =>
              exact Or.inr ⟨passes, key, ⟨decoded, not_not.mp short, point⟩, store_cases key⟩
  · rw [run]
    exact Or.inl ⟨refused, e, v, rfl, same⟩

/-- One new user and one new device of it with the submitted key, and nothing else
but the use of the registration token. -/
structure Added (A : AppState) (w : World) (req : RegisterRequest) (ids : String × String)
    (db : Database) : Prop where
  account : ∃ user device key, ValidKey A req key ∧
    user.userId = ids.1 ∧ device.deviceId = ids.2 ∧ device.userId = ids.1 ∧ device.pubkey = key ∧
    db.users = w.db.users ++ [user] ∧ db.devices = w.db.devices ++ [device]
  newUser : w.db.hasUser ids.1 = false
  newDevice : (w.db.devices.any fun d => d.deviceId = ids.2) = false
  relationships : db.relationships = w.db.relationships
  exchanges : db.pendingExchanges = w.db.pendingExchanges

/-- An error leaves the database as it was, and success has added the account. -/
def Atomic (A : AppState) (w : World) (req : RegisterRequest) : Prop :=
  match (register A req).run (exec A) w with
  | (.error _, v) => v.db = w.db
  | (.ok ids, v) => Added A w req ids v.db

/-- Nothing goes wrong once something is written: a used registration token comes
with a valid key and is followed by the user, and the user by its device. -/
def Untorn (A : AppState) (w : World) (req : RegisterRequest) : Prop :=
  (UsesToken A w req → (∃ key, ValidKey A req key) ∧ StoresUser A w) ∧
  (Passes A w req → (∃ key, ValidKey A req key) → StoresUser A w → StoresDevice A w)

theorem added_stored {key : List UInt8} (valid : ValidKey A req key) (user : StoresUser A w)
    (device : StoresDevice A w) : Added A w req ((newUser A w).userId, (newDevice A w key).deviceId)
      { spent A w req with
        users := w.db.users ++ [newUser A w]
        devices := w.db.devices ++ [newDevice A w key] } where
  account := ⟨newUser A w, newDevice A w key, key, valid, rfl, rfl, rfl, rfl, rfl, rfl⟩
  newUser := user.2
  newDevice := device.2
  relationships := by
    dsimp only
    unfold spent
    split <;> rfl
  exchanges := by
    dsimp only
    unfold spent
    split <;> rfl

/-- `register` is atomic exactly when its writes are not torn apart. -/
theorem atomic_iff_untorn (A : AppState) (w : World) (req : RegisterRequest) :
    Atomic A w req ↔ Untorn A w req := by
  unfold Atomic
  rcases register_cases (A := A) (w := w) req with
    ⟨refused, e, v, run, same⟩ | ⟨passes, invalid, e, run⟩ | ⟨passes, key, valid, rest⟩
  · rw [run]
    refine ⟨fun _ => ⟨fun uses => ?_, fun passes => absurd passes refused⟩, fun _ => same⟩
    exact absurd (Or.inr (Or.inl uses)) refused
  · rw [run]
    constructor
    · intro same
      exact ⟨fun uses => absurd same (spent_ne uses),
        fun _ ⟨key, valid⟩ => absurd valid (invalid key)⟩
    · intro untorn
      exact spent_eq passes fun uses => invalid _ (untorn.1 uses).1.choose_spec
  · rcases rest with
      ⟨lost, e, v, run, db⟩ | ⟨user, lost, e, v, run, db⟩ | ⟨user, device, v, run, db⟩
    · rw [run]
      dsimp only
      rw [db]
      constructor
      · intro same
        exact ⟨fun uses => absurd same (spent_ne uses), fun _ _ user => absurd user lost⟩
      · intro untorn
        exact spent_eq passes fun uses => lost (untorn.1 uses).2
    · rw [run]
      constructor
      · intro same
        have longer := congrArg (fun db => db.users.length) (db.symm.trans same)
        simp at longer
      · intro untorn
        exact absurd (untorn.2 passes ⟨key, valid⟩ user) lost
    · rw [run]
      dsimp only
      rw [db]
      exact ⟨fun _ => ⟨fun _ => ⟨⟨key, valid⟩, user⟩, fun _ _ _ => device⟩,
        fun _ => added_stored valid user device⟩

/-- An error that has changed the number of uses of a token is not atomic. -/
theorem torn_of_uses {e : Error} (refused : ((register A req).run (exec A) w).1 = .error e)
    (changed : ((register A req).run (exec A) w).2.db.registrationTokens.map
        RegistrationToken.uses ≠ w.db.registrationTokens.map RegistrationToken.uses) :
    ¬Atomic A w req := by
  intro kept
  unfold Atomic at kept
  split at kept
  · rename_i e v run
    rw [run] at changed
    exact changed (by rw [kept])
  · rename_i ids v run
    rw [run] at refused
    cases refused

section
open Deployment

/-- The sample deployment with registration tokens. -/
def tokenGated : AppState :=
  { app with config := { config with
      registrationMode := .policy, registrationPolicy := some ⟨.push, none⟩ } }

/-- The admin has minted one token, for one use. -/
def minted : World :=
  ((server tokenGated).atomic.perform (.call (.createRegistrationToken (some "admin") {}))
    (World.boot tokenGated)).2

/-- The token comes with a key of no bytes. -/
def keyless : RegisterRequest := ⟨"", some (Base64Url.encode (outside.randomBytes 0))⟩

private theorem keyless_facts :
    ((register tokenGated keyless).run (exec tokenGated) minted).1 =
      .error (.badRequest "pubkey must be 32 bytes (Ed25519)") ∧
    ((register tokenGated keyless).run (exec tokenGated) minted).2.db.registrationTokens.map
      RegistrationToken.uses ≠ minted.db.registrationTokens.map RegistrationToken.uses := by
  decide +kernel

/-- The bad request has used the token up. -/
theorem not_atomic : ¬∀ (A : AppState) (w : World) (req : RegisterRequest), Atomic A w req := by
  simp only [not_forall]
  exact ⟨tokenGated, minted, keyless, torn_of_uses keyless_facts.1 keyless_facts.2⟩

end

end Register
end Smqtt
