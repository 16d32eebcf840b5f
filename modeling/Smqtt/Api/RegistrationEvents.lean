import Smqtt.Api.Events

/-!
What the handlers around registration tokens have seen: behind a minted token its
draw and the clock, behind its use the clock, behind a new user the use of a token.
-/

namespace Smqtt

open AtomicSteps

variable {A : AppState} {P : List (Event signature) → Event signature → Prop}
  {seen : List (Event signature)}

theorem newUuid_sat {Q : List (Event signature) → Except Error String → Prop}
    (permitted : ∀ x, P seen ⟨.newUuid, x⟩)
    (answered : ∀ uuid, Q (seen ++ [⟨.newUuid, uuid⟩]) (.ok uuid)) :
    Prog.Sat P Q seen newUuid :=
  fun uuid => ⟨permitted uuid, answered uuid⟩

/-- What `create_registration_token` has drawn and read before it inserts. -/
structure Minting where
  raw : List UInt8
  tokenId : String
  now : Nat
  later : Nat

namespace Minting

variable (x : Minting)

def token : String := Base64Url.encode x.raw

def events : List (Event signature) :=
  [⟨.fillBytes, x.raw⟩, ⟨.newUuid, x.tokenId⟩, ⟨.unixNow, x.now⟩, ⟨.unixNow, x.later⟩]

def row (A : AppState) (req : Admin.CreateTokenRequest) : RegistrationToken :=
  ⟨x.tokenId, Admin.tokenHash A x.token, asI64 x.now, asI64 (addU64 x.later req.expiresIn.toNat),
    req.maxUses.toInt, 0⟩

end Minting

theorem createRegistrationToken_sat (key : Option String) (req : Admin.CreateTokenRequest) :
    Prog.Sat (fun (seen : List (Event signature)) ev => ev.op.kind = .insertRegistrationToken →
      key.getD "" = A.config.adminApiKey ∧ ∃ x : Minting, seen = x.events ∧
        ev.op = .sql (.insertRegistrationToken (x.row A req)))
    (fun seen r => ∀ token, r = .ok token → ∃ x : Minting, token = x.token ∧
      seen = x.events ++ [⟨.sql (.insertRegistrationToken (x.row A req)), some ()⟩])
    [] (Admin.createRegistrationToken A key req) := by
  unfold Admin.createRegistrationToken Admin.requireAdminKey
  split
  · rename_i admin
    refine .bind ((Prog.sat_done _).mpr ?_)
    refine .bind (perform_sat .fillBytes fun raw => ⟨nofun, ?_⟩)
    refine .bind (.bind (newUuid_sat (fun _ => nofun) fun tokenId => ?_))
    refine .bind (unixNow_sat (fun _ => nofun) fun now => ?_)
    refine .bind (unixNow_sat (fun _ => nofun) fun later => ?_)
    refine .bind (sql_sat (s := .insertRegistrationToken _) (fun _ _ => ?_) (fun x => ?_) nofun)
    · exact ⟨admin, ⟨raw, tokenId, now, later⟩, rfl, rfl⟩
    · rintro token ⟨⟩
      exact ⟨⟨raw, tokenId, now, later⟩, rfl, rfl⟩
  · exact nofun

namespace Register

/-- The kind of the policy a request has to pass, if there is one. -/
def gate (A : AppState) : Option PolicyKind :=
  match A.config.registrationMode with
  | .policy => A.config.registrationPolicy.map fun p => p.kind
  | _ => none

/-- The look at the clock and the use of a token. -/
def gateEvents (A : AppState) (token : String) (time : Nat) (rows : Option Nat) :
    List (Event signature) :=
  [⟨.unixNow, time⟩, ⟨.sql (.consumeRegistrationToken (tokenHash A token) (asI64 time)), rows⟩]

theorem checkPolicy_sat (isPush : gate A = some .push) (req : RegisterRequest)
    {Q : List (Event signature) → Except Error Unit → Prop}
    (permitted : ∀ token time rows, req.registrationToken = some token →
      P seen ⟨.unixNow, time⟩ ∧ P (seen ++ [⟨.unixNow, time⟩])
        ⟨.sql (.consumeRegistrationToken (tokenHash A token) (asI64 time)), rows⟩)
    (passed : ∀ token time rows, req.registrationToken = some token → rows ≠ 0 →
      Q (seen ++ gateEvents A token time (some rows)) (.ok ()))
    (refused : ∀ s e, Q s (.error e)) :
    Prog.Sat P Q seen (checkPolicy A req) := by
  unfold gate at isPush
  split at isPush
  · rename_i mode
    obtain ⟨policy, configured, kind⟩ := Option.map_eq_some_iff.mp isPush
    unfold checkPolicy
    rw [mode, configured]
    dsimp only
    rw [kind]
    dsimp only
    cases presented : req.registrationToken with
    | none => exact refused _ _
    | some token =>
        refine .bind (unixNow_sat (fun time => (permitted token time none presented).1)
          fun time => ?_)
        refine .bind (sql_sat (s := .consumeRegistrationToken _ _)
          (fun rows => (permitted token time rows presented).2) (fun rows => ?_) (refused _ _))
        dsimp only
        split
        · exact refused _ _
        · rename_i some
          rw [List.append_assoc]
          exact passed token time rows presented some
  · cases isPush

theorem register_sat (isPush : gate A = some .push) (req : RegisterRequest) : Prog.Sat
    (fun (seen : List (Event signature)) ev =>
      (ev.op.kind = .consumeRegistrationToken → ∃ token time,
        req.registrationToken = some token ∧ seen = [⟨.unixNow, time⟩] ∧
          ev.op = .sql (.consumeRegistrationToken (tokenHash A token) (asI64 time))) ∧
      (ev.op.kind = .insertUser → ∃ token time rows userId now,
        req.registrationToken = some token ∧ rows ≠ 0 ∧
          seen = gateEvents A token time (some rows) ++ [⟨.newUuid, userId⟩, ⟨.unixNow, now⟩]))
    (fun _ _ => True) [] (register A req) := by
  unfold register
  refine .bind (checkPolicy_sat isPush req ?_ ?_ fun _ _ => trivial)
  · intro token time rows presented
    exact ⟨⟨nofun, nofun⟩, fun _ => ⟨token, time, presented, rfl, rfl⟩, nofun⟩
  · intro token time rows presented some
    refine .bind (.ofExcept ?_)
    split
    · dsimp only
      split
      · trivial
      · split
        · trivial
        · refine .bind (.bind (newUuid_sat (fun _ => ⟨nofun, nofun⟩) fun userId => ?_))
          refine .bind (unixNow_sat (fun _ => ⟨nofun, nofun⟩) fun now => ?_)
          refine .bind (sql_sat (s := .insertUser _) (fun _ => ⟨nofun, fun _ => ?_⟩)
            (fun _ => ?_) trivial)
          · exact ⟨token, time, rows, userId, now, presented, some, by simp⟩
          · refine .bind (.bind (newUuid_sat (fun _ => ⟨nofun, nofun⟩) fun _ => ?_))
            refine .bind (unixNow_sat (fun _ => ⟨nofun, nofun⟩) fun _ => ?_)
            exact .bind (sql_sat (s := .insertDevice _) (fun _ => ⟨nofun, nofun⟩)
              (fun _ => trivial) trivial)
    · trivial

end Register

theorem handle_mint_sat (c : Call) : Prog.Sat
    (fun (seen : List (Event signature)) ev => ev.op.kind = .insertRegistrationToken →
      ∃ key req, c = .createRegistrationToken key req ∧ key.getD "" = A.config.adminApiKey ∧
        ∃ x : Minting, seen = x.events ∧ ev.op = .sql (.insertRegistrationToken (x.row A req)))
    (fun seen r => ∀ token, r = .ok (.registrationToken token) →
      ∀ key req, c = .createRegistrationToken key req → ∃ x : Minting, token = x.token ∧
        seen = x.events ++ [⟨.sql (.insertRegistrationToken (x.row A req)), some ()⟩])
    [] (handle A c) := by
  cases c
  case createRegistrationToken key req =>
    refine reply_sat ((createRegistrationToken_sat key req).mono (fun s ev h k =>
      ⟨key, req, rfl, h k⟩) fun s r h => ?_)
    rintro token returned key' req' ⟨⟩
    cases r with
    | error e => cases returned
    | ok token' =>
        obtain rfl := Reply.registrationToken.inj (Except.ok.inj returned)
        exact h token' rfl
  all_goals
    exact (spared_sat .insertRegistrationToken (by decide) rfl).mono (fun _ _ h => h)
      fun _ _ _ => nofun

theorem handle_consume_sat (isPush : Register.gate A = some .push) (c : Call) : Prog.Sat
    (fun (seen : List (Event signature)) ev => ev.op.kind = .consumeRegistrationToken →
      ∃ pubkey token time, c = .register ⟨pubkey, some token⟩ ∧ seen = [⟨.unixNow, time⟩] ∧
        ev.op = .sql (.consumeRegistrationToken (Register.tokenHash A token) (asI64 time)))
    (fun _ _ => True) [] (handle A c) := by
  cases c
  case register req =>
    refine reply_sat ((Register.register_sat isPush req).mono (fun s ev h k => ?_)
      fun _ _ _ => trivial)
    obtain ⟨token, time, presented, seen, op⟩ := h.1 k
    exact ⟨req.pubkey, token, time, by rw [← presented], seen, op⟩
  all_goals exact spared_sat .consumeRegistrationToken (by decide) rfl

theorem handle_insertUser_sat (isPush : Register.gate A = some .push) (c : Call) : Prog.Sat
    (fun (seen : List (Event signature)) ev => ev.op.kind = .insertUser →
      ∃ token time rows userId now, rows ≠ 0 ∧ seen =
        Register.gateEvents A token time (some rows) ++ [⟨.newUuid, userId⟩, ⟨.unixNow, now⟩])
    (fun _ _ => True) [] (handle A c) := by
  cases c
  case register req =>
    refine reply_sat ((Register.register_sat isPush req).mono (fun s ev h k => ?_)
      fun _ _ _ => trivial)
    obtain ⟨token, time, rows, userId, now, -, rest⟩ := h.2 k
    exact ⟨token, time, rows, userId, now, rest⟩
  all_goals exact spared_sat .insertUser (by decide) rfl

/-- An account or a device is stored under the id that was drawn just before, with a clock
that has been read since. -/
def Stamped (seen : List (Event signature)) (op : Op) : Prop :=
  (op.kind = .insertUser → ∃ before userId now,
    seen = before ++ [⟨.newUuid, userId⟩, ⟨.unixNow, now⟩] ∧
      op = .sql (.insertUser ⟨userId, asI64 now, false, none, 0⟩)) ∧
  (op.kind = .insertDevice → ∃ before deviceId userId key now,
    seen = before ++ [⟨.newUuid, deviceId⟩, ⟨.unixNow, now⟩] ∧
      op = .sql (.insertDevice ⟨deviceId, userId, key, asI64 now⟩))

theorem stamped_of_kind {op : Op} (user : op.kind ≠ .insertUser)
    (device : op.kind ≠ .insertDevice) : Stamped seen op :=
  ⟨fun same => absurd same user, fun same => absurd same device⟩

theorem stamped_of_within {K : List Kind} (user : .insertUser ∉ K) (device : .insertDevice ∉ K)
    {op : Op} (within : Within K op) : Stamped seen op := by
  rcases within with read | mem
  · exact stamped_of_kind (by rw [read]; decide) (by rw [read]; decide)
  · exact stamped_of_kind (fun same => user (same ▸ mem)) fun same => device (same ▸ mem)

theorem register_stamped_sat (req : Register.RegisterRequest) : Prog.Sat
    (fun (seen : List (Event signature)) ev => Stamped seen ev.op) (fun _ _ => True) seen
    (Register.register A req) := by
  have silent {op : Op} (quiet : Quiet [.consumeRegistrationToken] op)
      (seen : List (Event signature)) : Stamped seen op :=
    stamped_of_within (by decide) (by decide) quiet.1
  refine (checkPolicy_quiet A (by decide) req).sat_bind (fun s e quiet => silent quiet s)
    (fun s _ => ?_) fun _ _ => trivial
  refine .bind (.ofExcept ?_)
  split
  · split
    · trivial
    · split
      · trivial
      · refine .bind (.bind (newUuid_sat (fun _ => stamped_of_kind nofun nofun) fun userId => ?_))
        refine .bind (unixNow_sat (fun _ => stamped_of_kind nofun nofun) fun now => ?_)
        refine .bind (sql_sat (s := .insertUser _)
          (fun _ => ⟨fun _ => ⟨s, userId, now, List.append_assoc .., rfl⟩, nofun⟩)
          (fun _ => ?_) trivial)
        refine .bind (.bind (newUuid_sat (fun _ => stamped_of_kind nofun nofun) fun deviceId => ?_))
        refine .bind (unixNow_sat (fun _ => stamped_of_kind nofun nofun) fun later => ?_)
        exact .bind (sql_sat (s := .insertDevice _)
          (fun _ => ⟨nofun, fun _ => ⟨_, deviceId, _, _, later, List.append_assoc .., rfl⟩⟩)
          (fun _ => trivial) trivial)
  · trivial

theorem handle_stamped_sat (c : Call) : Prog.Sat
    (fun (seen : List (Event signature)) ev => Stamped seen ev.op) (fun _ _ => True) []
    (handle A c) := by
  cases c
  case register req => exact reply_sat (register_stamped_sat req)
  all_goals
    exact (handle_within A _).sat fun s ev within =>
      stamped_of_within (by simp [Call.footprint]) (by simp [Call.footprint]) within

end Smqtt
