import Smqtt.Api.Footprint

/-!
What a handler has seen when it acts. Each function gets its rule in the logic
of one program (`Prog.Sat`): which event it adds and with what result it goes on.
From the rules follows what stands behind the operations that matter under
interleaving: behind a token the whole passage through the checks of `verify`,
behind a stored challenge the draw and the clock, behind a session the verified
token and the row of its user.
-/

namespace Smqtt

open AtomicSteps

variable {A : AppState} {P : List (Event signature) → Event signature → Prop}
  {seen : List (Event signature)}

theorem perform_sat (op : Op) {Q : List (Event signature) → Except Error op.Answer → Prop}
    (h : ∀ x, P seen ⟨op, x⟩ ∧ Q (seen ++ [⟨op, x⟩]) (.ok x)) :
    Prog.Sat P Q seen (Prog.perform (S := signature) op : Handler op.Answer) := h

theorem sql_sat {s : Statement} {Q : List (Event signature) → Except Error s.Answer → Prop}
    (permitted : ∀ x, P seen ⟨.sql s, x⟩)
    (answered : ∀ x, Q (seen ++ [⟨.sql s, some x⟩]) (.ok x))
    (failed : Q (seen ++ [⟨.sql s, none⟩]) (.error .database)) :
    Prog.Sat P Q seen (sql s) := by
  intro x
  refine ⟨permitted x, ?_⟩
  cases x with
  | none => exact failed
  | some x => exact answered x

theorem unixNow_sat {Q : List (Event signature) → Except Error Nat → Prop}
    (permitted : ∀ x, P seen ⟨.unixNow, x⟩)
    (answered : ∀ now, Q (seen ++ [⟨.unixNow, now⟩]) (.ok now)) :
    Prog.Sat P Q seen unixNow :=
  fun now => ⟨permitted now, answered now⟩

theorem getUser_sat {u : String} {Q : List (Event signature) → Except Error User → Prop}
    (permitted : ∀ x, P seen ⟨.sql (.selectUser u), x⟩)
    (found : ∀ user, Q (seen ++ [⟨.sql (.selectUser u), some (some user)⟩]) (.ok user))
    (failed : ∀ x e, Q (seen ++ [⟨.sql (.selectUser u), x⟩]) (.error e)) :
    Prog.Sat P Q seen (Db.getUser u) := by
  refine .bind (sql_sat permitted ?_ (failed _ _))
  intro row
  cases row with
  | none => exact failed _ _
  | some user => exact found user

theorem getDeviceByUser_sat {u : String}
    {Q : List (Event signature) → Except Error (List Device) → Prop}
    (permitted : ∀ x, P seen ⟨.sql (.selectDevices u), x⟩)
    (found : ∀ devices, Q (seen ++ [⟨.sql (.selectDevices u), some devices⟩]) (.ok devices))
    (failed : Q (seen ++ [⟨.sql (.selectDevices u), none⟩]) (.error .database)) :
    Prog.Sat P Q seen (Db.getDeviceByUser u) :=
  sql_sat permitted found failed

/-- The two topic lists of some relationship rows. -/
def topicsOfRows (rows : List Relationship) : List String × List String :=
  (rows.flatMap fun r => Db.decodeTopics r.publishTopics,
    rows.flatMap fun r => Db.decodeTopics r.subscribeTopics)

theorem userTopics_sat {u : String}
    {Q : List (Event signature) → Except Error (List String × List String) → Prop}
    (permitted : ∀ x, P seen ⟨.sql (.selectRelationships u), x⟩)
    (found : ∀ rows, Q (seen ++ [⟨.sql (.selectRelationships u), some rows⟩])
      (.ok (topicsOfRows rows)))
    (failed : Q (seen ++ [⟨.sql (.selectRelationships u), none⟩]) (.error .database)) :
    Prog.Sat P Q seen (Db.userTopics u) :=
  .bind (sql_sat permitted found failed)

/-- The extractor goes on only with the subject of a token that verified. -/
theorem fromRequestParts_sat {authorization : Option String}
    {Q : List (Event signature) → Except Error String → Prop}
    (permitted : ∀ token x, P seen ⟨.jwtVerify token, x⟩)
    (accepted : ∀ token claims, bearerToken authorization = some token →
      Q (seen ++ [⟨.jwtVerify token, .ok claims⟩]) (.ok claims.sub))
    (refused : ∀ s e, Q s (.error e)) :
    Prog.Sat P Q seen (AuthUser.fromRequestParts authorization) := by
  unfold AuthUser.fromRequestParts
  dsimp only
  split
  · exact refused _ _
  · rename_i isBearer
    have bearer : bearerToken authorization =
        some (String.ofList ((authorization.getD "").toList.drop 7)) := by
      unfold bearerToken
      rw [if_pos (by simpa using isBearer)]
    refine .bind (perform_sat (.jwtVerify _) fun verified => ⟨permitted _ _, ?_⟩)
    cases verified with
    | error e => exact refused _ _
    | ok claims => exact accepted _ claims bearer

/-- A passage through all checks of `verify`: what it read, and what held of it. -/
structure Login (A : AppState) (req : Auth.VerifyRequest) where
  nonce : List UInt8
  expiresAt : Nat
  now : Nat
  user : User
  devices : List Device
  device : Device
  sigBytes : List UInt8
  relationships : List Relationship
  unexpired : now ≤ expiresAt
  active : user.suspended = false
  found : devices.find? (fun d => d.deviceId = req.deviceId) = some device
  point : A.lib.ed25519Point device.pubkey = true
  decoded : b64Decode A req.signature = .ok sigBytes
  verifies : A.lib.ed25519Verify device.pubkey nonce sigBytes = true

namespace Login

variable {req : Auth.VerifyRequest} (l : Login A req)

def events : List (Event signature) :=
  [⟨.challengesRemove req.userId, some (l.nonce, l.expiresAt)⟩, ⟨.unixNow, l.now⟩,
    ⟨.sql (.selectUser req.userId), some (some l.user)⟩,
    ⟨.sql (.selectDevices req.userId), some l.devices⟩,
    ⟨.sql (.selectRelationships req.userId), some l.relationships⟩]

def issue : Op :=
  .jwtIssue req.userId req.deviceId (topicsOfRows l.relationships).1
    ((topicsOfRows l.relationships).2 ++ [A.notifyTopic req.userId])
    (A.notifyTopic req.userId)

end Login

/-- `verify` issues once, after its checks, and answers with the token. -/
theorem verify_sat (req : Auth.VerifyRequest) : Prog.Sat
    (fun (seen : List (Event signature)) ev => ev.op.kind = .issue →
      ∃ l : Login A req, seen = l.events ∧ ev.op = l.issue)
    (fun seen r => ∀ token, r = .ok token →
      ∃ l : Login A req, seen = l.events ++ [⟨l.issue, .ok token⟩]) [] (Auth.verify A req) := by
  unfold Auth.verify
  refine .bind (perform_sat (.challengesRemove req.userId) fun entry => ⟨nofun, ?_⟩)
  cases entry with
  | none => exact nofun
  | some entry =>
      obtain ⟨nonce, expiresAt⟩ := entry
      refine .bind (unixNow_sat (fun _ => nofun) fun now => ?_)
      dsimp only
      split
      · exact nofun
      · rename_i unexpired
        refine .bind (getUser_sat (fun _ => nofun) ?_ fun _ _ => nofun)
        intro user
        dsimp only
        split
        · exact nofun
        · rename_i active
          refine .bind (getDeviceByUser_sat (fun _ => nofun) ?_ nofun)
          intro devices
          dsimp only
          split
          · exact nofun
          · rename_i device found
            split
            · exact nofun
            · split
              · exact nofun
              · rename_i point
                refine .bind (.ofExcept ?_)
                split
                · rename_i sigBytes decoded
                  split
                  · exact nofun
                  · split
                    · exact nofun
                    · rename_i verifies
                      refine .bind (userTopics_sat (fun _ => nofun) ?_ nofun)
                      intro rows
                      let l : Login A req := ⟨nonce, expiresAt, now, user, devices, device,
                        sigBytes, rows, Nat.le_of_not_lt unexpired, by simpa using active, found,
                        by simpa using point, decoded, by simpa using verifies⟩
                      refine .bind (perform_sat (.jwtIssue _ _ _ _ _) fun issued =>
                        ⟨fun _ => ⟨l, rfl, rfl⟩, .ofExcept ?_⟩)
                      rintro token rfl
                      exact ⟨l, rfl⟩
                · exact nofun

/-- What `challenge` has drawn and read before it stores a challenge. -/
structure Challenged where
  user : User
  nonce : List UInt8
  now : Nat

namespace Challenged

variable (x : Challenged) (q : Auth.ChallengeQuery)

def events : List (Event signature) :=
  [⟨.sql (.selectUser q.userId), some (some x.user)⟩, ⟨.fillBytes, x.nonce⟩, ⟨.unixNow, x.now⟩]

def insert : Op := .challengesInsert q.userId x.nonce (addU64 x.now Auth.challengeTtlSecs)

end Challenged

theorem challenge_sat (q : Auth.ChallengeQuery) : Prog.Sat
    (fun (seen : List (Event signature)) ev => ev.op.kind = .insertChallenge →
      ∃ x : Challenged, seen = x.events q ∧ ev.op = x.insert q)
    (fun _ _ => True) [] (Auth.challenge q) := by
  unfold Auth.challenge
  refine .bind (getUser_sat (fun _ => nofun) (fun user => ?_) fun _ _ => trivial)
  refine .bind (perform_sat .fillBytes fun nonce => ⟨nofun, ?_⟩)
  refine .bind (unixNow_sat (fun _ => nofun) fun now => ?_)
  exact .bind (perform_sat (.challengesInsert _ _ _) fun _ =>
    ⟨fun _ => ⟨⟨user, nonce, now⟩, rfl, rfl⟩, trivial⟩)

/-- A passage through all checks of `authenticate`. -/
structure Admission (info : ConnectInfo) where
  token : String
  claims : Claims
  user : User
  password : info.password = some (.text token)
  device : info.clientId = claims.dev
  active : user.suspended = false
  current : user.tokensValidFrom ≤ asI64 claims.iat

namespace Admission

variable {info : ConnectInfo} (x : Admission info)

def events : List (Event signature) :=
  [⟨.jwtVerify x.token, .ok x.claims⟩, ⟨.sql (.selectUser x.claims.sub), some (some x.user)⟩]

def insert : Op := .sessionsInsert info.clientId x.claims

end Admission

theorem authenticate_sat (info : ConnectInfo) : Prog.Sat
    (fun (seen : List (Event signature)) ev => ev.op.kind = .insertSession →
      ∃ x : Admission info, seen = x.events ∧ ev.op = x.insert)
    (fun _ _ => True) [] (AuthHook.authenticate info) := by
  unfold AuthHook.authenticate
  split
  · rename_i token password
    refine .bind (perform_sat (.jwtVerify token) fun verified => ⟨nofun, ?_⟩)
    cases verified with
    | error e => trivial
    | ok claims =>
        dsimp only
        split
        · trivial
        · rename_i device
          refine .bind (.attempt (getUser_sat (fun _ => nofun) (fun user => ?_) ?_))
          · dsimp only
            split
            · trivial
            · rename_i active
              split
              · trivial
              · rename_i current
                refine .bind (perform_sat (.sessionsInsert _ _) fun _ => ⟨fun _ => ?_, trivial⟩)
                exact ⟨⟨token, claims, user, password, not_not.mp device, by simpa using active,
                  Int.le_of_not_gt current⟩, rfl, rfl⟩
          · intro x e
            trivial
  · trivial

theorem reply_sat {α : Type} {p : Handler α} {f : α → Reply}
    {Q : List (Event signature) → Except Error Reply → Prop}
    (hp : Prog.Sat P (fun s r => Q s (r.map f)) seen p) :
    Prog.Sat P Q seen (Prog.reply p f) := by
  refine .bind (hp.mono (fun _ _ h => h) fun s r h => ?_)
  cases r <;> exact h

/-- A condition on one kind of operation holds of every call that has none of it. -/
theorem spared_sat (k : Kind) (hk : k ≠ .read) {c : Call}
    (absent : (c.footprint.all fun j => j ≠ k) = true)
    {R : List (Event signature) → Event signature → Prop} :
    Prog.Sat (fun seen (ev : Event signature) => ev.op.kind = k → R seen ev) (fun _ _ => True) []
      (handle A c) := by
  refine (handle_within A c).sat fun s ev within hev => ?_
  rcases within with read | mem
  · exact absurd (hev.symm.trans read) hk
  · have other := List.all_eq_true.mp absent _ mem
    exact absurd hev (of_decide_eq_true other)

theorem handle_issue_sat (c : Call) : Prog.Sat
    (fun (seen : List (Event signature)) ev => ev.op.kind = .issue →
      ∃ req, ∃ l : Login A req, c = .verify req ∧ seen = l.events ∧ ev.op = l.issue)
    (fun seen r => ∀ req token, c = .verify req → r = .ok (.token token) →
      ∃ l : Login A req, seen = l.events ++ [⟨l.issue, .ok token⟩]) [] (handle A c) := by
  cases c
  case verify req =>
    refine reply_sat ((verify_sat req).mono ?_ ?_)
    · intro s ev h k
      obtain ⟨l, hs, ho⟩ := h k
      exact ⟨req, l, rfl, hs, ho⟩
    · rintro s r h _ token ⟨⟩ eq
      cases r with
      | error err => cases eq
      | ok token' =>
          obtain rfl := Reply.token.inj (Except.ok.inj eq)
          exact h token' rfl
  all_goals
    exact Prog.Sat.mono (spared_sat .issue (by decide) rfl) (fun _ _ h => h) fun _ _ _ _ _ => nofun

theorem handle_insertChallenge_sat (c : Call) : Prog.Sat
    (fun (seen : List (Event signature)) ev => ev.op.kind = .insertChallenge →
      ∃ q, ∃ x : Challenged, c = .challenge q ∧ seen = x.events q ∧ ev.op = x.insert q)
    (fun _ _ => True) [] (handle A c) := by
  cases c
  case challenge q =>
    exact reply_sat ((challenge_sat q).mono (fun s ev h k =>
      let ⟨x, hs, ho⟩ := h k
      ⟨q, x, rfl, hs, ho⟩) fun _ _ _ => trivial)
  all_goals exact spared_sat .insertChallenge (by decide) rfl

theorem handle_insertSession_sat (c : Call) : Prog.Sat
    (fun (seen : List (Event signature)) ev => ev.op.kind = .insertSession →
      ∃ info, ∃ x : Admission info, c = .connect info ∧ seen = x.events ∧ ev.op = x.insert)
    (fun _ _ => True) [] (handle A c) := by
  cases c
  case connect info =>
    have asked : Broker.execHook (.clientAuthenticate info) =
        (AuthHook.authenticate info >>= fun result => pure result.2) := rfl
    refine reply_sat ?_
    unfold Broker.connect
    rw [asked]
    refine .bind (.bind ((authenticate_sat info).mono (fun s ev h k =>
      let ⟨x, hs, ho⟩ := h k
      ⟨info, x, rfl, hs, ho⟩) fun s r _ => ?_))
    cases r with
    | error e => trivial
    | ok result =>
        dsimp only
        refine (Prog.sat_done _).mpr ?_
        dsimp only
        split
        · exact .bind (perform_sat (.accept _ _) fun _ => ⟨nofun, trivial⟩)
        · trivial
  all_goals exact spared_sat .insertSession (by decide) rfl

end Smqtt
