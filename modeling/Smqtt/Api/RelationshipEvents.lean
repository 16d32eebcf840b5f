import Smqtt.Api.Events

/-!
What the handlers of relationships and suspensions have seen when they store a row
or kick a user.
-/

namespace Smqtt

open AtomicSteps

variable {A : AppState} {P : List (Event signature) → Event signature → Prop}
  {seen : List (Event signature)}

/-- What `create` has read and drawn before it inserts. -/
structure Granting (authorization : Option String) where
  token : String
  claims : Claims
  relationshipId : String
  now : Nat
  bearer : bearerToken authorization = some token

namespace Granting

variable {authorization : Option String} (x : Granting authorization)

def events : List (Event signature) :=
  [⟨.jwtVerify x.token, .ok x.claims⟩, ⟨.newUuid, x.relationshipId⟩, ⟨.unixNow, x.now⟩]

def row (req : Relationships.CreateRequest) : Relationship :=
  ⟨x.relationshipId, x.claims.sub, req.peerId, JsonStrings.encode req.publishTopics,
    JsonStrings.encode req.subscribeTopics, asI64 x.now⟩

end Granting

theorem create_sat (authorization : Option String) (req : Relationships.CreateRequest) :
    Prog.Sat (fun (seen : List (Event signature)) ev => ev.op.kind = .insertRelationship →
      ∃ x : Granting authorization, seen = x.events ∧
        ev.op = .sql (.insertRelationship (x.row req)))
    (fun seen r => ∀ response, r = .ok response → ∃ x : Granting authorization,
      seen = x.events ++ [⟨.sql (.insertRelationship (x.row req)), some ()⟩]) []
    (Relationships.create authorization req) := by
  unfold Relationships.create
  refine .bind (fromRequestParts_sat (fun _ _ => nofun) ?_ fun _ _ => nofun)
  intro token claims bearer
  refine .bind (.bind (perform_sat .newUuid fun relationshipId => ⟨nofun, ?_⟩))
  refine .bind (unixNow_sat (fun _ => nofun) fun now => ?_)
  let x : Granting authorization := ⟨token, claims, relationshipId, now, bearer⟩
  refine .bind (sql_sat (s := .insertRelationship _) (fun _ _ => ⟨x, rfl, rfl⟩) (fun _ => ?_) nofun)
  rintro response -
  exact ⟨x, rfl⟩

theorem handle_insertRelationship_sat (c : Call) : Prog.Sat
    (fun (seen : List (Event signature)) ev => ev.op.kind = .insertRelationship →
      ∃ authorization req, ∃ x : Granting authorization,
        c = .createRelationship authorization req ∧ seen = x.events ∧
          ev.op = .sql (.insertRelationship (x.row req)))
    (fun seen r => ∀ authorization req reply, c = .createRelationship authorization req →
      r = .ok reply → ∃ x : Granting authorization,
        seen = x.events ++ [⟨.sql (.insertRelationship (x.row req)), some ()⟩]) []
    (handle A c) := by
  cases c
  case createRelationship authorization req =>
    refine reply_sat ((create_sat authorization req).mono ?_ ?_)
    · intro s ev h k
      obtain ⟨x, hs, ho⟩ := h k
      exact ⟨authorization, req, x, rfl, hs, ho⟩
    · rintro s r h _ _ reply ⟨⟩ eq
      cases r with
      | error err => cases eq
      | ok response => exact h response rfl
  all_goals
    exact Prog.Sat.mono (spared_sat .insertRelationship (by decide) rfl) (fun _ _ h => h)
      fun _ _ _ _ _ => nofun

def kickEvent (d : Device) : Event signature := ⟨.kick d.deviceId, ()⟩

/-- What `kick_user` goes through: the clock, the cutoff, the list of the devices, which
may fail, and the kick of each of them. -/
def kickEvents (v : String) (now : Nat) (rows : Option Nat) (devices : Option (List Device)) :
    List (Event signature) :=
  [⟨.unixNow, now⟩, ⟨.sql (.updateTokensValidFrom (asI64 now) v), rows⟩,
    ⟨.sql (.selectDevices v), devices⟩] ++ (devices.getD []).map kickEvent

def Op.strikes (op : Op) : Prop := op.kind = .cutoff ∨ op.kind = .kick

theorem kind_of_mem_kickEvents {v : String} {now : Nat} {rows : Option Nat}
    {devices : Option (List Device)} {ev : Event signature}
    (mem : ev ∈ kickEvents v now rows devices) : ev.op.kind = .read ∨ ev.op.strikes := by
  rcases List.mem_append.mp mem with fixed | kick
  · simp only [List.mem_cons, List.not_mem_nil, or_false] at fixed
    rcases fixed with rfl | rfl | rfl
    · exact Or.inl rfl
    · exact Or.inr (Or.inl rfl)
    · exact Or.inl rfl
  · obtain ⟨d, -, rfl⟩ := List.mem_map.mp kick
    exact Or.inr (Or.inr rfl)

/-- The event comes next in a kick of `v` that started after the events `start`. -/
def KickStep (v : String) (start seen : List (Event signature)) (ev : Event signature) : Prop :=
  ∃ part now rows devices, seen = start ++ part ∧
    part ++ [ev] <+: kickEvents v now rows devices

/-- A device is kicked once the user's devices are listed and it is one of them. -/
theorem KickStep.kicks {v : String} {start : List (Event signature)} {d : Device}
    (step : KickStep v start seen (kickEvent d)) : ∃ before after devices,
      seen = before ++ ⟨.sql (.selectDevices v), some devices⟩ :: after ∧
        d.deviceId ∈ devices.map Device.deviceId := by
  obtain ⟨part, now, rows, devices, rfl, pre⟩ := step
  rcases part with _ | ⟨a, _ | ⟨b, _ | ⟨c, done⟩⟩⟩
  · simp [kickEvents, kickEvent] at pre
  · simp [kickEvents, kickEvent] at pre
  · simp [kickEvents, kickEvent] at pre
  · simp only [kickEvents, List.cons_append, List.nil_append, List.cons_prefix_cons] at pre
    obtain ⟨rfl, rfl, rfl, pre⟩ := pre
    have mem := pre.subset (List.mem_append_right done (List.mem_singleton_self _))
    obtain ⟨d', listed, same⟩ := List.mem_map.mp mem
    cases devices with
    | none => exact absurd listed List.not_mem_nil
    | some devices =>
        refine ⟨start ++ [⟨.unixNow, now⟩, ⟨.sql (.updateTokensValidFrom (asI64 now) v), rows⟩],
          done, devices, by simp, List.mem_map.mpr ⟨d', listed, ?_⟩⟩
        exact Op.kick.inj (congrArg Event.op same)

theorem kickDevices_sat {devices : List Device}
    {Q : List (Event signature) → Except Error Unit → Prop}
    (permitted : ∀ done d rest, devices = done ++ d :: rest →
      P (seen ++ done.map kickEvent) (kickEvent d))
    (returned : Q (seen ++ devices.map kickEvent) (.ok ())) :
    Prog.Sat P Q seen (Broker.kickDevices devices) := by
  induction devices generalizing seen with
  | nil => simpa [Broker.kickDevices] using returned
  | cons d ds ih =>
      refine .bind (perform_sat (.kick d.deviceId) fun (_ : Unit) => ⟨?_, ih ?_ ?_⟩)
      · have first := permitted [] d ds rfl
        rwa [List.map_nil, List.append_nil] at first
      · intro done d' rest split
        have next := permitted (d :: done) d' rest (by rw [split]; rfl)
        rwa [List.map_cons, List.append_cons] at next
      · rwa [List.map_cons, List.append_cons] at returned

/-- Whether the cutoff is written or not, the caller goes on. -/
theorem invalidateTokens_sat {v : String} {Q : List (Event signature) → Except Error Unit → Prop}
    (clock : ∀ now, P seen ⟨.unixNow, now⟩)
    (cutoff : ∀ now rows, P (seen ++ [⟨.unixNow, now⟩])
      ⟨.sql (.updateTokensValidFrom (asI64 now) v), rows⟩)
    (after : ∀ now rows r, Q (seen ++
      [⟨.unixNow, now⟩, ⟨.sql (.updateTokensValidFrom (asI64 now) v), rows⟩]) r) :
    Prog.Sat P Q seen (Db.invalidateTokens v) := by
  refine .bind (unixNow_sat clock fun now => ?_)
  refine .bind (sql_sat (s := .updateTokensValidFrom _ _) (cutoff now) (fun rows => ?_) ?_)
  · rw [List.append_assoc]
    exact after now (some rows) (.ok ())
  · rw [List.append_assoc]
    exact after now none (.error .database)

theorem kickUser_sat {v : String} {Q : List (Event signature) → Except Error Unit → Prop}
    (permitted : ∀ seen' ev, KickStep v seen seen' ev → P seen' ev)
    (returned : ∀ now rows devices, Q (seen ++ kickEvents v now rows devices) (.ok ())) :
    Prog.Sat P Q seen (Broker.kickUser v) := by
  have step (now : Nat) (rows : Option Nat) (devices : Option (List Device))
      (part : List (Event signature)) (ev : Event signature) (rest : List (Event signature))
      (split : kickEvents v now rows devices = part ++ ev :: rest) : P (seen ++ part) ev := by
    refine permitted _ ev ⟨part, now, rows, devices, rfl, rest, ?_⟩
    rw [split, List.append_assoc, List.singleton_append]
  refine .bind (.attempt (invalidateTokens_sat (fun now => ?_) (fun now rows => ?_)
    fun now rows _ => ?_))
  · have first := step now none none [] _ _ rfl
    rwa [List.append_nil] at first
  · exact step now rows none [_] _ _ rfl
  · -- whether the cutoff is written or not, the devices are kicked
    refine .bind (.attempt (getDeviceByUser_sat (fun devices => ?_) (fun devices => ?_) ?_))
    · exact step now rows devices [_, _] _ _ rfl
    · rw [List.append_assoc]
      refine kickDevices_sat (fun done d rest split => ?_) ?_
      · rw [List.append_assoc]
        refine step now rows (some devices) ([_, _, _] ++ done.map kickEvent) (kickEvent d)
          (rest.map kickEvent) ?_
        rw [kickEvents, Option.getD_some, split, List.map_append, List.map_cons,
          List.append_assoc]
      · have done := returned now rows (some devices)
        rwa [kickEvents, ← List.append_assoc] at done
    · have done := returned now rows none
      rw [kickEvents, Option.getD_none, List.map_nil, List.append_nil] at done
      rw [List.append_assoc]
      exact done

/-- What `revoke` has read and deleted before it kicks. -/
structure Revoking (authorization : Option String) where
  token : String
  claims : Claims
  row : Relationship
  rows : Nat
  bearer : bearerToken authorization = some token
  deleted : rows ≠ 0

namespace Revoking

variable {authorization : Option String} (x : Revoking authorization)

def events (relationshipId : String) : List (Event signature) :=
  [⟨.jwtVerify x.token, .ok x.claims⟩,
    ⟨.sql (.selectRelationship relationshipId x.claims.sub), some (some x.row)⟩,
    ⟨.sql (.deleteRelationship relationshipId x.claims.sub), some x.rows⟩]

end Revoking

/-- The request has come to where it kicks `v`, after the events `start`. -/
inductive KickCause (A : AppState) (v : String) : Call → List (Event signature) → Prop
  | suspended (key : Option String) (req : Admin.SuspendRequest) (rows : Nat) :
      key.getD "" = A.config.adminApiKey → rows ≠ 0 → KickCause A v (.suspendUser key v req)
        [⟨.sql (.updateSuspended true req.reason v), some rows⟩]
  | revoked {authorization : Option String} (r : String) (x : Revoking authorization) :
      x.claims.sub = v → KickCause A v (.revokeRelationship authorization r) (x.events r)
  | peer {authorization : Option String} (r : String) (x : Revoking authorization) (now : Nat)
      (rows : Option Nat) (devices : Option (List Device)) : x.row.peerId = v →
      KickCause A v (.revokeRelationship authorization r)
        (x.events r ++ kickEvents x.claims.sub now rows devices)

/-- What a revocation or a suspension has gone through when it returns. -/
def Kicked (c : Call) (seen : List (Event signature)) : Prop :=
  match c with
  | .suspendUser _ v req => ∃ rows now rows' devices, seen =
      [⟨.sql (.updateSuspended true req.reason v), some rows⟩] ++ kickEvents v now rows' devices
  | .revokeRelationship authorization r => ∃ x : Revoking authorization,
      ∃ now rows devices now' rows' devices', seen = x.events r ++
        (kickEvents x.claims.sub now rows devices ++
          kickEvents x.row.peerId now' rows' devices')
  | _ => True

theorem revoke_sat (authorization : Option String) (r : String) :
    Prog.Sat (fun (seen : List (Event signature)) ev => ev.op.strikes →
      ∃ v start, KickCause A v (.revokeRelationship authorization r) start ∧
        KickStep v start seen ev)
    (fun seen result => ∀ u, result = .ok u → Kicked (.revokeRelationship authorization r) seen)
    [] (Relationships.revoke authorization r) := by
  have idle {seen : List (Event signature)} {op : Op} {x : op.Answer}
      (read : ¬op.strikes) : op.strikes → ∃ v start,
        KickCause A v (.revokeRelationship authorization r) start ∧
          KickStep v start seen ⟨op, x⟩ := fun kicks => absurd kicks read
  unfold Relationships.revoke
  refine .bind (fromRequestParts_sat (fun _ _ => idle (by simp [Op.strikes, Op.kind])) ?_
    (by rintro s e u ⟨⟩))
  intro token claims bearer
  refine .bind (.bind (sql_sat (s := .selectRelationship r claims.sub)
    (fun _ => idle (by simp [Op.strikes, Op.kind, Statement.kind])) (fun row => ?_)
    (by rintro u ⟨⟩)))
  cases row with
  | none => rintro u ⟨⟩
  | some row =>
      refine .bind (.bind (sql_sat (s := .deleteRelationship r claims.sub)
        (fun _ => idle (by simp [Op.strikes, Op.kind, Statement.kind])) (fun rows => ?_)
        (by rintro u ⟨⟩)))
      dsimp only
      split
      · rintro u ⟨⟩
      · rename_i deleted
        let x : Revoking authorization := ⟨token, claims, row, rows, bearer, deleted⟩
        refine .bind (kickUser_sat (fun s ev kick _ => ?_) fun now rows devices => ?_)
        · exact ⟨claims.sub, _, .revoked r x rfl, kick⟩
        · refine kickUser_sat (fun s ev kick _ => ?_) fun now' rows' devices' _ _ => ?_
          · exact ⟨row.peerId, _, .peer r x now rows devices rfl, kick⟩
          · exact ⟨x, now, rows, devices, now', rows', devices', List.append_assoc _ _ _⟩

theorem suspend_sat (key : Option String) (v : String) (req : Admin.SuspendRequest) :
    Prog.Sat (fun (seen : List (Event signature)) ev => ev.op.strikes →
      ∃ start, KickCause A v (.suspendUser key v req) start ∧ KickStep v start seen ev)
    (fun seen result => ∀ u, result = .ok u → Kicked (.suspendUser key v req) seen)
    [] (Admin.suspendUser A key v req) := by
  unfold Admin.suspendUser Admin.requireAdminKey
  split
  · rename_i admin
    change Prog.Sat _ _ _ (Db.setSuspended v true req.reason >>= fun _ => Broker.kickUser v)
    refine .bind (.bind (sql_sat (s := .updateSuspended true req.reason v)
      (fun _ kicks => absurd kicks (by simp [Op.strikes, Op.kind, Statement.kind]))
      (fun rows => ?_) (by rintro u ⟨⟩)))
    dsimp only
    split
    · rintro u ⟨⟩
    · rename_i known
      refine (Prog.sat_done _).mpr (kickUser_sat (fun s ev kick _ => ?_)
        fun now rows' devices _ _ => ?_)
      · exact ⟨_, .suspended key req rows admin known, kick⟩
      · exact ⟨rows, now, rows', devices, rfl⟩
  · rintro u ⟨⟩

private theorem unkicked_sat {c : Call}
    (absent : (c.footprint.all fun j => j ≠ .cutoff && j ≠ .kick) = true)
    {R : List (Event signature) → Event signature → Prop} :
    Prog.Sat (fun seen (ev : Event signature) => ev.op.strikes → R seen ev) (fun _ _ => True) []
      (handle A c) := by
  refine (handle_within A c).sat fun s ev within kicks => ?_
  rcases within with read | mem
  · rcases kicks with kind | kind <;> exact nomatch read.symm.trans kind
  · have other := List.all_eq_true.mp absent _ mem
    simp only [Bool.and_eq_true, decide_eq_true_eq] at other
    exact (kicks.elim other.1 other.2).elim

/-- Kicks come from revocations and suspensions, which return when they are through with them. -/
theorem handle_kicks_sat (c : Call) : Prog.Sat
    (fun (seen : List (Event signature)) ev => ev.op.strikes →
      ∃ v start, KickCause A v c start ∧ KickStep v start seen ev)
    (fun seen r => ∀ reply, r = .ok reply → Kicked c seen) []
    (handle A c) := by
  cases c
  case revokeRelationship authorization r =>
    refine reply_sat ((revoke_sat authorization r).mono (fun _ _ h => h) ?_)
    rintro s (e | u) h reply ok
    · cases ok
    · exact h u rfl
  case suspendUser key v req =>
    refine reply_sat ((suspend_sat key v req).mono (fun s ev h k => ⟨v, h k⟩) ?_)
    rintro s (e | u) h reply ok
    · cases ok
    · exact h u rfl
  all_goals
    exact (unkicked_sat rfl).mono (fun _ _ h => h) fun _ _ _ _ _ => trivial

end Smqtt
