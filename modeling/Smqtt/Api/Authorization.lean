import Smqtt.Api.ExchangeEvents
import Smqtt.Api.Outcomes
import Smqtt.Api.RegistrationEvents
import Smqtt.Api.RelationshipEvents

/-!
The access policy of the database: which statements a request may send, after what it has
shown. A user shows a bearer token that verifies, an administrator the key, a new account
passes the registration policy.
-/

namespace Smqtt

open AtomicSteps

variable {A : AppState} {P : List (Event signature) → Event signature → Prop}
  {seen : List (Event signature)} {c : Call}

/-- The bearer token of the request has verified as one of `u`. -/
def Bears (c : Call) (seen : List (Event signature)) (u : String) : Prop :=
  ∃ authorization token claims, c.authorization = some authorization ∧
    bearerToken authorization = some token ∧ ⟨.jwtVerify token, .ok claims⟩ ∈ seen ∧
      claims.sub = u

/-- The admin key that a request carries. -/
def Call.adminKey : Call → Option String
  | .createRegistrationToken key _ => key
  | .suspendUser key _ _ => key
  | .unsuspendUser key _ => key
  | _ => none

/-- The request carries the key of the configuration. -/
def HoldsKey (A : AppState) (c : Call) : Prop := c.adminKey.getD "" = A.config.adminApiKey

/-- A registration has passed the policy. -/
inductive Register.Admitted (A : AppState) (req : RegisterRequest)
    (seen : List (Event signature)) : Prop
  | anyone (mode : A.config.registrationMode = .open)
  | push {policy : RegistrationPolicy} {token : String} {time rows : Nat}
      (mode : A.config.registrationMode = .policy)
      (configured : A.config.registrationPolicy = some policy) (kind : policy.kind = .push)
      (presented : req.registrationToken = some token) (spent : rows ≠ 0)
      (used : ⟨.sql (.consumeRegistrationToken (tokenHash A token) (asI64 time)), some rows⟩ ∈ seen)
  | hook {policy : RegistrationPolicy} {url : String}
      (mode : A.config.registrationMode = .policy)
      (configured : A.config.registrationPolicy = some policy) (kind : policy.kind = .hook)
      (address : policy.hookUrl = some url)
      (allowed : ⟨.callHook url req.pubkey, .ok (some true)⟩ ∈ seen)

theorem Register.Admitted.mono {req : RegisterRequest} {later : List (Event signature)}
    (admitted : Admitted A req seen) (le : seen ⊆ later) : Admitted A req later := by
  cases admitted with
  | anyone mode => exact .anyone mode
  | push mode configured kind presented spent used =>
      exact .push mode configured kind presented spent (le used)
  | hook mode configured kind address allowed =>
      exact .hook mode configured kind address (le allowed)

/-- The statements a request may change the database by, after these events. -/
inductive Authorized (A : AppState) (c : Call) (seen : List (Event signature)) :
    Statement → Prop
  | account {req : Register.RegisterRequest} {row : User} (request : c = .register req)
      (admitted : Register.Admitted A req seen) (fresh : row.suspended = false) :
      Authorized A c seen (.insertUser row)
  | device {req : Register.RegisterRequest} {row : Device} {user : User}
      (request : c = .register req) (admitted : Register.Admitted A req seen)
      (created : ⟨.sql (.insertUser user), some ()⟩ ∈ seen) (owner : row.userId = user.userId)
      (sent : b64Decode A req.pubkey = .ok row.pubkey) :
      Authorized A c seen (.insertDevice row)
  | spend {req : Register.RegisterRequest} {token : String} {now : Int}
      (request : c = .register req) (presented : req.registrationToken = some token) :
      Authorized A c seen (.consumeRegistrationToken (Register.tokenHash A token) now)
  | relate {row : Relationship} (owner : Bears c seen row.userId) :
      Authorized A c seen (.insertRelationship row)
  | revoke {r u : String} (owner : Bears c seen u) : Authorized A c seen (.deleteRelationship r u)
  | offer {row : PendingExchange} (initiator : Bears c seen row.initiatorId) :
      Authorized A c seen (.insertExchange row)
  | respond {e : String} {key : List UInt8} {row : PendingExchange}
      (read : ⟨.sql (.selectExchange e), some (some row)⟩ ∈ seen)
      (responder : Bears c seen row.responderId) (unanswered : row.responderPubkey = none) :
      Authorized A c seen (.updateResponderPubkey key e)
  | collect {e : String} {row : PendingExchange}
      (read : ⟨.sql (.selectExchange e), some (some row)⟩ ∈ seen)
      (initiator : Bears c seen row.initiatorId) (answered : row.responderPubkey.isSome = true) :
      Authorized A c seen (.deleteExchange e)
  | sweep {now : Nat} (timer : c = .purge) (read : ⟨.unixNow, now⟩ ∈ seen) :
      Authorized A c seen (.purgeExchanges (asI64 now))
  | mint {row : RegistrationToken} (key : HoldsKey A c) :
      Authorized A c seen (.insertRegistrationToken row)
  | flag {u : String} {b : Bool} {reason : Option String} (key : HoldsKey A c) :
      Authorized A c seen (.updateSuspended b reason u)
  | cutOff {u : String} {now : Int} (key : HoldsKey A c) :
      Authorized A c seen (.updateTokensValidFrom now u)
  | cutOwn {u r : String} {now : Int} {rows : Nat} (owner : Bears c seen u)
      (revoked : ⟨.sql (.deleteRelationship r u), some rows⟩ ∈ seen) (found : rows ≠ 0) :
      Authorized A c seen (.updateTokensValidFrom now u)
  | cutPeer {u v r : String} {now : Int} {row : Relationship} {rows : Nat}
      (owner : Bears c seen v)
      (read : ⟨.sql (.selectRelationship r v), some (some row)⟩ ∈ seen) (peer : row.peerId = u)
      (revoked : ⟨.sql (.deleteRelationship r v), some rows⟩ ∈ seen) (found : rows ≠ 0) :
      Authorized A c seen (.updateTokensValidFrom now u)

namespace Register

variable {req : RegisterRequest}

/-- The statements of a registration, and what is behind them. -/
def Keeps (A : AppState) (req : RegisterRequest) (seen : List (Event signature)) (op : Op) :
    Prop :=
  ∀ statement, op = .sql statement → statement.kind ≠ .read →
    Authorized A (.register req) seen statement

theorem keeps_read {op : Op} (read : op.kind = .read) : Keeps A req seen op := by
  rintro statement rfl writes
  exact absurd read writes

/-- A policy lets a request go on when it is admitted. -/
theorem checkPolicy_keeps {Q : List (Event signature) → Except Error Unit → Prop}
    (passed : ∀ later, Admitted A req later → Q later (.ok ())) (refused : ∀ s e, Q s (.error e)) :
    Prog.Sat (fun seen (ev : Event signature) => Keeps A req seen ev.op) Q seen
      (checkPolicy A req) := by
  have last (s : List (Event signature)) (ev : Event signature) : ev ∈ s ++ [ev] :=
    List.mem_append_right _ (List.mem_singleton_self ev)
  unfold checkPolicy
  split
  · exact refused _ _
  · rename_i mode
    exact passed _ (.anyone mode)
  · rename_i mode
    split
    · exact refused _ _
    · rename_i policy configured
      split
      · rename_i kind
        split
        · exact refused _ _
        · rename_i token presented
          refine .bind (unixNow_sat (fun _ => keeps_read rfl) fun time => ?_)
          refine .bind (sql_sat (s := .consumeRegistrationToken _ _) (fun rows => ?_)
            (fun rows => ?_) (refused _ _))
          · rintro statement same -
            obtain rfl := Op.sql.inj same
            exact .spend rfl presented
          · dsimp only
            split
            · exact refused _ _
            · rename_i spent
              exact passed _ (.push mode configured kind presented spent (last _ _))
      · rename_i kind
        split
        · exact refused _ _
        · rename_i url address
          refine .bind (perform_sat (.callHook url req.pubkey) fun reply =>
            ⟨keeps_read rfl, ?_⟩)
          cases reply with
          | error e => exact refused _ _
          | ok allowed =>
              dsimp only
              split
              · rename_i yes
                have agreed : allowed = some true := by
                  cases allowed with
                  | none => cases yes
                  | some b => exact congrArg some yes
                refine passed _ (.hook mode configured kind address ?_)
                rw [← agreed]
                exact last _ _
              · exact refused _ _

theorem register_keeps (req : RegisterRequest) : Prog.Sat
    (fun seen (ev : Event signature) => Keeps A req seen ev.op) (fun _ _ => True) seen
    (register A req) := by
  unfold register
  refine .bind (checkPolicy_keeps (fun later admitted => ?_) fun _ _ => trivial)
  have admitted_on (more : List (Event signature)) : Admitted A req (later ++ more) :=
    admitted.mono (List.subset_append_left later more)
  refine .bind (.ofExcept ?_)
  cases decoded : b64Decode A req.pubkey with
  | error e => trivial
  | ok pubkey =>
      dsimp only
      split
      · trivial
      · split
        · trivial
        · refine .bind (.bind (newUuid_sat (fun _ => keeps_read rfl) fun userId => ?_))
          refine .bind (unixNow_sat (fun _ => keeps_read rfl) fun now => ?_)
          refine .bind (sql_sat (s := .insertUser _) (fun _ => ?_) (fun _ => ?_) trivial)
          · rintro statement same -
            obtain rfl := Op.sql.inj same
            rw [List.append_assoc]
            exact .account rfl (admitted_on _) rfl
          · refine .bind (.bind (newUuid_sat (fun _ => keeps_read rfl) fun deviceId => ?_))
            refine .bind (unixNow_sat (fun _ => keeps_read rfl) fun registered => ?_)
            refine .bind (sql_sat (s := .insertDevice _) (fun _ => ?_) (fun _ => trivial) trivial)
            rintro statement same -
            obtain rfl := Op.sql.inj same
            simp only [List.append_assoc]
            refine .device rfl (admitted_on _) (?_ : (⟨.sql (.insertUser
              ⟨userId, asI64 now, false, none, 0⟩), some ()⟩ : Event signature) ∈ _) rfl decoded
            simp

end Register

theorem suspended_sat (key : Option String) (v : String) (req : Admin.SuspendRequest) :
    Prog.Sat (fun _ (ev : Event signature) => ev.op.kind = .suspend →
      key.getD "" = A.config.adminApiKey) (fun _ _ => True) seen
      (Admin.suspendUser A key v req) := by
  unfold Admin.suspendUser Admin.requireAdminKey
  split
  · rename_i admin
    exact (Prog.uses_all _).sat fun _ _ _ _ => admin
  · trivial

theorem unsuspended_sat (key : Option String) (v : String) :
    Prog.Sat (fun _ (ev : Event signature) => ev.op.kind = .suspend →
      key.getD "" = A.config.adminApiKey) (fun _ _ => True) seen
      (Admin.unsuspendUser A key v) := by
  unfold Admin.unsuspendUser Admin.requireAdminKey
  split
  · rename_i admin
    exact (Prog.uses_all _).sat fun _ _ _ _ => admin
  · trivial

theorem handle_flag_sat (c : Call) : Prog.Sat
    (fun _ (ev : Event signature) => ev.op.kind = .suspend → HoldsKey A c)
    (fun _ _ => True) [] (handle A c) := by
  cases c
  case suspendUser key v req => exact reply_sat (suspended_sat key v req)
  case unsuspendUser key v => exact reply_sat (unsuspended_sat key v)
  all_goals exact spared_sat .suspend (by decide) rfl

theorem deletion_sat (authorization : Option String) (r : String) : Prog.Sat
    (fun (seen : List (Event signature)) ev => ev.op.kind = .deleteRelationship →
      ∃ token claims, bearerToken authorization = some token ∧
        ⟨.jwtVerify token, .ok claims⟩ ∈ seen ∧ ev.op = .sql (.deleteRelationship r claims.sub))
    (fun _ _ => True) seen (Relationships.revoke authorization r) := by
  unfold Relationships.revoke
  refine .bind (fromRequestParts_sat (fun _ _ => nofun) ?_ fun _ _ => trivial)
  intro token claims bearer
  refine .bind (.bind (sql_sat (s := .selectRelationship r claims.sub) (fun _ => nofun)
    (fun row => ?_) trivial))
  cases row with
  | none => trivial
  | some row =>
      refine .bind (.bind (sql_sat (s := .deleteRelationship r claims.sub) (fun _ _ => ?_)
        (fun rows => ?_) trivial))
      · exact ⟨token, claims, bearer, by simp, rfl⟩
      · dsimp only
        split
        · trivial
        · have kicks (v : String) := Broker.kickUser_quiet (K := [.cutoff, .kick]) (by simp)
            (by simp) v
          have idle {s : List (Event signature)} {ev : Event signature} {Q : Prop}
              (quiet : Quiet [.cutoff, .kick] ev.op) : ev.op.kind = .deleteRelationship → Q := by
            intro deletes
            rcases quiet.1 with read | mem
            · rw [deletes] at read
              cases read
            · rw [deletes] at mem
              simp at mem
          refine (Prog.sat_done _).mpr ((kicks claims.sub).sat_bind
            (fun s _ quiet => idle (s := s) quiet) (fun s _ => ?_) fun _ _ => ?_)
          · exact (kicks row.peerId).sat fun s _ quiet => idle (s := s) quiet
          · trivial

theorem handle_deletion_sat (c : Call) : Prog.Sat
    (fun (seen : List (Event signature)) ev => ev.op.kind = .deleteRelationship →
      ∃ r u, ev.op = .sql (.deleteRelationship r u) ∧ Bears c seen u)
    (fun _ _ => True) [] (handle A c) := by
  cases c
  case revokeRelationship authorization r =>
    refine reply_sat ((deletion_sat authorization r).mono (fun s ev h k => ?_) fun _ _ _ => trivial)
    obtain ⟨token, claims, bearer, verified, op⟩ := h k
    exact ⟨r, claims.sub, op, authorization, token, claims, rfl, bearer, verified, rfl⟩
  all_goals exact spared_sat .deleteRelationship (by decide) rfl

def registrations : List Kind := [.insertUser, .insertDevice, .consumeRegistrationToken]

private theorem unregistered_sat {c : Call}
    (absent : (c.footprint.all fun j => j ∉ registrations) = true) : Prog.Sat
    (fun (seen : List (Event signature)) ev => ∀ statement, ev.op = .sql statement →
      statement.kind ∈ registrations → Authorized A c seen statement)
    (fun _ _ => True) [] (handle A c) := by
  refine (handle_within A c).sat fun s ev within statement op mem => ?_
  rw [op] at within
  rcases within with read | listed
  · rw [show statement.kind = .read from read] at mem
    simp [registrations] at mem
  · have other := List.all_eq_true.mp absent _ listed
    rw [decide_eq_true_eq] at other
    exact absurd mem other

theorem handle_register_keeps (c : Call) : Prog.Sat
    (fun (seen : List (Event signature)) ev => ∀ statement, ev.op = .sql statement →
      statement.kind ∈ registrations → Authorized A c seen statement)
    (fun _ _ => True) [] (handle A c) := by
  cases c
  case register req =>
    refine reply_sat ((Register.register_keeps req).mono (fun s ev h statement op mem => ?_)
      fun _ _ _ => trivial)
    refine h statement op fun read => ?_
    rw [read] at mem
    simp [registrations] at mem
  all_goals exact unregistered_sat (by simp [Call.footprint, registrations])

end Smqtt
