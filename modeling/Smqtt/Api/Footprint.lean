import Smqtt.Api.Handlers

/-!
Which effects each call can have. A program stays `Within` a list of kinds when
every operation it can reach is a read or of a listed kind, and is `Quiet` when it
never looks up an exchange either; `handle_within` gives the list of every call, and
the frame rule turns it into statements about the parts of the world a call leaves
alone.
-/

namespace Smqtt

open AtomicSteps

def Within (K : List Kind) (op : Op) : Prop := op.kind = .read ∨ op.kind ∈ K

variable {K : List Kind} {α β : Type}

/-- The operation looks up the row of an exchange. -/
def Op.looksUp : Op → Bool
  | .sql (.selectExchange _) => true
  | _ => false

/-- Within the kinds, and no look at an exchange. -/
def Quiet (K : List Kind) (op : Op) : Prop := Within K op ∧ op.looksUp = false

theorem quiet_read {op : Op} (h : op.kind = .read) (other : op.looksUp = false) :
    Quiet K op := ⟨Or.inl h, other⟩

theorem quiet_mem {op : Op} (h : op.kind ∈ K) (other : op.looksUp = false) :
    Quiet K op := ⟨Or.inr h, other⟩

theorem Quiet.within {p : Handler α} (quiet : p.Uses (Quiet K)) : p.Uses (Within K) :=
  quiet.mono fun _ h => h.1

theorem perform_quiet {op : Op} (h : Quiet K op) :
    (Prog.perform (S := signature) op : Handler op.Answer).Uses (Quiet K) :=
  ⟨h, fun _ => trivial⟩

theorem sql_quiet {s : Statement} (h : Quiet K (.sql s)) : (sql s).Uses (Quiet K) := by
  refine ⟨h, fun x => ?_⟩
  cases x <;> trivial

theorem ofExcept_quiet (r : Except Error α) :
    (Prog.ofExcept r : Handler α).Uses (Quiet K) := by
  cases r <;> trivial

theorem unixNow_quiet : unixNow.Uses (Quiet K) := perform_quiet (quiet_read rfl rfl)

theorem newUuid_quiet : newUuid.Uses (Quiet K) := perform_quiet (quiet_read rfl rfl)

namespace Db

theorem createUser_quiet (h : .insertUser ∈ K) : createUser.Uses (Quiet K) :=
  .bind newUuid_quiet fun _ => .bind unixNow_quiet fun _ =>
    .bind (sql_quiet (quiet_mem h rfl)) fun _ => trivial

theorem getUser_quiet (u : String) : (getUser u).Uses (Quiet K) := by
  refine .bind (sql_quiet (quiet_read rfl rfl)) fun row => ?_
  cases row <;> trivial

theorem invalidateTokens_quiet (h : .cutoff ∈ K) (u : String) :
    (invalidateTokens u).Uses (Quiet K) :=
  .bind unixNow_quiet fun _ => .bind (sql_quiet (quiet_mem h rfl)) fun _ => trivial

theorem setSuspended_quiet (h : .suspend ∈ K) (u : String) (b : Bool) (r : Option String) :
    (setSuspended u b r).Uses (Quiet K) := by
  refine .bind (sql_quiet (quiet_mem h rfl)) fun rows => ?_
  split <;> trivial

theorem createDevice_quiet (h : .insertDevice ∈ K) (u : String) (key : List UInt8) :
    (createDevice u key).Uses (Quiet K) :=
  .bind newUuid_quiet fun _ => .bind unixNow_quiet fun _ =>
    .bind (sql_quiet (quiet_mem h rfl)) fun _ => trivial

theorem getDeviceByUser_quiet (u : String) : (getDeviceByUser u).Uses (Quiet K) :=
  sql_quiet (quiet_read rfl rfl)

theorem createRelationship_quiet (h : .insertRelationship ∈ K) (u p : String)
    (ps ss : List String) : (createRelationship u p ps ss).Uses (Quiet K) :=
  .bind newUuid_quiet fun _ => .bind unixNow_quiet fun _ =>
    .bind (sql_quiet (quiet_mem h rfl)) fun _ => trivial

theorem listRelationships_quiet (u : String) : (listRelationships u).Uses (Quiet K) :=
  sql_quiet (quiet_read rfl rfl)

theorem getRelationship_quiet (u r : String) : (getRelationship u r).Uses (Quiet K) := by
  refine .bind (sql_quiet (quiet_read rfl rfl)) fun row => ?_
  cases row <;> trivial

theorem deleteRelationship_quiet (h : .deleteRelationship ∈ K) (u r : String) :
    (deleteRelationship u r).Uses (Quiet K) := by
  refine .bind (sql_quiet (quiet_mem h rfl)) fun rows => ?_
  split <;> trivial

theorem userTopics_quiet (u : String) : (userTopics u).Uses (Quiet K) :=
  .bind (listRelationships_quiet u) fun _ => trivial

theorem createExchange_quiet (h : .insertExchange ∈ K) (i r : String) (key : List UInt8) :
    (createExchange i r key).Uses (Quiet K) :=
  .bind newUuid_quiet fun _ => .bind unixNow_quiet fun _ => .bind unixNow_quiet fun _ =>
    .bind (sql_quiet (quiet_mem h rfl)) fun _ => trivial

theorem getExchange_within (e : String) : (getExchange e).Uses (Within K) := by
  refine .bind ?_ fun row => ?_
  · refine ⟨Or.inl rfl, fun x => ?_⟩
    cases x <;> trivial
  · cases row <;> trivial

theorem setResponderPubkey_quiet (h : .respondExchange ∈ K) (e : String)
    (key : List UInt8) : (setResponderPubkey e key).Uses (Quiet K) := by
  refine .bind (sql_quiet (quiet_mem h rfl)) fun rows => ?_
  split <;> trivial

theorem deleteExchange_quiet (h : .deleteExchange ∈ K) (e : String) :
    (deleteExchange e).Uses (Quiet K) :=
  .bind (sql_quiet (quiet_mem h rfl)) fun _ => trivial

theorem purgeExpiredExchanges_quiet (h : .purgeExchanges ∈ K) :
    purgeExpiredExchanges.Uses (Quiet K) :=
  .bind unixNow_quiet fun _ => sql_quiet (quiet_mem h rfl)

theorem createRegistrationToken_quiet (h : .insertRegistrationToken ∈ K)
    (hash : List UInt8) (x : UInt64) (m : Int64) :
    (createRegistrationToken hash x m).Uses (Quiet K) :=
  .bind newUuid_quiet fun _ => .bind unixNow_quiet fun _ => .bind unixNow_quiet fun _ =>
    .bind (sql_quiet (quiet_mem h rfl)) fun _ => trivial

theorem consumeRegistrationToken_quiet (h : .consumeRegistrationToken ∈ K)
    (hash : List UInt8) : (consumeRegistrationToken hash).Uses (Quiet K) := by
  refine .bind unixNow_quiet fun _ => .bind (sql_quiet (quiet_mem h rfl)) fun rows => ?_
  split <;> trivial

end Db

theorem authenticate_quiet (h : .insertSession ∈ K) (info : ConnectInfo) :
    (AuthHook.authenticate info).Uses (Quiet K) := by
  unfold AuthHook.authenticate
  split
  · refine .bind (perform_quiet (quiet_read rfl rfl)) fun verified => ?_
    split
    · trivial
    · split
      · trivial
      · refine .bind (Db.getUser_quiet _).attempt fun user => ?_
        split
        · trivial
        · split
          · trivial
          · split
            · trivial
            · exact .bind (perform_quiet (quiet_mem h rfl)) fun _ => trivial
  · trivial

theorem checkSubscribeAcl_quiet (session : Session) (sub : Subscribe) :
    (AuthHook.checkSubscribeAcl session sub).Uses (Quiet K) := by
  refine .bind (perform_quiet (quiet_read rfl rfl)) fun claims => ?_
  dsimp only
  split <;> split <;> trivial

theorem execHook_quiet {param : Parameter} (h : (AuthHook.hook param none).Uses (Quiet K)) :
    (Broker.execHook param).Uses (Quiet K) := by
  unfold Broker.execHook
  split
  · exact .bind h fun _ => trivial
  · trivial

namespace Broker

theorem connect_quiet (hs : .insertSession ∈ K) (ha : .accept ∈ K) (info : ConnectInfo) :
    (connect info).Uses (Quiet K) := by
  refine .bind (execHook_quiet (authenticate_quiet hs info)) fun result => ?_
  split
  · exact .bind (perform_quiet (quiet_mem ha rfl)) fun _ => trivial
  · trivial

theorem subscribe_quiet (h : .grant ∈ K) (session : Session) (sub : Subscribe) :
    (subscribe session sub).Uses (Quiet K) := by
  refine .bind (execHook_quiet (checkSubscribeAcl_quiet session sub)) fun result => ?_
  split
  · trivial
  · exact .bind (perform_quiet (quiet_mem h rfl)) fun _ => trivial

theorem publish_quiet (h : .forward ∈ K) (session : Session) (topic : String) :
    (publish session topic).Uses (Quiet K) := by
  refine .bind (execHook_quiet trivial) fun result => ?_
  split
  · trivial
  · exact perform_quiet (quiet_mem h rfl)

theorem disconnected_quiet (hc : .close ∈ K) (hs : .removeSession ∈ K) (session : Session) :
    (disconnected session).Uses (Quiet K) := by
  refine .bind (perform_quiet (quiet_mem hc rfl)) fun _ => ?_
  refine .bind (execHook_quiet ?_) fun _ => trivial
  exact .bind (perform_quiet (quiet_mem hs rfl)) fun _ => trivial

theorem publishSystem_quiet (h : .publishSystem ∈ K) (topic : String)
    (message : SystemMessage) : (publishSystem topic message).Uses (Quiet K) :=
  perform_quiet (quiet_mem h rfl)

theorem kickDevices_quiet (h : .kick ∈ K) (devices : List Device) :
    (kickDevices devices).Uses (Quiet K) := by
  induction devices with
  | nil => trivial
  | cons d ds ih => exact .bind (perform_quiet (quiet_mem h rfl)) fun _ => ih

theorem kickUser_quiet (hk : .kick ∈ K) (hc : .cutoff ∈ K) (u : String) :
    (kickUser u).Uses (Quiet K) := by
  refine .bind (Db.invalidateTokens_quiet hc u).attempt fun _ => ?_
  refine .bind (Db.getDeviceByUser_quiet u).attempt fun devices => ?_
  split
  · exact kickDevices_quiet hk _
  · trivial

end Broker

theorem fromRequestParts_quiet (authorization : Option String) :
    (AuthUser.fromRequestParts authorization).Uses (Quiet K) := by
  unfold AuthUser.fromRequestParts
  dsimp only
  split
  · trivial
  · exact .bind (perform_quiet (quiet_read rfl rfl)) fun _ =>
      .bind (ofExcept_quiet _) fun _ => trivial

theorem requireAdminKey_quiet (provided : Option String) (expected : String) :
    (Admin.requireAdminKey provided expected).Uses (Quiet K) := by
  unfold Admin.requireAdminKey
  split <;> trivial

theorem challenge_quiet (h : .insertChallenge ∈ K) (q : Auth.ChallengeQuery) :
    (Auth.challenge q).Uses (Quiet K) :=
  .bind (Db.getUser_quiet _) fun _ => .bind (perform_quiet (quiet_read rfl rfl)) fun _ =>
    .bind unixNow_quiet fun _ => .bind (perform_quiet (quiet_mem h rfl)) fun _ => trivial

variable (A : AppState)

theorem verify_quiet (hr : .removeChallenge ∈ K) (hi : .issue ∈ K)
    (req : Auth.VerifyRequest) : (Auth.verify A req).Uses (Quiet K) := by
  refine .bind (perform_quiet (quiet_mem hr rfl)) fun entry => ?_
  split
  · trivial
  · refine .bind unixNow_quiet fun now => ?_
    split
    · trivial
    · refine .bind (Db.getUser_quiet _) fun user => ?_
      split
      · trivial
      · refine .bind (Db.getDeviceByUser_quiet _) fun devices => ?_
        split
        · trivial
        · split
          · trivial
          · split
            · trivial
            · refine .bind (ofExcept_quiet _) fun sig => ?_
              split
              · trivial
              · split
                · trivial
                · exact .bind (Db.userTopics_quiet _) fun topics =>
                    .bind (perform_quiet (quiet_mem hi rfl)) fun token => ofExcept_quiet _

theorem checkPolicy_quiet (h : .consumeRegistrationToken ∈ K)
    (req : Register.RegisterRequest) : (Register.checkPolicy A req).Uses (Quiet K) := by
  unfold Register.checkPolicy
  split
  · trivial
  · trivial
  · split
    · trivial
    · split
      · split
        · trivial
        · exact Db.consumeRegistrationToken_quiet h _
      · split
        · trivial
        · refine .bind (perform_quiet (quiet_read rfl rfl)) fun reply => ?_
          split
          · trivial
          · split <;> trivial

theorem register_quiet (hc : .consumeRegistrationToken ∈ K) (hu : .insertUser ∈ K)
    (hd : .insertDevice ∈ K) (req : Register.RegisterRequest) :
    (Register.register A req).Uses (Quiet K) := by
  refine .bind (checkPolicy_quiet A hc req) fun _ => .bind (ofExcept_quiet _) fun key => ?_
  split
  · trivial
  · split
    · trivial
    · exact .bind (Db.createUser_quiet hu) fun user =>
        .bind (Db.createDevice_quiet hd _ _) fun _ => trivial

theorem initiate_quiet (hi : .insertExchange ∈ K) (hp : .publishSystem ∈ K)
    (authorization : Option String) (req : Exchange.InitiateRequest) :
    (Exchange.initiate A authorization req).Uses (Quiet K) :=
  .bind (fromRequestParts_quiet _) fun _ => .bind (Db.getUser_quiet _) fun _ =>
    .bind (ofExcept_quiet _) fun _ => .bind (Db.createExchange_quiet hi _ _ _) fun _ =>
      .bind (Broker.publishSystem_quiet hp _ _) fun _ => trivial

theorem get_within (h : .deleteExchange ∈ K) (authorization : Option String) (e : String) :
    (Exchange.get authorization e).Uses (Within K) := by
  refine .bind (Quiet.within (fromRequestParts_quiet _)) fun _ => .bind (Db.getExchange_within _)
    fun _ => ?_
  split
  · trivial
  · dsimp only
    split
    · exact .bind (Quiet.within (Db.deleteExchange_quiet h _)).attempt fun _ => trivial
    · trivial

theorem respond_within (hr : .respondExchange ∈ K) (hp : .publishSystem ∈ K)
    (authorization : Option String) (e : String) (req : Exchange.RespondRequest) :
    (Exchange.respond A authorization e req).Uses (Within K) := by
  refine .bind (Quiet.within (fromRequestParts_quiet _)) fun _ => .bind (Db.getExchange_within _)
    fun _ => ?_
  split
  · trivial
  · split
    · trivial
    · exact .bind (Quiet.within (ofExcept_quiet _)) fun _ =>
        .bind (Quiet.within (Db.setResponderPubkey_quiet hr _ _)) fun _ =>
          .bind (Quiet.within (Broker.publishSystem_quiet hp _ _)) fun _ => trivial

theorem revoke_quiet (hd : .deleteRelationship ∈ K) (hk : .kick ∈ K) (hc : .cutoff ∈ K)
    (authorization : Option String) (r : String) :
    (Relationships.revoke authorization r).Uses (Quiet K) :=
  .bind (fromRequestParts_quiet _) fun _ => .bind (Db.getRelationship_quiet _ _) fun _ =>
    .bind (Db.deleteRelationship_quiet hd _ _) fun _ =>
      .bind (Broker.kickUser_quiet hk hc _) fun _ => Broker.kickUser_quiet hk hc _

theorem reply_uses {B : Op → Prop} {p : Handler α} (f : α → Reply) (h : p.Uses B) :
    (Prog.reply p f).Uses B :=
  .bind h fun _ => trivial

def Call.footprint : Call → List Kind
  | .register _ => [.consumeRegistrationToken, .insertUser, .insertDevice]
  | .challenge _ => [.insertChallenge]
  | .verify _ => [.removeChallenge, .issue]
  | .createRelationship _ _ => [.insertRelationship]
  | .listRelationships _ => []
  | .revokeRelationship _ _ => [.deleteRelationship, .cutoff, .kick]
  | .initiateExchange _ _ => [.insertExchange, .publishSystem]
  | .getExchange _ _ => [.deleteExchange]
  | .respondExchange _ _ _ => [.respondExchange, .publishSystem]
  | .createRegistrationToken _ _ => [.insertRegistrationToken]
  | .suspendUser _ _ _ => [.suspend, .cutoff, .kick]
  | .unsuspendUser _ _ => [.suspend]
  | .purge => [.purgeExchanges]
  | .connect _ => [.insertSession, .accept]
  | .subscribe _ _ => [.grant]
  | .publish _ _ => [.forward]
  | .disconnected _ => [.close, .removeSession]

/-- The call looks up the row of an exchange. -/
def Call.looksUp : Call → Bool
  | .getExchange _ _ | .respondExchange _ _ _ => true
  | _ => false

theorem handle_quiet (c : Call) (other : c.looksUp = false) :
    (handle A c).Uses (Quiet c.footprint) := by
  cases c <;> dsimp only [Call.footprint, handle]
  case register req =>
    exact reply_uses _ (register_quiet A (by decide) (by decide) (by decide) req)
  case challenge q => exact reply_uses _ (challenge_quiet (by decide) q)
  case verify req => exact reply_uses _ (verify_quiet A (by decide) (by decide) req)
  case createRelationship authorization req =>
    exact reply_uses _ (.bind (fromRequestParts_quiet _) fun _ =>
      .bind (Db.createRelationship_quiet (by decide) _ _ _ _) fun _ => trivial)
  case listRelationships authorization =>
    exact reply_uses _ (.bind (fromRequestParts_quiet _) fun _ =>
      .bind (Db.listRelationships_quiet _) fun _ => trivial)
  case revokeRelationship authorization r =>
    exact reply_uses _ (revoke_quiet (by decide) (by decide) (by decide) _ r)
  case initiateExchange authorization req =>
    exact reply_uses _ (initiate_quiet A (by decide) (by decide) _ req)
  case getExchange authorization e => cases other
  case respondExchange authorization e req => cases other
  case createRegistrationToken adminKey req =>
    exact reply_uses _ (.bind (requireAdminKey_quiet _ _) fun _ =>
      .bind (perform_quiet (quiet_read rfl rfl)) fun _ =>
        .bind (Db.createRegistrationToken_quiet (by decide) _ _ _) fun _ => trivial)
  case suspendUser adminKey u req =>
    exact reply_uses _ (.bind (requireAdminKey_quiet _ _) fun _ =>
      .bind (Db.setSuspended_quiet (by decide) _ _ _) fun _ =>
          Broker.kickUser_quiet (by decide) (by decide) _)
  case unsuspendUser adminKey u =>
    exact reply_uses _ (.bind (requireAdminKey_quiet _ _) fun _ =>
        Db.setSuspended_quiet (by decide) _ _ _)
  case purge => exact reply_uses _ (Db.purgeExpiredExchanges_quiet (by decide))
  case connect info => exact reply_uses _ (Broker.connect_quiet (by decide) (by decide) info)
  case subscribe session sub => exact reply_uses _ (Broker.subscribe_quiet (by decide) _ _)
  case publish session topic => exact reply_uses _ (Broker.publish_quiet (by decide) _ _)
  case disconnected session =>
    exact reply_uses _ (Broker.disconnected_quiet (by decide) (by decide) session)

theorem handle_within (c : Call) : (handle A c).Uses (Within c.footprint) := by
  cases looks : c.looksUp with
  | false => exact (Quiet.within (handle_quiet A c looks))
  | true =>
      cases c with
      | getExchange authorization e =>
          exact reply_uses _ (get_within (List.mem_singleton_self _) _ e)
      | respondExchange authorization e req =>
          exact reply_uses _ (respond_within A List.mem_cons_self (by simp) _ e req)
      | _ => cases looks

/-- The call has no operation on this part of the world. -/
def Call.spares (c : Call) (P : Part) : Prop := (c.footprint.all fun k => k.part ≠ P) = true

theorem Within.part_ne {c : Call} {P : Part} (hc : c.spares P) (hP : P ≠ .nothing) {op : Op}
    (h : Within c.footprint op) : op.part ≠ P := by
  rcases h with h | h
  · unfold Op.part
    rw [h]
    exact hP.symm
  · have other := List.all_eq_true.mp hc _ h
    rwa [decide_eq_true_iff] at other

theorem handle_frame {β : Type} {f : World → β} {P : Part} (hP : P ≠ .nothing)
    (keeps : ∀ op w, op.part ≠ P → f (exec A op w).2 = f w) {c : Call} (hc : c.spares P)
    (w : World) : f ((handle A c).run (exec A) w).2 = f w :=
  (handle_within A c).run_frame (fun op hop w => keeps op w (hop.part_ne hc hP)) w

variable {c : Call} (w : World)

theorem handle_clock : ((handle A c).run (exec A) w).2.clock = w.clock :=
  (Prog.uses_all _).run_frame (fun op _ w => exec_clock A op w) w

theorem handle_users (hc : c.spares .users) :
    ((handle A c).run (exec A) w).2.db.users = w.db.users :=
  handle_frame A (f := fun w => w.db.users) (by decide) (exec_users A) hc w

theorem handle_relationships (hc : c.spares .relationships) :
    ((handle A c).run (exec A) w).2.db.relationships = w.db.relationships :=
  handle_frame A (f := fun w => w.db.relationships) (by decide) (exec_relationships A) hc w

theorem handle_exchanges (hc : c.spares .exchanges) :
    ((handle A c).run (exec A) w).2.db.pendingExchanges = w.db.pendingExchanges :=
  handle_frame A (f := fun w => w.db.pendingExchanges) (by decide) (exec_exchanges A) hc w

theorem handle_sessions (hc : c.spares .sessions) :
    ((handle A c).run (exec A) w).2.sessions = w.sessions :=
  handle_frame A (by decide) (exec_sessions A) hc w

theorem handle_connections (hc : c.spares .connections) :
    ((handle A c).run (exec A) w).2.connections = w.connections :=
  handle_frame A (by decide) (exec_connections A) hc w

theorem handle_deliveries (hc : c.spares .deliveries) :
    ((handle A c).run (exec A) w).2.deliveries = w.deliveries :=
  handle_frame A (by decide) (exec_deliveries A) hc w

end Smqtt
