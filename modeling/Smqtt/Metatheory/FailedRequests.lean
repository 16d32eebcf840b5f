import Smqtt.Library.ErrorSafety
import Smqtt.Metatheory.ReportedSuccess
import Smqtt.Runs.Interleaved

/-!
Requests that fail leave no trace. In every handler but `register` and `verify` all
that stands before the last fallible step is a read, a draw or a statement that
changed nothing, and what comes after it no longer fails, since `kick_user` and the
discarded deletion keep their errors to themselves. The handlers are transactional in
the sense of the library, so the statement holds of uninterrupted requests and of
requests that others interrupt alike.
-/

namespace Smqtt

open AtomicSteps AtomicSteps.Prog System

variable {A : AppState} {α β : Type}

/-- The worlds differ at most in how many draws and statements were made. -/
def Untouched (w v : World) : Prop :=
  v = { w with draws := v.draws, statements := v.statements }

theorem Untouched.refl (w : World) : Untouched w w := rfl

theorem Untouched.trans {u v w : World} (first : Untouched u v) (second : Untouched v w) :
    Untouched u w := by
  unfold Untouched at *
  rw [second, first]

theorem Untouched.counted (w : World) : Untouched w w.counted := rfl

/-- A message published by the server itself. -/
def Op.publishes : Op → Option (String × SystemMessage)
  | .publishSystem topic message => some (topic, message)
  | _ => none

/-- The messages an uninterrupted execution publishes. -/
def published (A : AppState) (p : Handler α) (w : World) : List (String × SystemMessage) :=
  (p.events (exec A) w).filterMap fun e => e.op.publishes

/-- Whatever the world, the operation so answered changes nothing, kicks no client and
publishes no message. -/
structure Inert (A : AppState) (ev : Event signature) : Prop where
  untouched : ∀ w, (exec A ev.op w).1 = ev.answer → Untouched w (exec A ev.op w).2
  kicks : ev.op.kicks = none
  publishes : ev.op.publishes = none

theorem inert_sql {s : Statement} {x : Option s.Answer}
    (idle : ∀ y db db', x = some y → s.execute db = some (y, db') → db' = db) :
    Inert A ⟨.sql s, x⟩ := by
  refine ⟨fun w answer => ?_, rfl, rfl⟩
  rcases exec_sql_cases A w s with failed | ⟨y, db, -, executed, done⟩
  · rw [failed]
    exact .counted w
  · rw [done] at answer ⊢
    obtain rfl := idle y w.db db answer.symm executed
    exact .counted w

theorem inert_failed (s : Statement) : Inert A ⟨.sql s, none⟩ :=
  inert_sql nofun

theorem Statement.execute_read {s : Statement} (read : s.kind = .read) {db db' : Database}
    {x : s.Answer} (h : s.execute db = some (x, db')) : db' = db := by
  cases s <;> first | exact (Prod.mk.inj (Option.some.inj h)).2.symm | cases read

theorem inert_read {op : Op} (read : op.kind = .read) (x : op.Answer) :
    Inert A ⟨op, x⟩ := by
  cases op with
  | sql s => exact inert_sql fun _ _ _ _ h => Statement.execute_read read h
  | unixNow => exact ⟨fun _ _ => rfl, rfl, rfl⟩
  | newUuid => exact ⟨fun _ _ => rfl, rfl, rfl⟩
  | fillBytes => exact ⟨fun _ _ => rfl, rfl, rfl⟩
  | sessionsGet clientId => exact ⟨fun _ _ => rfl, rfl, rfl⟩
  | jwtVerify token => exact ⟨fun _ _ => rfl, rfl, rfl⟩
  | callHook url pubkey => exact ⟨fun _ _ => rfl, rfl, rfl⟩
  | _ => cases read

/-- An update of no row is none. -/
theorem updateWhere_uncounted {p : α → Bool} {f : α → α} {rows : List α}
    (none : rows.countP p = 0) : updateWhere p f rows = rows :=
  updateWhere_none (List.any_eq_false.mpr (List.countP_eq_zero.mp none))

theorem inert_updateSuspended (b : Bool) (reason : Option String) (u : String) :
    Inert A ⟨.sql (.updateSuspended b reason u), some (0 : Nat)⟩ := by
  refine inert_sql fun y db db' zero executed => ?_
  obtain rfl := Option.some.inj zero
  obtain ⟨none, rfl⟩ := Prod.mk.inj (Option.some.inj executed)
  rw [Database.updateUser, updateWhere_uncounted none]

theorem inert_deleteRelationship (r u : String) :
    Inert A ⟨.sql (.deleteRelationship r u), some (0 : Nat)⟩ := by
  refine inert_sql fun y db db' zero executed => ?_
  obtain rfl := Option.some.inj zero
  obtain ⟨none, rfl⟩ := Prod.mk.inj (Option.some.inj executed)
  have all := List.countP_eq_zero.mp none
  rw [List.filter_eq_self.mpr fun row mem => by
    simpa [imp_iff_not_or] using all row mem]

theorem inert_updateResponderPubkey (key : List UInt8) (e : String) :
    Inert A ⟨.sql (.updateResponderPubkey key e), some (0 : Nat)⟩ := by
  refine inert_sql fun y db db' zero executed => ?_
  obtain rfl := Option.some.inj zero
  obtain ⟨none, rfl⟩ := Prod.mk.inj (Option.some.inj executed)
  rw [Database.updateExchange, updateWhere_uncounted none]

/-- A program that only reads. -/
theorem only_of_quiet {p : Handler α} (quiet : p.Uses (Quiet [])) : p.Only (Inert A) :=
  quiet.only fun _ within => inert_read (within.1.resolve_right List.not_mem_nil)

/-- A statement whose failure is returned, and whose answer decides what follows. -/
theorem sql_transactional {s : Statement} {f : s.Answer → Handler β}
    (answered : ∀ x, (f x).Succeeds ∨
      Inert A ⟨.sql s, some x⟩ ∧ (f x).Transactional (Inert A)) :
    (sql s >>= f).Transactional (Inert A) := by
  intro x
  cases x with
  | none => exact Or.inl ⟨inert_failed s, trivial⟩
  | some x => exact (answered x).symm

theorem setSuspended_transactional (u : String) (b : Bool) (reason : Option String) :
    (Db.setSuspended u b reason).Transactional (Inert A) := by
  refine sql_transactional fun rows => ?_
  split
  · rename_i zero
    exact Or.inr ⟨zero ▸ inert_updateSuspended b reason u, trivial⟩
  · exact Or.inl trivial

theorem deleteRelationship_transactional (u r : String) :
    (Db.deleteRelationship u r).Transactional (Inert A) := by
  refine sql_transactional fun rows => ?_
  split
  · rename_i zero
    exact Or.inr ⟨zero ▸ inert_deleteRelationship r u, trivial⟩
  · exact Or.inl trivial

theorem setResponderPubkey_transactional (e : String) (key : List UInt8) :
    (Db.setResponderPubkey e key).Transactional (Inert A) := by
  refine sql_transactional fun rows => ?_
  split
  · rename_i zero
    exact Or.inr ⟨zero ▸ inert_updateResponderPubkey key e, trivial⟩
  · exact Or.inl trivial

theorem createRelationship_transactional (u p : String) (ps ss : List String) :
    (Db.createRelationship u p ps ss).Transactional (Inert A) :=
  .bind (only_of_quiet newUuid_quiet) fun _ => .bind (only_of_quiet unixNow_quiet) fun _ =>
    sql_transactional fun _ => Or.inl trivial

theorem createExchange_transactional (i r : String) (key : List UInt8) :
    (Db.createExchange i r key).Transactional (Inert A) :=
  .bind (only_of_quiet newUuid_quiet) fun _ => .bind (only_of_quiet unixNow_quiet) fun _ =>
    .bind (only_of_quiet unixNow_quiet) fun _ => sql_transactional fun _ => Or.inl trivial

theorem createRegistrationToken_transactional (hash : List UInt8) (x : UInt64) (m : Int64) :
    (Db.createRegistrationToken hash x m).Transactional (Inert A) :=
  .bind (only_of_quiet newUuid_quiet) fun _ => .bind (only_of_quiet unixNow_quiet) fun _ =>
    .bind (only_of_quiet unixNow_quiet) fun _ => sql_transactional fun _ => Or.inl trivial

theorem kickDevices_succeeds (devices : List Device) : (Broker.kickDevices devices).Succeeds := by
  induction devices with
  | nil => trivial
  | cons d ds ih => exact (Succeeds.perform _).bind fun _ => ih

/-- A kick keeps its errors to itself. -/
theorem kickUser_succeeds (u : String) : (Broker.kickUser u).Succeeds := by
  refine (Succeeds.attempt _).bind fun _ => (Succeeds.attempt _).bind fun devices => ?_
  cases devices with
  | ok devices => exact kickDevices_succeeds devices
  | error e => trivial

theorem publishSystem_succeeds (topic : String) (message : SystemMessage) :
    (Broker.publishSystem topic message).Succeeds := .perform _

/-- The calls that undo nothing: the API without `register` and `verify`. -/
def Call.traceless : Call → Bool
  | .challenge _ | .createRelationship _ _ | .listRelationships _ => true
  | .revokeRelationship _ _ | .initiateExchange _ _ | .getExchange _ _ => true
  | .respondExchange _ _ _ | .createRegistrationToken _ _ => true
  | .suspendUser _ _ _ | .unsuspendUser _ _ => true
  | _ => false

theorem challenge_transactional (q : Auth.ChallengeQuery) :
    (Auth.challenge q).Transactional (Inert A) :=
  .bind (only_of_quiet (Db.getUser_quiet _)) fun _ =>
    Succeeds.transactional ((Succeeds.perform _).bind fun _ => (Succeeds.perform _).bind fun _ =>
      (Succeeds.perform _).bind fun _ => trivial)

theorem create_transactional (authorization : Option String)
    (req : Relationships.CreateRequest) :
    (Relationships.create authorization req).Transactional (Inert A) :=
  .bind (only_of_quiet (fromRequestParts_quiet _)) fun _ =>
    (createRelationship_transactional _ _ _ _).commit fun _ => trivial

theorem list_transactional (authorization : Option String) :
    (Relationships.list authorization).Transactional (Inert A) :=
  .bind (only_of_quiet (fromRequestParts_quiet _)) fun _ =>
    .bind (only_of_quiet (Db.listRelationships_quiet _)) fun _ => trivial

theorem revoke_transactional (authorization : Option String) (r : String) :
    (Relationships.revoke authorization r).Transactional (Inert A) :=
  .bind (only_of_quiet (fromRequestParts_quiet _)) fun _ =>
    .bind (only_of_quiet (Db.getRelationship_quiet _ _)) fun _ =>
      (deleteRelationship_transactional _ _).commit fun _ =>
        (kickUser_succeeds _).bind fun _ => kickUser_succeeds _

theorem initiate_transactional (authorization : Option String)
    (req : Exchange.InitiateRequest) :
    (Exchange.initiate A authorization req).Transactional (Inert A) :=
  .bind (only_of_quiet (fromRequestParts_quiet _)) fun _ =>
    .bind (only_of_quiet (Db.getUser_quiet _)) fun _ => .bind (.ofExcept _) fun _ =>
      (createExchange_transactional _ _ _).commit fun _ =>
        (publishSystem_succeeds _ _).bind fun _ => trivial

theorem getExchange_only (e : String) : (Db.getExchange e).Only (Inert A) :=
  (Db.getExchange_within (K := []) e).only fun _ within =>
    inert_read (within.resolve_right List.not_mem_nil)

/-- The deletion at the end of `get` is an attempt. -/
theorem get_transactional (authorization : Option String) (e : String) :
    (Exchange.get authorization e).Transactional (Inert A) := by
  refine .bind (only_of_quiet (fromRequestParts_quiet _)) fun _ =>
    .bind (getExchange_only e) fun ex => ?_
  split
  · trivial
  · dsimp only
    split
    · exact Succeeds.transactional ((Succeeds.attempt _).bind fun _ => trivial)
    · trivial

theorem respond_transactional (authorization : Option String) (e : String)
    (req : Exchange.RespondRequest) :
    (Exchange.respond A authorization e req).Transactional (Inert A) := by
  refine .bind (only_of_quiet (fromRequestParts_quiet _)) fun _ =>
    .bind (getExchange_only e) fun ex => ?_
  split
  · trivial
  · split
    · trivial
    · exact .bind (.ofExcept _) fun _ => (setResponderPubkey_transactional _ _).commit fun _ =>
        (publishSystem_succeeds _ _).bind fun _ => trivial

theorem mint_transactional (adminKey : Option String) (req : Admin.CreateTokenRequest) :
    (Admin.createRegistrationToken A adminKey req).Transactional (Inert A) :=
  .bind (only_of_quiet (requireAdminKey_quiet _ _)) fun _ =>
    .bind (.perform fun _ => inert_read rfl _) fun _ =>
      (createRegistrationToken_transactional _ _ _).commit fun _ => trivial

theorem suspendUser_transactional (adminKey : Option String) (u : String)
    (req : Admin.SuspendRequest) :
    (Admin.suspendUser A adminKey u req).Transactional (Inert A) :=
  .bind (only_of_quiet (requireAdminKey_quiet _ _)) fun _ =>
    (setSuspended_transactional _ _ _).commit fun _ => kickUser_succeeds _

theorem unsuspendUser_transactional (adminKey : Option String) (u : String) :
    (Admin.unsuspendUser A adminKey u).Transactional (Inert A) :=
  .bind (only_of_quiet (requireAdminKey_quiet _ _)) fun _ => setSuspended_transactional _ _ _

theorem reply_transactional {p : Handler α} (f : α → Reply)
    (hp : p.Transactional (Inert A)) : (Prog.reply p f).Transactional (Inert A) :=
  hp.commit fun _ => trivial

theorem handle_transactional {c : Call} (traceless : c.traceless = true) :
    (handle A c).Transactional (Inert A) := by
  cases c with
  | challenge q => exact reply_transactional _ (challenge_transactional q)
  | createRelationship authorization req =>
      exact reply_transactional _ (create_transactional authorization req)
  | listRelationships authorization =>
      exact reply_transactional _ (list_transactional authorization)
  | revokeRelationship authorization r =>
      exact reply_transactional _ (revoke_transactional authorization r)
  | initiateExchange authorization req =>
      exact reply_transactional _ (initiate_transactional authorization req)
  | getExchange authorization e =>
      exact reply_transactional _ (get_transactional authorization e)
  | respondExchange authorization e req =>
      exact reply_transactional _ (respond_transactional authorization e req)
  | createRegistrationToken adminKey req =>
      exact reply_transactional _ (mint_transactional adminKey req)
  | suspendUser adminKey u req =>
      exact reply_transactional _ (suspendUser_transactional adminKey u req)
  | unsuspendUser adminKey u =>
      exact reply_transactional _ (unsuspendUser_transactional adminKey u)
  | _ => cases traceless

/-- Under any interleaving, a request that has failed has changed nothing. -/
theorem failed_thread_inert {allowed : Scheduling} {h : PoolLog} {s : Threads}
    (run : PoolRun A allowed h s) {i : Nat} {c : Call} {e : Error}
    (traceless : c.traceless = true) (failed : s.threads[i]? = some (c, .fail e)) :
    ∀ entry ∈ h, ∀ ev, Does entry i ev → Inert A ev ∧
      Untouched entry.before.world entry.after.world := by
  intro entry mem ev does
  have harmless := (handle_transactional (A := A) traceless).path (threads_path run failed) ev
    (mem_eventsOf.mpr ⟨entry, mem, does⟩)
  obtain ⟨answer, after⟩ := event_exec run mem does
  refine ⟨harmless, ?_⟩
  rw [after]
  exact harmless.untouched _ answer.symm

/-- A request that fails leaves the database and the maps as they were, kicks nobody
and publishes nothing. -/
theorem failed_leaves_no_trace {c : Call} {w v : World} {e : Error}
    (traceless : c.traceless = true) (failed : (handle A c).run (exec A) w = (.error e, v)) :
    v.db = w.db ∧ v.challenges = w.challenges ∧ v.sessions = w.sessions ∧
      v.connections = w.connections ∧ v.systemMessages = w.systemMessages ∧
      kicks A (handle A c) w = [] ∧ published A (handle A c) w = [] := by
  have harmless := (handle_transactional (A := A) traceless).events failed
  have same : Untouched w v := by
    have related := run_related (R := Untouched) .refl .trans
      fun ev mem => (harmless ev mem).untouched
    rwa [failed] at related
  refine ⟨?_, ?_, ?_, ?_, ?_, ?_, ?_⟩
  · rw [same]
  · rw [same]
  · rw [same]
  · rw [same]
  · rw [same]
  · exact List.filterMap_eq_nil_iff.mpr fun ev mem => (harmless ev mem).kicks
  · exact List.filterMap_eq_nil_iff.mpr fun ev mem => (harmless ev mem).publishes

/-- The suspension whose first statement fails: no flag, no cutoff and no kick. -/
theorem failed_leaves_no_trace_suspension :
    ((handle (failing 2) suspendOne).run (exec (failing 2)) registered).1 = .error .database ∧
    ((handle (failing 2) suspendOne).run (exec (failing 2)) registered).2.db = registered.db ∧
    kicks (failing 2) (handle (failing 2) suspendOne) registered = [] := by
  have failed : ((handle (failing 2) suspendOne).run (exec (failing 2)) registered).1 =
      .error .database := by decide +kernel
  obtain ⟨db, -, -, -, -, none, -⟩ := failed_leaves_no_trace (A := failing 2) (c := suspendOne)
    (w := registered) rfl (Prod.ext failed rfl)
  exact ⟨failed, db, none⟩

end Smqtt
