import Smqtt.Metatheory.CompleteMediation
import Smqtt.Metatheory.WellFormedState

/-!
Where the answers with status 500 come from. A handler gives one when a statement, the
registration hook or the signer of tokens has failed, when the configuration lacks what
its mode needs, or when a row is not what it should be. In a run the last of these does
not happen, and no statement fails over a constraint: a request that has got as far as
an insert refers to accounts that are there, by ids that are new.
-/

namespace Smqtt

open AtomicSteps AtomicSteps.Prog System

variable {A : AppState} {allowed : Scheduling} {h : PoolLog} {s : Threads} {i m n : Nat}
  {c : Call} {u token : String} {seen : List (Event signature)} {α : Type} {asks : Prop}
  {e : PoolEntry signature World Call Env Error Reply}

abbrev Error.Internal (e : Error) : Prop := e.intoResponse.1 = 500

/-- The policy of the configuration cannot be asked. -/
def Config.Incomplete (config : Config) : Prop :=
  config.registrationMode = .policy ∧ ∀ policy, config.registrationPolicy = some policy →
    policy.kind = .hook ∧ policy.hookUrl = none

/-- What a handler has seen before it fails with an internal error. Only a request that
asks the policy can find it incomplete. -/
inductive InternalCause (A : AppState) (asks : Prop) (seen : List (Event signature)) : Prop
  | statement {statement : Statement} (failed : ⟨.sql statement, none⟩ ∈ seen)
  | verification {token : String} {e : Error} (internal : e.Internal)
      (failed : ⟨.jwtVerify token, .error e⟩ ∈ seen)
  | signing {u d t : String} {ps ss : List String} {e : Error}
      (failed : ⟨.jwtIssue u d ps ss t, .error e⟩ ∈ seen)
  | hook {url pubkey reason : String} (failed : ⟨.callHook url pubkey, .error reason⟩ ∈ seen)
  | policy (asked : asks) (incomplete : A.config.Incomplete)
  | key {u : String} {devices : List Device} {device : Device}
      (read : ⟨.sql (.selectDevices u), some devices⟩ ∈ seen) (mem : device ∈ devices)
      (corrupt : ¬ValidKey A device.pubkey)

/-- Its internal errors have a cause. -/
abbrev Accountable (A : AppState) (asks : Prop) (seen : List (Event signature))
    (p : Handler α) : Prop :=
  Explained Error.Internal (InternalCause A asks) seen p

theorem refused_accountable {e : Error} (other : ¬e.Internal) :
    Accountable A asks seen (.fail e : Handler α) :=
  explained_fail fun internal => absurd internal other

theorem sql_accountable (statement : Statement) : Accountable A asks seen (sql statement) := by
  intro x
  refine ⟨trivial, ?_⟩
  cases x with
  | none => exact explained_fail fun _ => .statement List.mem_concat_self
  | some x => exact explained_done x

theorem extractor_accountable (authorization : Option String) :
    Accountable A asks seen (AuthUser.fromRequestParts authorization) := by
  unfold AuthUser.fromRequestParts
  dsimp only
  split
  · exact refused_accountable (by decide)
  · refine Sat.bind (perform_sat (.jwtVerify _) fun verified => ⟨trivial, ?_⟩)
    refine Explained.bind (explained_ofExcept fun e failed internal => ?_) fun s claims =>
      explained_done _
    rw [failed]
    exact .verification internal List.mem_concat_self

theorem badRequest_external (message : String) : ¬(Error.badRequest message).Internal := by
  intro internal
  cases internal

theorem b64Decode_refused {text : String} {e : Error} (refused : b64Decode A text = .error e) :
    ¬e.Internal := by
  unfold b64Decode at refused
  split at refused <;> cases refused
  exact badRequest_external _

theorem decodePubkey_refused {text : String} {e : Error}
    (refused : Exchange.decodePubkey A text = .error e) : ¬e.Internal := by
  unfold Exchange.decodePubkey at refused
  cases decoded : b64Decode A text with
  | error e' =>
      rw [decoded] at refused
      obtain rfl := Except.error.inj refused
      exact b64Decode_refused decoded
  | ok pubkey =>
      rw [decoded] at refused
      change (if pubkey.length ≠ 32 then _ else _) = _ at refused
      split at refused <;> cases refused
      exact badRequest_external _

theorem getUser_accountable (u : String) : Accountable A asks seen (Db.getUser u) := by
  refine Explained.bind (sql_accountable _) fun s row => ?_
  cases row with
  | none => exact refused_accountable (by decide)
  | some user => exact explained_done _

/-- A draw, a look at the clock and a statement that stores a row. -/
theorem stored_accountable {β : Type} (f : String → Nat → Statement)
    (g : (id : String) → (now : Nat) → (f id now).Answer → β) :
    Accountable A asks seen (do
      let id ← newUuid
      let now ← unixNow
      let stored ← sql (f id now)
      return g id now stored) :=
  Explained.bind (explained_perform _) fun _ _ => Explained.bind (explained_perform _) fun _ _ =>
    Explained.bind (sql_accountable _) fun _ _ => explained_done _

theorem challenge_accountable (q : Auth.ChallengeQuery) :
    Accountable A asks seen (Auth.challenge q) :=
  Explained.bind (getUser_accountable _) fun _ _ =>
    Explained.bind (explained_perform _) fun _ _ => Explained.bind (explained_perform _) fun _ _ =>
      Explained.bind (explained_perform _) fun _ _ => explained_done _

theorem verify_accountable (req : Auth.VerifyRequest) :
    Accountable A asks seen (Auth.verify A req) := by
  unfold Auth.verify
  refine Explained.bind (explained_perform _) fun s entry => ?_
  cases entry with
  | none => exact refused_accountable (by decide)
  | some entry =>
      obtain ⟨nonce, expiresAt⟩ := entry
      refine Explained.bind (explained_perform _) fun s now => ?_
      split
      · exact refused_accountable (by decide)
      refine Explained.bind (getUser_accountable _) fun s user => ?_
      split
      · exact refused_accountable (by decide)
      refine Sat.bind (getDeviceByUser_sat (fun _ => trivial) (fun devices => ?_) ?_)
      · dsimp only
        split
        · exact refused_accountable (by decide)
        rename_i device found
        have mem := List.mem_of_find?_eq_some found
        split
        · rename_i length
          exact explained_fail fun _ => .key List.mem_concat_self mem fun valid => length valid.1
        split
        · rename_i point
          exact explained_fail fun _ => .key List.mem_concat_self mem fun valid => by
            rw [valid.2] at point
            cases point
        refine Explained.bind (explained_ofExcept fun e refused internal =>
          absurd internal (b64Decode_refused refused)) fun s sigBytes => ?_
        split
        · exact refused_accountable (badRequest_external _)
        split
        · exact refused_accountable (by decide)
        refine Explained.bind (Explained.bind (sql_accountable _) fun _ _ => explained_done _)
          fun s topics => ?_
        refine Sat.bind (perform_sat (.jwtIssue ..) fun token => ⟨trivial, ?_⟩)
        refine explained_ofExcept fun e failed _ => ?_
        rw [failed]
        exact .signing List.mem_concat_self
      · exact explained_fail fun _ => .statement List.mem_concat_self

theorem checkPolicy_accountable (asked : asks) (req : Register.RegisterRequest) :
    Accountable A asks seen (Register.checkPolicy A req) := by
  unfold Register.checkPolicy
  split
  · exact refused_accountable (by decide)
  · exact explained_done _
  rename_i mode
  split
  · rename_i missing
    refine explained_fail fun _ => .policy asked ⟨mode, fun policy configured => ?_⟩
    cases missing.symm.trans configured
  rename_i policy configured
  split
  · split
    · exact refused_accountable (badRequest_external _)
    refine Explained.bind (explained_perform _) fun _ now =>
      Explained.bind (sql_accountable _) fun s rows => ?_
    split
    · exact refused_accountable (by decide)
    · exact explained_done _
  · rename_i kind
    split
    · rename_i missing
      refine explained_fail fun _ => .policy asked ⟨mode, fun policy' configured' => ?_⟩
      obtain rfl := Option.some.inj (configured.symm.trans configured')
      exact ⟨kind, missing⟩
    refine Sat.bind (perform_sat (.callHook ..) fun reply => ⟨trivial, ?_⟩)
    cases reply with
    | error reason => exact explained_fail fun _ => .hook List.mem_concat_self
    | ok allowed =>
        dsimp only
        split
        · exact explained_done _
        · exact refused_accountable (by decide)

theorem register_accountable (asked : asks) (req : Register.RegisterRequest) :
    Accountable A asks seen (Register.register A req) := by
  refine Explained.bind (checkPolicy_accountable asked req) fun s _ =>
    Explained.bind (explained_ofExcept fun e refused internal =>
      absurd internal (b64Decode_refused refused)) fun s pubkey => ?_
  split
  · exact refused_accountable (badRequest_external _)
  split
  · exact refused_accountable (badRequest_external _)
  exact Explained.bind (stored_accountable _ _) fun _ _ =>
    Explained.bind (stored_accountable _ _) fun _ _ => explained_done _

theorem requireAdminKey_accountable (key : Option String) (expected : String) :
    Accountable A asks seen (Admin.requireAdminKey key expected) := by
  unfold Admin.requireAdminKey
  split
  · exact explained_done _
  · exact refused_accountable (by decide)

theorem setSuspended_accountable (u : String) (b : Bool) (reason : Option String) :
    Accountable A asks seen (Db.setSuspended u b reason) := by
  refine Explained.bind (sql_accountable _) fun s rows => ?_
  split
  · exact refused_accountable (by decide)
  · exact explained_done _

theorem getExchange_accountable (id : String) : Accountable A asks seen (Db.getExchange id) := by
  refine Explained.bind (sql_accountable _) fun s row => ?_
  cases row with
  | none => exact refused_accountable (by decide)
  | some row => exact explained_done _

theorem create_accountable (authorization : Option String) (req : Relationships.CreateRequest) :
    Accountable A asks seen (Relationships.create authorization req) :=
  Explained.bind (extractor_accountable _) fun _ _ => Explained.bind
    (stored_accountable _ _) fun _ _ => explained_done _

theorem list_accountable (authorization : Option String) :
    Accountable A asks seen (Relationships.list authorization) :=
  Explained.bind (extractor_accountable _) fun _ _ => Explained.bind (sql_accountable _)
    fun _ _ => explained_done _

theorem revoke_accountable (authorization : Option String) (r : String) :
    Accountable A asks seen (Relationships.revoke authorization r) := by
  refine Explained.bind (extractor_accountable _) fun s u =>
    Explained.bind (Explained.bind (sql_accountable _) fun s row => ?_) fun s rel =>
      Explained.bind (Explained.bind (sql_accountable _) fun s rows => ?_) fun s _ =>
        Explained.bind (kickUser_succeeds _).explained fun s _ => (kickUser_succeeds _).explained
  · cases row with
    | none => exact refused_accountable (by decide)
    | some row => exact explained_done _
  · split
    · exact refused_accountable (by decide)
    · exact explained_done _

theorem initiate_accountable (authorization : Option String) (req : Exchange.InitiateRequest) :
    Accountable A asks seen (Exchange.initiate A authorization req) :=
  Explained.bind (extractor_accountable _) fun _ _ => Explained.bind (getUser_accountable _)
    fun _ _ => Explained.bind (explained_ofExcept fun _ refused internal =>
      absurd internal (decodePubkey_refused refused)) fun _ _ => Explained.bind
        (Explained.bind (explained_perform _) fun _ _ => Explained.bind (explained_perform _)
          fun _ _ => Explained.bind (explained_perform _) fun _ _ =>
            Explained.bind (sql_accountable _) fun _ _ => explained_done _)
        fun _ _ => Explained.bind (publishSystem_succeeds _ _).explained fun _ _ =>
          explained_done _

theorem get_accountable (authorization : Option String) (id : String) :
    Accountable A asks seen (Exchange.get authorization id) := by
  refine Explained.bind (extractor_accountable _) fun s u =>
    Explained.bind (getExchange_accountable id) fun s row => ?_
  split
  · exact refused_accountable (by decide)
  dsimp only
  split
  · exact Explained.bind (Succeeds.attempt _).explained fun _ _ => explained_done _
  · exact explained_done _

theorem respond_accountable (authorization : Option String) (id : String)
    (req : Exchange.RespondRequest) :
    Accountable A asks seen (Exchange.respond A authorization id req) := by
  refine Explained.bind (extractor_accountable _) fun s u =>
    Explained.bind (getExchange_accountable id) fun s row => ?_
  split
  · exact refused_accountable (by decide)
  split
  · exact refused_accountable (by decide)
  refine Explained.bind (explained_ofExcept fun _ refused internal =>
    absurd internal (decodePubkey_refused refused)) fun s pubkey =>
      Explained.bind (Explained.bind (sql_accountable _) fun s rows => ?_) fun s _ =>
        Explained.bind (publishSystem_succeeds _ _).explained fun _ _ => explained_done _
  split
  · exact refused_accountable (by decide)
  · exact explained_done _

theorem createRegistrationToken_accountable (key : Option String)
    (req : Admin.CreateTokenRequest) :
    Accountable A asks seen (Admin.createRegistrationToken A key req) :=
  Explained.bind (requireAdminKey_accountable _ _) fun _ _ => Explained.bind
    (explained_perform _) fun _ _ => Explained.bind (Explained.bind (explained_perform _)
      fun _ _ => Explained.bind (explained_perform _) fun _ _ => Explained.bind
        (explained_perform _) fun _ _ => Explained.bind (sql_accountable _) fun _ _ =>
          explained_done _) fun _ _ => explained_done _

theorem suspendUser_accountable (key : Option String) (u : String) (req : Admin.SuspendRequest) :
    Accountable A asks seen (Admin.suspendUser A key u req) :=
  Explained.bind (requireAdminKey_accountable _ _) fun _ _ => Explained.bind
    (setSuspended_accountable _ _ _) fun _ _ => (kickUser_succeeds _).explained

theorem unsuspendUser_accountable (key : Option String) (u : String) :
    Accountable A asks seen (Admin.unsuspendUser A key u) :=
  Explained.bind (requireAdminKey_accountable _ _) fun _ _ => setSuspended_accountable _ _ _

/-- What a hook cannot find out it denies. -/
theorem authenticate_succeeds (info : ConnectInfo) :
    (AuthHook.authenticate info).Succeeds := by
  unfold AuthHook.authenticate
  split
  · refine (Succeeds.perform _).bind fun verified => ?_
    cases verified with
    | error e => trivial
    | ok claims =>
        dsimp only
        split
        · trivial
        refine (Succeeds.attempt _).bind fun user => ?_
        cases user with
        | error e => trivial
        | ok user =>
            dsimp only
            split
            · trivial
            split
            · trivial
            · exact (Succeeds.perform _).bind fun _ => trivial
  · trivial

theorem checkSubscribeAcl_succeeds (session : Session) (sub : Subscribe) :
    (AuthHook.checkSubscribeAcl session sub).Succeeds := by
  refine (Succeeds.perform _).bind fun claims => ?_
  cases claims with
  | none => trivial
  | some claims =>
      dsimp only
      split <;> trivial

theorem hook_succeeds (param : Parameter) (acc : Option HookResult) :
    (AuthHook.hook param acc).Succeeds := by
  unfold AuthHook.hook
  split
  · exact authenticate_succeeds _
  · exact checkSubscribeAcl_succeeds _ _
  · exact (Succeeds.perform _).bind fun _ => trivial
  · trivial

theorem execHook_succeeds (param : Parameter) : (Broker.execHook param).Succeeds := by
  unfold Broker.execHook
  split
  · exact (hook_succeeds param none).bind fun _ => trivial
  · trivial

theorem reply_accountable {p : Handler α} (f : α → Reply)
    (accountable : Accountable A asks seen p) :
    Accountable A asks seen (Prog.reply p f) :=
  Explained.bind accountable fun _ _ => explained_done _

theorem handle_accountable (c : Call) :
    Accountable A (∃ req, c = .register req) seen (handle A c) := by
  cases c with
  | register req => exact reply_accountable _ (register_accountable ⟨req, rfl⟩ req)
  | challenge q => exact reply_accountable _ (challenge_accountable q)
  | verify req => exact reply_accountable _ (verify_accountable req)
  | createRelationship authorization req =>
      exact reply_accountable _ (create_accountable authorization req)
  | listRelationships authorization => exact reply_accountable _ (list_accountable authorization)
  | revokeRelationship authorization r =>
      exact reply_accountable _ (revoke_accountable authorization r)
  | initiateExchange authorization req =>
      exact reply_accountable _ (initiate_accountable authorization req)
  | getExchange authorization id => exact reply_accountable _ (get_accountable authorization id)
  | respondExchange authorization id req =>
      exact reply_accountable _ (respond_accountable authorization id req)
  | createRegistrationToken key req =>
      exact reply_accountable _ (createRegistrationToken_accountable key req)
  | suspendUser key u req => exact reply_accountable _ (suspendUser_accountable key u req)
  | unsuspendUser key u => exact reply_accountable _ (unsuspendUser_accountable key u)
  | purge =>
      exact reply_accountable _ (Explained.bind (explained_perform _) fun _ _ =>
        sql_accountable _)
  | connect info =>
      refine reply_accountable _ (Explained.bind (execHook_succeeds _).explained fun s result => ?_)
      split
      · exact Explained.bind (explained_perform _) fun _ _ => explained_done _
      · exact explained_done _
  | subscribe session sub =>
      refine reply_accountable _ (Explained.bind (execHook_succeeds _).explained fun s result => ?_)
      split
      · exact explained_done _
      · exact Explained.bind (explained_perform _) fun _ _ => explained_done _
  | publish session topic =>
      refine reply_accountable _ (Explained.bind (execHook_succeeds _).explained fun s result => ?_)
      split
      · exact explained_done _
      · exact explained_perform _
  | disconnected session =>
      exact reply_accountable _ (Explained.bind (explained_perform _) fun _ _ =>
        Explained.bind (execHook_succeeds _).explained fun _ _ => explained_done _)

/-- The account that the row which a statement stores belongs to. -/
def Statement.owner : Statement → Option String
  | .insertDevice row => some row.userId
  | .insertRelationship row => some row.userId
  | .insertExchange row => some row.initiatorId
  | _ => none

/-- The constraints that a statement can break are the primary key and the foreign key. -/
theorem execute_refused {statement : Statement} {db : Database}
    (refused : statement.execute db = none) : ∃ id, statement.newKey = some id ∧
      (id ∈ db.keys statement.kind ∨ ∃ u, statement.owner = some u ∧ db.hasUser u = false) := by
  cases statement with
  | insertUser row =>
      simp only [Statement.execute, ite_eq_left_iff, reduceCtorEq, imp_false, not_not] at refused
      exact ⟨_, rfl, .inl (Database.hasUser_iff.mp refused)⟩
  | insertDevice row | insertRelationship row | insertExchange row =>
      simp only [Statement.execute, ite_eq_left_iff, reduceCtorEq, imp_false, not_not,
        Bool.or_eq_true, List.any_eq_true, decide_eq_true_eq, Bool.not_eq_true'] at refused
      exact ⟨_, rfl, refused.imp List.mem_map.mpr fun unknown => ⟨_, rfl, unknown⟩⟩
  | insertRegistrationToken row =>
      simp only [Statement.execute, ite_eq_left_iff, reduceCtorEq, imp_false, not_not,
        List.any_eq_true, decide_eq_true_eq] at refused
      exact ⟨_, rfl, .inl (List.mem_map.mpr refused)⟩
  | _ => cases refused

section
variable (run : PoolRun A (Genuine A) h s) (at_n : h[n]? = some e)
include run at_n

/-- The bearer of a token has an account. -/
theorem bearer_known (bears : Bears c (eventsOf i (h.take n)) u) :
    e.before.world.db.hasUser u = true := by
  obtain ⟨m, lt, j, token, claims, issued, rfl⟩ := bears.issued run
  obtain ⟨req, l, -, seen, sub, -⟩ := issued.login run
  obtain ⟨k, earlier, found, -⟩ := at_of_eventsOf [_, _] seen
  rw [← sub]
  exact known_since run found (Nat.lt_trans earlier lt) at_n

theorem inserted_known {user : User}
    (created : ⟨.sql (.insertUser user), some ()⟩ ∈ eventsOf i (h.take n)) :
    e.before.world.db.hasUser user.userId = true := by
  obtain ⟨m, lt, inserted⟩ := at_of_mem_eventsOf created
  have earlier := (run.take at_n).1
  have inserted := (at_take lt).mpr inserted
  obtain ⟨f, at_m⟩ := inserted.entry
  obtain ⟨db, executed, after⟩ := answered_by earlier inserted at_m
  have stored : f.after.world.db.hasUser user.userId = true := by
    simp only [Statement.execute, Option.ite_none_left_eq_some, Option.some.injEq,
      Prod.mk.injEq] at executed
    rw [after, ← executed.2.2, Database.hasUser_iff, List.map_append]
    exact List.mem_append_right _ (List.mem_singleton_self _)
  rw [(inserted.exec earlier at_m).2] at stored
  refine At.onward (I := fun w => w.db.hasUser user.userId = true) earlier inserted at_m
    stored ?_ ?_
  · exact fun k j ev f' _ _ _ known => (exec_extends A ev.op f'.before.world).users _ known
  · exact fun x w known => (environment_later x w).known _ known

/-- The owner of a new row has an account. -/
theorem owner_known {statement : Statement} {x : Option statement.Answer}
    (placed : At h n i ⟨.sql statement, x⟩) (owner : statement.owner = some u) :
    e.before.world.db.hasUser u = true := by
  have writes : statement.kind ≠ .read := by
    intro read
    cases statement <;> cases owner <;> cases read
  obtain ⟨c, -, authorized⟩ := write_authorized run placed writes
  cases authorized <;> cases owner
  case device user created same sent =>
    rw [same]
    exact inserted_known run at_n created
  case relate bears => exact bearer_known run at_n bears
  case offer bears => exact bearer_known run at_n bears

/-- A statement without an answer is one that the database has not executed. -/
theorem unanswered_fails (fresh : FreshIds A) {statement : Statement}
    (placed : At h n i ⟨.sql statement, none⟩) :
    A.outside.fails e.before.world.statements = true := by
  by_contra available
  have answer : none = (exec A (.sql statement) e.before.world).1 := (placed.exec run at_n).1
  have refused : statement.execute e.before.world.db = none := by
    rw [exec, if_neg available] at answer
    cases executed : statement.execute e.before.world.db with
    | none => rfl
    | some stored =>
        rw [executed] at answer
        cases answer
  obtain ⟨id, stores, present | ⟨u, owner, unknown⟩⟩ := execute_refused refused
  · exact key_free run fresh placed stores at_n present
  · have known := owner_known run at_n placed owner
    rw [unknown] at known
    cases known

end

/-- What has gone wrong outside the handlers when request `i` fails. -/
inductive Fault (A : AppState) (h : PoolLog) (i : Nat) : Prop
  | statement {n : Nat} {statement : Statement} {e : PoolEntry signature World Call Env Error Reply}
      (placed : At h n i ⟨.sql statement, none⟩) (at_n : h[n]? = some e)
      (failed : A.outside.fails e.before.world.statements = true)
  | signing {n : Nat} {u d t : String} {ps ss : List String} {error : Error}
      {e : PoolEntry signature World Call Env Error Reply}
      (placed : At h n i ⟨.jwtIssue u d ps ss t, .error error⟩) (at_n : h[n]? = some e)
      (failed : A.lib.jwtEncode A.jwtKeys.secret
        (JwtKeys.claims A e.before.world.clock u d ps ss t) = none)
  | hook {n : Nat} {url pubkey reason : String}
      (placed : At h n i ⟨.callHook url pubkey, .error reason⟩)
  | policy {req : Register.RegisterRequest} (request : (requests h)[i]? = some (.register req))
      (incomplete : A.config.Incomplete)

theorem issue_refused {now : Clock} {u d t : String} {ps ss : List String} {e : Error}
    (failed : JwtKeys.issue A now u d ps ss t = .error e) :
    A.lib.jwtEncode A.jwtKeys.secret (JwtKeys.claims A now u d ps ss t) = none := by
  unfold JwtKeys.issue at failed
  split at failed
  · cases failed
  · assumption

/-- A request that is answered with an internal error has met a fault. -/
theorem internal_errors_explained (fresh : FreshIds A) (run : PoolRun A (Genuine A) h s)
    {error : Error} (answered : s.threads[i]? = some (c, .fail error)) (internal : error.Internal) :
    Fault A h i := by
  have finished : s.threads[i]? = some (c, .ofExcept (.error error)) := answered
  cases result_sat handle_accountable run finished error rfl internal with
  | statement failed =>
      obtain ⟨n, placed⟩ := at_of_seen failed
      obtain ⟨e, at_n⟩ := placed.entry
      exact .statement placed at_n (unanswered_fails run at_n fresh placed)
  | verification internal failed =>
      -- the token is not at fault
      obtain ⟨n, placed⟩ := at_of_seen failed
      obtain ⟨e, at_n⟩ := placed.entry
      rw [jwtVerify_error (placed.exec run at_n).1.symm] at internal
      cases internal
  | signing failed =>
      obtain ⟨n, placed⟩ := at_of_seen failed
      obtain ⟨e, at_n⟩ := placed.entry
      exact .signing placed at_n (issue_refused (placed.exec run at_n).1.symm)
  | hook failed =>
      obtain ⟨n, placed⟩ := at_of_seen failed
      exact .hook placed
  | policy asked incomplete =>
      obtain ⟨req, rfl⟩ := asked
      have request : (requests h)[i]? = some (.register req) := by
        rw [← threads_requests run, List.getElem?_map, answered]
        rfl
      exact .policy request incomplete
  | key read mem corrupt =>
      -- no stored key is corrupt
      obtain ⟨n, placed⟩ := at_of_seen read
      obtain ⟨e, at_n⟩ := placed.entry
      obtain ⟨db, executed, -⟩ := answered_by run placed at_n
      obtain ⟨rfl, -⟩ := Prod.mk.inj (Option.some.inj executed)
      exact absurd (run_keysValid (run.take at_n).1 _ (List.mem_filter.mp mem).1) corrupt

section
open Deployment

/-- A challenge is asked for, and the first statement fails. -/
def unreadable : List Schedule := serve 0 1 (.challenge ⟨"0"⟩)

abbrev failingPool : Machine Threads Schedule (Option (Event signature)) :=
  (server (failing 0)).pool

theorem internal_errors_explained_failing :
    Fault (failing 0) (failingPool.trace failingPool.start unreadable) 0 := by
  have answered : (failingPool.final failingPool.start unreadable).threads[0]? =
      some (.challenge ⟨"0"⟩, .fail .database) := rfl
  exact internal_errors_explained freshIds
    (failingPool.run_trace unreadable ⟨trivial, trivial, trivial⟩) answered rfl

end

end Smqtt
