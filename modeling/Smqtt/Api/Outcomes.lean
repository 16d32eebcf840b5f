import Smqtt.Api.Footprint

/-!
What a whole call does when it runs without interruption: to the user rows, the
relationships, the sessions map, the connections and the deliveries. Every
invariant of the atomic runs is derived from these case lemmas.
-/

namespace Smqtt

open AtomicSteps

variable {A : AppState} {w : World} {α : Type}

theorem reply_run (p : Handler α) (f : α → Reply) :
    (Prog.reply p f).run (exec A) w = ((p.run (exec A) w).1.map f, (p.run (exec A) w).2) := by
  unfold Prog.reply
  rw [Prog.run_bind]
  cases p.run (exec A) w with
  | mk result v => cases result <;> rfl

@[simp] theorem handle_connect (info : ConnectInfo) :
    (handle A (.connect info)).run (exec A) w =
      (((Broker.connect info).run (exec A) w).1.map .connected,
        ((Broker.connect info).run (exec A) w).2) :=
  reply_run _ _

@[simp] theorem handle_subscribe (session : Session) (sub : Subscribe) :
    (handle A (.subscribe session sub)).run (exec A) w =
      (((Broker.subscribe session sub).run (exec A) w).1.map .subscribed,
        ((Broker.subscribe session sub).run (exec A) w).2) :=
  reply_run _ _

@[simp] theorem handle_publish (session : Session) (topic : String) :
    (handle A (.publish session topic)).run (exec A) w =
      (.ok (.published (w.live session)), (exec A (.forward session topic) w).2) := by
  rw [handle, reply_run, Broker.publish_run]
  rfl

@[simp] theorem handle_verify (req : Auth.VerifyRequest) :
    (handle A (.verify req)).run (exec A) w =
      (((Auth.verify A req).run (exec A) w).1.map .token,
        ((Auth.verify A req).run (exec A) w).2) :=
  reply_run _ _

/-- The header of a call that goes through the token extractor. -/
def Call.authorization : Call → Option (Option String)
  | .createRelationship authorization _ => some authorization
  | .listRelationships authorization => some authorization
  | .revokeRelationship authorization _ => some authorization
  | .initiateExchange authorization _ => some authorization
  | .getExchange authorization _ => some authorization
  | .respondExchange authorization _ _ => some authorization
  | _ => none

/-- A request the extractor rejects is answered 401 and changes nothing. -/
theorem handle_unauthorized {c : Call} {authorization : Option String}
    (header : c.authorization = some authorization)
    (rejected : authUser A w.clock authorization = none) :
    (handle A c).run (exec A) w = (.error .unauthorized, w) := by
  have extractor {β : Type} (f : String → Handler β) :
      (AuthUser.fromRequestParts authorization >>= f).run (exec A) w =
        (.error .unauthorized, w) := by
    rw [Prog.run_bind, fromRequestParts_run, rejected]
  cases c <;> simp only [Call.authorization, Option.some.injEq, reduceCtorEq] at header
  all_goals
    subst header
    rw [handle, reply_run]
  case createRelationship => unfold Relationships.create; rw [extractor]; rfl
  case listRelationships => unfold Relationships.list; rw [extractor]; rfl
  case revokeRelationship => unfold Relationships.revoke; rw [extractor]; rfl
  case initiateExchange => unfold Exchange.initiate; rw [extractor]; rfl
  case getExchange => unfold Exchange.get; rw [extractor]; rfl
  case respondExchange => unfold Exchange.respond; rw [extractor]; rfl

namespace Broker

@[simp] theorem kicked_clock (u : String) : (kicked A w u).clock = w.clock := rfl

@[simp] theorem kicked_statements (u : String) :
    (kicked A w u).statements = w.statements + 2 := rfl

theorem kicked_user (u v : String) : (kicked A w u).db.user v =
    if v = u ∧ A.outside.fails w.statements = false
    then (w.db.user v).map fun x => { x with tokensValidFrom := w.clock.secs }
    else w.db.user v := by
  simp only [kicked]
  cases A.outside.fails w.statements with
  | true => simp
  | false => simp [Database.user_updateUser]

theorem mem_kicked {u : String} {x : Connection} (h : x ∈ (kicked A w u).connections) :
    x ∈ w.connections ∧ (A.outside.fails (w.statements + 1) = false →
      ∀ d ∈ w.db.devices, d.userId = u → d.deviceId ≠ x.clientId) := by
  simp only [kicked] at h
  split at h
  · rename_i failed
    exact ⟨h, fun ok => by simp [failed] at ok⟩
  · obtain ⟨hx, spared⟩ := List.mem_filter.mp h
    refine ⟨hx, fun _ d hd owner he => ?_⟩
    have : (w.db.devices.any fun d => d.userId = u && d.deviceId = x.clientId) = true :=
      List.any_eq_true.mpr ⟨d, hd, by simp [owner, he]⟩
    simp [this] at spared

end Broker

/-- The world after a successful revoke: the row is gone, then the owner is
kicked and after it the peer. -/
def Relationships.revoked (A : AppState) (w : World) (u r peer : String) : World :=
  Broker.kicked A (Broker.kicked A
    { w with db := Db.withoutRelationship w.db u r, statements := w.statements + 2 } u) peer

theorem revoke_cases (authorization : Option String) (r : String) :
    (∃ u rel, authUser A w.clock authorization = some u ∧ w.db.relationship u r = some rel ∧
      (Relationships.revoke authorization r).run (exec A) w =
        (.ok (), Relationships.revoked A w u r rel.peerId)) ∨
    ∃ e n, (Relationships.revoke authorization r).run (exec A) w =
      (.error e, { w with statements := n }) := by
  unfold Relationships.revoke
  rw [Prog.run_bind, fromRequestParts_run]
  cases authUser A w.clock authorization with
  | none => exact Or.inr ⟨_, w.statements, rfl⟩
  | some u =>
      dsimp only
      rw [Prog.run_bind, Db.getRelationship_run]
      cases A.outside.fails w.statements with
      | true => exact Or.inr ⟨_, _, rfl⟩
      | false =>
          cases hrel : w.db.relationship u r with
          | none => exact Or.inr ⟨_, _, rfl⟩
          | some rel =>
              simp only [Bool.false_eq_true, if_false]
              rw [Prog.run_bind, Db.deleteRelationship_run (w := w.counted) hrel]
              cases A.outside.fails w.counted.statements with
              | true => exact Or.inr ⟨_, _, rfl⟩
              | false =>
                  simp only [Bool.false_eq_true, if_false]
                  rw [Prog.run_bind, Broker.kickUser_run]
                  dsimp only
                  rw [Broker.kickUser_run]
                  exact Or.inl ⟨u, rel, rfl, hrel, rfl⟩

/-- The world after a successful suspension. -/
def Admin.suspended (A : AppState) (w : World) (u : String) (reason : Option String) : World :=
  Broker.kicked A { w with
    db := w.db.updateUser u fun x => { x with suspended := true, suspendReason := reason }
    statements := w.statements + 1 } u

theorem suspend_cases (key : Option String) (u : String) (req : Admin.SuspendRequest) :
    (w.db.hasUser u = true ∧ A.outside.fails w.statements = false ∧
      (Admin.suspendUser A key u req).run (exec A) w =
        (.ok (), Admin.suspended A w u req.reason)) ∨
    ∃ e n, (Admin.suspendUser A key u req).run (exec A) w =
      (.error e, { w with statements := n }) := by
  unfold Admin.suspendUser Admin.requireAdminKey
  split
  · rw [Prog.pure_eq, Prog.done_bind, Prog.run_bind]
    rcases Db.setSuspended_run (A := A) (w := w) u true req.reason with ⟨has, ok, run⟩ | ⟨e, run⟩
    · rw [run]
      dsimp only
      rw [Broker.kickUser_run]
      exact Or.inl ⟨has, ok, rfl⟩
    · rw [run]
      exact Or.inr ⟨e, _, rfl⟩
  · exact Or.inr ⟨_, w.statements, rfl⟩

theorem unsuspend_cases (key : Option String) (u : String) :
    (w.db.hasUser u = true ∧ (Admin.unsuspendUser A key u).run (exec A) w =
      (.ok (), { w with
        db := w.db.updateUser u fun x => { x with suspended := false, suspendReason := none }
        statements := w.statements + 1 })) ∨
    ∃ e n, (Admin.unsuspendUser A key u).run (exec A) w =
      (.error e, { w with statements := n }) := by
  unfold Admin.unsuspendUser Admin.requireAdminKey
  split
  · rw [Prog.pure_eq, Prog.done_bind]
    rcases Db.setSuspended_run (A := A) (w := w) u false none with ⟨has, -, run⟩ | ⟨e, run⟩
    · exact Or.inl ⟨has, run⟩
    · exact Or.inr ⟨e, _, run⟩
  · exact Or.inr ⟨_, w.statements, rfl⟩

theorem handle_extends (c : Call) : w.db.Extends ((handle A c).run (exec A) w).2.db :=
  (Prog.uses_all _).run_preserves (I := fun v => w.db.Extends v.db)
    (fun op _ v hv => hv.trans (exec_extends A op v)) (.refl _)

/-- The users a call kicks, each with the number of the statement that writes the
cutoff. The statement after it looks for the devices. -/
def Call.cutoffs (A : AppState) (w : World) (c : Call) : List (String × Nat) :=
  match c, ((handle A c).run (exec A) w).1 with
  | .revokeRelationship authorization r, .ok _ =>
      match authUser A w.clock authorization with
      | some u =>
          match w.db.relationship u r with
          | some rel => [(u, w.statements + 2), (rel.peerId, w.statements + 4)]
          | none => []
      | none => []
  | .suspendUser _ u _, .ok _ => [(u, w.statements + 1)]
  | _, _ => []

/-- The users whose connections and tokens a call cuts off. -/
def Call.kicked (A : AppState) (w : World) (c : Call) : List String :=
  (c.cutoffs A w).map Prod.fst

/-- How a call may change the row of the user `v`. -/
inductive RowChange (A : AppState) (w : World) (c : Call) (v : String) :
    Option User → Option User → Prop
  | same (row : Option User) : RowChange A w c v row row
  | registered (now : Int) : RowChange A w c v none (some ⟨v, now, false, none, 0⟩)
  | kicked (x : User) (kick : v ∈ c.kicked A w) :
      RowChange A w c v (some x) (some { x with tokensValidFrom := w.clock.secs })
  | suspended (x : User) (cutoff : Int) (key : Option String) (req : Admin.SuspendRequest)
      (call : c = .suspendUser key v req) (kick : v ∈ c.kicked A w)
      (written : cutoff = w.clock.secs ∨ cutoff = x.tokensValidFrom) :
      RowChange A w c v (some x) (some { x with
        suspended := true, suspendReason := req.reason, tokensValidFrom := cutoff })
  | unsuspended (x : User) (key : Option String) (call : c = .unsuspendUser key v)
      (done : ((handle A c).run (exec A) w).1 = .ok .noContent) :
      RowChange A w c v (some x) (some { x with suspended := false, suspendReason := none })

theorem revoke_cutoffs {authorization : Option String} {r u : String} {rel : Relationship}
    (auth : authUser A w.clock authorization = some u) (row : w.db.relationship u r = some rel)
    (run : (Relationships.revoke authorization r).run (exec A) w =
      (.ok (), Relationships.revoked A w u r rel.peerId)) :
    (Call.revokeRelationship authorization r).cutoffs A w =
      [(u, w.statements + 2), (rel.peerId, w.statements + 4)] := by
  simp only [Call.cutoffs, handle, reply_run, run, auth, row, Except.map]

theorem suspend_cutoffs {key : Option String} {u : String} {req : Admin.SuspendRequest}
    (run : (Admin.suspendUser A key u req).run (exec A) w =
      (.ok (), Admin.suspended A w u req.reason)) :
    (Call.suspendUser key u req).cutoffs A w = [(u, w.statements + 1)] := by
  simp only [Call.cutoffs, handle, reply_run, run, Except.map]

/-- The operation inserts a new account, if it touches the accounts at all. -/
def InsertsUser (op : Op) : Prop :=
  op.part ≠ .users ∨ ∃ id now, op = .sql (.insertUser ⟨id, now, false, none, 0⟩)

theorem register_insertsUser (req : Register.RegisterRequest) :
    (Register.register A req).Uses InsertsUser := by
  have other {op : Op} (h : Quiet [.consumeRegistrationToken, .insertDevice] op) :
      InsertsUser op := by
    rcases h.1 with h | h
    · exact Or.inl (by simp [Op.part, h, Kind.part])
    · rcases List.mem_pair.mp h with h | h <;> exact Or.inl (by simp [Op.part, h, Kind.part])
  refine .bind ((checkPolicy_quiet A (by decide) req).mono fun _ => other) fun _ =>
    .bind ((ofExcept_quiet _).mono fun _ => other) fun key => ?_
  split
  · trivial
  · split
    · trivial
    · refine .bind ?_ fun user =>
        .bind ((Db.createDevice_quiet (by decide) _ _).mono fun _ => other) fun _ => trivial
      refine .bind (newUuid_quiet.mono fun _ => other) fun id =>
        .bind (unixNow_quiet.mono fun _ => other) fun now => .bind ?_ fun _ => trivial
      refine ⟨Or.inr ⟨id, asI64 now, rfl⟩, fun x => ?_⟩
      cases x <;> trivial

theorem insertsUser_user {op : Op} (h : InsertsUser op) (v : String) :
    (exec A op w).2.db.user v = w.db.user v ∨ w.db.user v = none ∧
      ∃ now, (exec A op w).2.db.user v = some ⟨v, now, false, none, 0⟩ := by
  rcases h with h | ⟨id, now, rfl⟩
  · unfold Database.user
    rw [exec_users A op w h]
    exact Or.inl rfl
  · rcases exec_sql_cases A w (.insertUser ⟨id, now, false, none, 0⟩) with
      he | ⟨x, db, -, hs, he⟩
    · rw [he]
      exact Or.inl rfl
    · rw [he]
      simp only [Statement.execute, Option.ite_none_left_eq_some, Option.some.injEq,
        Prod.mk.injEq] at hs
      obtain ⟨fresh, -, rfl⟩ := hs
      by_cases hid : id = v
      · subst hid
        have absent : w.db.user id = none :=
          List.find?_eq_none.mpr (List.any_eq_false.mp (Bool.eq_false_iff.mpr fresh))
        refine Or.inr ⟨absent, now, ?_⟩
        change (w.db.users ++ [_]).find? _ = _
        unfold Database.user at absent
        rw [List.find?_append, absent]
        simp
      · refine Or.inl ?_
        change (w.db.users ++ [_]).find? _ = _
        rw [List.find?_append]
        simp [hid, Database.user]

/-- The row of a user before and after a registration. -/
theorem register_user_cases (req : Register.RegisterRequest) (v : String) :
    ((Register.register A req).run (exec A) w).2.db.user v = w.db.user v ∨
    w.db.user v = none ∧ ∃ now,
      ((Register.register A req).run (exec A) w).2.db.user v = some ⟨v, now, false, none, 0⟩ := by
  refine (register_insertsUser req).run_preserves (I := fun x : World =>
    x.db.user v = w.db.user v ∨ w.db.user v = none ∧
      ∃ now, x.db.user v = some ⟨v, now, false, none, 0⟩) ?_ (Or.inl rfl)
  intro op hop x hx
  rcases hx with same | ⟨absent, now, row⟩
  · rw [← same]
    exact insertsUser_user hop v
  · rcases insertsUser_user (A := A) (w := x) hop v with same | ⟨none, -⟩
    · exact Or.inr ⟨absent, now, by rw [same, row]⟩
    · rw [none] at row
      cases row

theorem handle_user (c : Call) (v : String) :
    RowChange A w c v (w.db.user v) (((handle A c).run (exec A) w).2.db.user v) := by
  have untouched (hc : c.spares .users) :
      RowChange A w c v (w.db.user v) (((handle A c).run (exec A) w).2.db.user v) := by
    unfold Database.user
    rw [handle_users A w hc]
    exact .same _
  cases c with
  | register req =>
      rw [handle, reply_run]
      rcases register_user_cases (A := A) (w := w) req v with same | ⟨absent, now, row⟩
      · dsimp only
        rw [same]
        exact .same _
      · dsimp only
        rw [absent, row]
        exact .registered now
  | revokeRelationship authorization r =>
      rw [handle, reply_run]
      rcases revoke_cases (A := A) (w := w) authorization r with
        ⟨u, rel, auth, row, run⟩ | ⟨e, n, run⟩
      · have kicks : (Call.revokeRelationship authorization r).kicked A w = [u, rel.peerId] := by
          rw [Call.kicked, revoke_cutoffs auth row run]
          rfl
        rw [run]
        have unchanged : (Db.withoutRelationship w.db u r).user v = w.db.user v := rfl
        simp only [Relationships.revoked, Broker.kicked_user, unchanged, Broker.kicked_clock]
        cases w.db.user v with
        | none => simp only [Option.map_none, ite_self]; exact .same _
        | some x =>
            by_cases owner : v = u ∨ v = rel.peerId
            · have kick : v ∈ (Call.revokeRelationship authorization r).kicked A w := by
                simpa [kicks] using owner
              simp only [Option.map_some]
              split <;> split <;>
                first
                | exact .same _
                | exact .kicked x kick
            · rw [not_or] at owner
              simp only [owner.1, owner.2, false_and, if_false]
              exact .same _
      · rw [run]
        exact .same _
  | suspendUser key u req =>
      rw [handle, reply_run]
      rcases suspend_cases (A := A) (w := w) key u req with ⟨-, -, run⟩ | ⟨e, n, run⟩
      · have kicks : (Call.suspendUser key u req).kicked A w = [u] := by
          rw [Call.kicked, suspend_cutoffs run]
          rfl
        rw [run]
        simp only [Admin.suspended, Broker.kicked_user,
          Database.user_updateUser, implies_true]
        by_cases owner : v = u
        · subst owner
          have kick : v ∈ (Call.suspendUser key v req).kicked A w := by simp [kicks]
          simp only [if_true, true_and]
          cases w.db.user v with
          | none => simp only [Option.map_none, ite_self]; exact .same _
          | some x =>
              simp only [Option.map_some]
              split
              · exact .suspended x _ key req rfl kick (Or.inl rfl)
              · exact .suspended x _ key req rfl kick (Or.inr rfl)
        · simp only [owner, false_and, if_false]
          exact .same _
      · rw [run]
        exact .same _
  | unsuspendUser key u =>
      rw [handle, reply_run]
      rcases unsuspend_cases (A := A) (w := w) key u with ⟨-, run⟩ | ⟨e, n, run⟩
      · rw [run]
        simp only [Database.user_updateUser, implies_true]
        by_cases owner : v = u
        · subst owner
          cases w.db.user v with
          | none => simp only [Option.map_none, ite_self]; exact .same _
          | some x =>
              simp only [if_true, Option.map_some]
              exact .unsuspended x key rfl (by rw [handle, reply_run, run]; rfl)
        · simp only [owner, if_false]
          exact .same _
      · rw [run]
        exact .same _
  | _ => exact untouched rfl

theorem handle_cutoff {c : Call} {v : String} {n : Nat} (kick : (v, n) ∈ c.cutoffs A w)
    (ok : A.outside.fails n = false) {x : User}
    (row : ((handle A c).run (exec A) w).2.db.user v = some x) :
    x.tokensValidFrom = w.clock.secs := by
  cases c with
  | revokeRelationship authorization r =>
      rw [handle, reply_run] at row
      rcases revoke_cases (A := A) (w := w) authorization r with
        ⟨u, rel, auth, hrel, run⟩ | ⟨e, m, run⟩
      · rw [revoke_cutoffs auth hrel run] at kick
        rw [run] at row
        simp only [Relationships.revoked, Broker.kicked_user, Broker.kicked_clock,
          Broker.kicked_statements] at row
        rcases List.mem_pair.mp kick with he | he
        · obtain ⟨rfl, rfl⟩ := Prod.mk.inj he
          simp only [ok, and_self, if_true] at row
          split at row <;>
            simp only [Option.map_map, Option.map_eq_some_iff, Function.comp_apply] at row <;>
            obtain ⟨y, -, rfl⟩ := row <;> rfl
        · obtain ⟨rfl, rfl⟩ := Prod.mk.inj he
          simp only [ok, and_self, if_true, Option.map_eq_some_iff] at row
          obtain ⟨y, -, rfl⟩ := row
          rfl
      · simp [Call.cutoffs, handle, reply_run, run, Except.map] at kick
  | suspendUser key u req =>
      rw [handle, reply_run] at row
      rcases suspend_cases (A := A) (w := w) key u req with ⟨-, -, run⟩ | ⟨e, m, run⟩
      · rw [suspend_cutoffs run] at kick
        obtain ⟨rfl, rfl⟩ := Prod.mk.inj (List.mem_singleton.mp kick)
        rw [run] at row
        simp only [Admin.suspended, Broker.kicked_user, ok, and_self, if_true,
          Option.map_eq_some_iff] at row
        obtain ⟨y, -, rfl⟩ := row
        rfl
      · simp [Call.cutoffs, handle, reply_run, run, Except.map] at kick
  | _ => simp [Call.cutoffs] at kick

/-- A connection that survives a call is none of a user whose devices were kicked. -/
theorem handle_kick {c : Call} {v : String} {n : Nat} (kick : (v, n) ∈ c.cutoffs A w)
    {x : Connection} (hx : x ∈ ((handle A c).run (exec A) w).2.connections) :
    x ∈ w.connections ∧ (A.outside.fails (n + 1) = false →
      ∀ d ∈ w.db.devices, d.userId = v → d.deviceId ≠ x.clientId) := by
  cases c with
  | revokeRelationship authorization r =>
      rw [handle, reply_run] at hx
      rcases revoke_cases (A := A) (w := w) authorization r with
        ⟨u, rel, auth, hrel, run⟩ | ⟨e, m, run⟩
      · rw [revoke_cutoffs auth hrel run] at kick
        rw [run] at hx
        obtain ⟨hx, peer⟩ := Broker.mem_kicked hx
        obtain ⟨hx, owner⟩ := Broker.mem_kicked hx
        rcases List.mem_pair.mp kick with he | he
        · obtain ⟨rfl, rfl⟩ := Prod.mk.inj he
          exact ⟨hx, owner⟩
        · obtain ⟨rfl, rfl⟩ := Prod.mk.inj he
          refine ⟨hx, fun ok d hd => peer ok d ?_⟩
          rw [Broker.kicked_devices]
          exact hd
      · simp [Call.cutoffs, handle, reply_run, run, Except.map] at kick
  | suspendUser key u req =>
      rw [handle, reply_run] at hx
      rcases suspend_cases (A := A) (w := w) key u req with ⟨-, -, run⟩ | ⟨e, m, run⟩
      · rw [suspend_cutoffs run] at kick
        obtain ⟨rfl, rfl⟩ := Prod.mk.inj (List.mem_singleton.mp kick)
        rw [run] at hx
        exact Broker.mem_kicked hx
      · simp [Call.cutoffs, handle, reply_run, run, Except.map] at kick
  | _ => simp [Call.cutoffs] at kick

theorem create_relationships (authorization : Option String)
    (req : Relationships.CreateRequest) :
    ((Relationships.create authorization req).run (exec A) w).2.db.relationships =
      w.db.relationships ∨
    ∃ rel, authUser A w.clock authorization = some rel.userId ∧ rel.peerId = req.peerId ∧
      rel.publishTopics = JsonStrings.encode req.publishTopics ∧
      rel.subscribeTopics = JsonStrings.encode req.subscribeTopics ∧
      ((Relationships.create authorization req).run (exec A) w).2.db.relationships =
        w.db.relationships ++ [rel] := by
  unfold Relationships.create
  rw [Prog.run_bind, fromRequestParts_run]
  cases ha : authUser A w.clock authorization with
  | none => exact Or.inl rfl
  | some u =>
      dsimp only
      rw [Prog.run_bind]
      rcases Db.createRelationship_cases (A := A) (w := w) u req.peerId req.publishTopics
        req.subscribeTopics with ⟨rel, v, run, rfl, peer, pub, sub, db⟩ | ⟨e, v, run, db⟩
      · rw [run]
        refine Or.inr ⟨rel, rfl, peer, pub, sub, ?_⟩
        dsimp only [Prog.pure_eq, Prog.run_done]
        rw [db]
      · rw [run]
        exact Or.inl (by dsimp only; rw [db])

/-- A row is old, or it was just created by its owner from the lists of the request. -/
theorem handle_relationship {c : Call} {r : Relationship}
    (hr : r ∈ ((handle A c).run (exec A) w).2.db.relationships) :
    r ∈ w.db.relationships ∨ ∃ authorization req,
      c = .createRelationship authorization req ∧
      authUser A w.clock authorization = some r.userId ∧ r.peerId = req.peerId ∧
      r.publishTopics = JsonStrings.encode req.publishTopics ∧
      r.subscribeTopics = JsonStrings.encode req.subscribeTopics := by
  have spared (hc : c.spares .relationships) : r ∈ w.db.relationships := by
    rwa [handle_relationships A w hc] at hr
  cases c with
  | createRelationship authorization req =>
      rw [handle, reply_run] at hr
      rcases create_relationships (A := A) (w := w) authorization req with
        same | ⟨rel, auth, peer, pub, sub, rows⟩
      · rw [same] at hr
        exact Or.inl hr
      · rw [rows] at hr
        rcases List.mem_append.mp hr with hr | hr
        · exact Or.inl hr
        · obtain rfl := List.mem_singleton.mp hr
          exact Or.inr ⟨authorization, req, rfl, auth, peer, pub, sub⟩
  | revokeRelationship authorization id =>
      rw [handle, reply_run] at hr
      rcases revoke_cases (A := A) (w := w) authorization id with
        ⟨u, rel, auth, hrel, run⟩ | ⟨e, m, run⟩
      · rw [run] at hr
        simp only [Relationships.revoked, Broker.kicked_relationships,
          Db.withoutRelationship] at hr
        exact Or.inl (List.mem_filter.mp hr).1
      · rw [run] at hr
        exact Or.inl hr
  | _ => exact Or.inl (spared rfl)

theorem handle_session (c : Call) :
    ((handle A c).run (exec A) w).2.sessions = w.sessions ∨
    (∃ info token claims, c = .connect info ∧ Broker.Admits A w info token claims ∧
      ((handle A c).run (exec A) w).2.sessions =
        Function.update w.sessions info.clientId (some claims)) ∨
    ∃ session, c = .disconnected session ∧ ((handle A c).run (exec A) w).2.sessions =
      Function.update w.sessions session.clientId none := by
  cases c with
  | connect info =>
      rw [handle_connect]
      rcases Broker.connect_cases (A := A) (w := w) info with
        ⟨token, claims, admits, run⟩ | ⟨-, v, rfl | rfl, run⟩
      · exact Or.inr (Or.inl ⟨info, token, claims, rfl, admits, by rw [run]; rfl⟩)
      · exact Or.inl (by rw [run])
      · exact Or.inl (by rw [run]; rfl)
  | disconnected session => exact Or.inr (Or.inr ⟨session, rfl, rfl⟩)
  | _ => exact Or.inl (handle_sessions A w rfl)

/-- A connection of the new world: an old one, perhaps with one more granted
filter, or the one the call has just admitted. -/
theorem handle_connection {c : Call} {x : Connection}
    (hx : x ∈ ((handle A c).run (exec A) w).2.connections) :
    x ∈ w.connections ∨
    (∃ session sub y, c = .subscribe session sub ∧
      Broker.grants w session.clientId sub.topicFilter ∧ y ∈ w.connections ∧
      y.clientId = session.clientId ∧
      x = { y with subscriptions := y.subscriptions ++ [sub.topicFilter] }) ∨
    ∃ info token claims, c = .connect info ∧ Broker.Admits A w info token claims ∧
      ((handle A c).run (exec A) w).2.sessions =
        Function.update w.sessions info.clientId (some claims) ∧
      x = ⟨w.admitted, info.clientId, token, []⟩ := by
  have spared (hc : c.spares .connections) : x ∈ w.connections := by
    rwa [handle_connections A w hc] at hx
  cases c with
  | connect info =>
      rw [handle_connect] at hx
      rcases Broker.connect_cases (A := A) (w := w) info with
        ⟨token, claims, admits, run⟩ | ⟨-, v, rfl | rfl, run⟩
      · rw [run] at hx
        rcases List.mem_append.mp hx with hx | hx
        · exact Or.inl hx
        · obtain rfl := List.mem_singleton.mp hx
          refine Or.inr (Or.inr ⟨info, token, claims, rfl, admits, ?_, rfl⟩)
          rw [handle_connect, run]
          rfl
      · rw [run] at hx
        exact Or.inl hx
      · rw [run] at hx
        exact Or.inl hx
  | disconnected session => exact Or.inl (List.mem_filter.mp hx).1
  | subscribe session sub =>
      rw [handle_subscribe] at hx
      rcases Broker.subscribe_cases (A := A) (w := w) session sub with ⟨granted, run⟩ | ⟨-, run⟩
      · rw [run] at hx
        obtain ⟨y, hy, rfl⟩ := List.mem_map.mp hx
        split
        · rename_i own
          have id : y.clientId = session.clientId := by
            simpa using (Bool.and_eq_true_iff.mp own).2
          exact Or.inr (Or.inl ⟨session, sub, y, rfl, granted, hy, id, rfl⟩)
        · exact Or.inl hy
      · rw [run] at hx
        exact Or.inl hx
  | revokeRelationship authorization id =>
      rw [handle, reply_run] at hx
      rcases revoke_cases (A := A) (w := w) authorization id with
        ⟨u, rel, auth, hrel, run⟩ | ⟨e, m, run⟩
      · rw [run] at hx
        exact Or.inl (Broker.mem_kicked (Broker.mem_kicked hx).1).1
      · rw [run] at hx
        exact Or.inl hx
  | suspendUser key u req =>
      rw [handle, reply_run] at hx
      rcases suspend_cases (A := A) (w := w) key u req with ⟨-, -, run⟩ | ⟨e, m, run⟩
      · rw [run] at hx
        exact Or.inl (Broker.mem_kicked hx).1
      · rw [run] at hx
        exact Or.inl hx
  | _ => exact Or.inl (spared rfl)

/-- Calls that deliver messages leave the connections alone. -/
theorem handle_delivery {c : Call} {d : Delivery}
    (hd : d ∈ ((handle A c).run (exec A) w).2.deliveries) :
    d ∈ w.deliveries ∨ d ∈ deliver d.topic w.connections := by
  by_cases quiet : c.spares .deliveries
  · rw [handle_deliveries A w quiet] at hd
    exact Or.inl hd
  · have still : c.spares .connections := by
      cases c <;> first | rfl | exact absurd rfl quiet
    refine ((handle_within A c).run_preserves (I := fun v : World =>
      v.connections = w.connections ∧ ∀ d ∈ v.deliveries,
        d ∈ w.deliveries ∨ d ∈ deliver d.topic w.connections) ?_
          ⟨rfl, fun d hd => Or.inl hd⟩).2 d hd
    intro op hop v ⟨same, old⟩
    refine ⟨(exec_connections A op v (hop.part_ne still (by decide))).trans same, ?_⟩
    intro d hd
    by_cases part : op.part = .deliveries
    case neg =>
      rw [exec_deliveries A op v part] at hd
      exact old d hd
    case pos =>
      rcases exec_delivery op hd with hd | hd
      · exact old d hd
      · exact Or.inr (same ▸ hd)

end Smqtt
