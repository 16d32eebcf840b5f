import Smqtt.Api.ExchangeOutcomes
import Smqtt.Runs.Provenance
import Smqtt.Runs.Relationships
import Smqtt.Runs.Schedules

/-!
What belongs to whom. A user who is authenticated reads and changes his own
relationships and the exchanges he takes part in, and nothing of the others': from
two states that differ in what is none of his business he gets the same answers, and
the same things happen.
-/

namespace Smqtt

open AtomicSteps

variable {A : AppState} {u : String} {w w' : World}

def PendingExchange.involves (e : PendingExchange) (u : String) : Prop :=
  e.initiatorId = u ∨ e.responderId = u

instance (e : PendingExchange) : Decidable (e.involves u) := by
  unfold PendingExchange.involves
  infer_instance

/-- The same exchange, with other public keys where the user takes no part. -/
def PendingExchange.SameFor (u : String) (e e' : PendingExchange) : Prop :=
  e' = e ∨ ¬e.involves u ∧ ∃ key answer,
    e' = { e with initiatorPubkey := key, responderPubkey := answer }

structure Database.SameFor (u : String) (db db' : Database) : Prop where
  users : db'.users = db.users
  devices : db'.devices = db.devices
  registrationTokens : db'.registrationTokens = db.registrationTokens
  relationships : (db'.relationships.filter fun r => r.userId = u) =
    db.relationships.filter fun r => r.userId = u
  exchanges : List.Forall₂ (PendingExchange.SameFor u) db.pendingExchanges db'.pendingExchanges

/-- The two worlds differ only in other users' relationships and in the public keys of
exchanges the user takes no part in. -/
structure World.SameFor (u : String) (w w' : World) : Prop where
  db : w.db.SameFor u w'.db
  rest : w' = { w with db := w'.db }

theorem PendingExchange.SameFor.keeps {e e' : PendingExchange} (same : e.SameFor u e') :
    e'.exchangeId = e.exchangeId ∧ e'.initiatorId = e.initiatorId ∧
      e'.responderId = e.responderId ∧ e'.expiresAt = e.expiresAt := by
  rcases same with rfl | ⟨-, key, answer, rfl⟩ <;> exact ⟨rfl, rfl, rfl, rfl⟩

namespace Database.SameFor

variable {db db' : Database}

theorem hasUser (same : db.SameFor u db') (v : String) : db'.hasUser v = db.hasUser v := by
  rw [Database.hasUser, same.users, ← Database.hasUser]

theorem user (same : db.SameFor u db') (v : String) : db'.user v = db.user v := by
  rw [Database.user, same.users, ← Database.user]

theorem relationship (same : db.SameFor u db') (r : String) :
    db'.relationship u r = db.relationship u r := by
  have own (rows : List Relationship) :
      (rows.find? fun x => x.relationshipId = r && x.userId = u) =
        (rows.filter fun x => x.userId = u).find? fun x => x.relationshipId = r := by
    rw [List.find?_filter]
    congr 1
    funext x
    rw [Bool.and_comm]
    simp
  rw [Database.relationship, Database.relationship, own, own, same.relationships]

/-- The row of an id is the same for the user in both. -/
theorem exchange (same : db.SameFor u db') (e : String) :
    Option.Rel (PendingExchange.SameFor u) (db.exchange e) (db'.exchange e) := by
  have rows := same.exchanges
  unfold Database.exchange
  generalize db.pendingExchanges = l at rows
  generalize db'.pendingExchanges = l' at rows
  induction rows with
  | nil => exact .none
  | @cons a b l l' head tail ih =>
      rw [List.find?_cons, List.find?_cons, head.keeps.1]
      split
      · exact .some head
      · exact ih

theorem anyExchange (same : db.SameFor u db') (e : String) :
    (db'.pendingExchanges.any fun x => x.exchangeId = e) =
      db.pendingExchanges.any fun x => x.exchangeId = e := by
  have rows := same.exchanges
  generalize db.pendingExchanges = l at rows
  generalize db'.pendingExchanges = l' at rows
  induction rows with
  | nil => rfl
  | cons head tail ih => rw [List.any_cons, List.any_cons, head.keeps.1, ih]

theorem countExchange (same : db.SameFor u db') (e : String) :
    (db'.pendingExchanges.countP fun x => x.exchangeId = e) =
      db.pendingExchanges.countP fun x => x.exchangeId = e := by
  have rows := same.exchanges
  generalize db.pendingExchanges = l at rows
  generalize db'.pendingExchanges = l' at rows
  induction rows with
  | nil => rfl
  | cons head tail ih => rw [List.countP_cons, List.countP_cons, head.keeps.1, ih]

end Database.SameFor

/-- The statements of a user that read or write nothing others own. -/
def Statement.Private (u : String) : Statement → Prop
  | .selectUser _ | .updateTokensValidFrom _ _ | .selectDevices _ => True
  | .selectRelationships v | .selectRelationship _ v | .deleteRelationship _ v => v = u
  | .insertExchange _ | .updateResponderPubkey _ _ | .deleteExchange _ => True
  | _ => False

def Op.Private (u : String) : Op → Prop
  | .unixNow | .newUuid | .jwtVerify _ | .kick _ | .publishSystem _ _ => True
  | .sql s => s.Private u
  | _ => False

/-- Both fail, or both answer the same and leave databases that are the same for the user. -/
abbrev AgreeFor (u : String) {α : Type} : Option (α × Database) → Option (α × Database) → Prop :=
  Option.Rel fun a b => a.1 = b.1 ∧ a.2.SameFor u b.2

theorem Statement.execute_same {s : Statement} (own : s.Private u) {db db' : Database}
    (same : db.SameFor u db') : AgreeFor u (s.execute db) (s.execute db') := by
  cases s with
  | selectUser v => exact .some ⟨(same.user v).symm, same⟩
  | selectDevices v =>
      refine .some ⟨?_, same⟩
      simp only [same.devices]
  | updateTokensValidFrom now v =>
      refine .some ⟨by simp only [same.users], ?_⟩
      exact ⟨congrArg (updateWhere _ _) same.users, same.devices, same.registrationTokens,
        same.relationships, same.exchanges⟩
  | selectRelationships v =>
      obtain rfl : v = u := own
      exact .some ⟨same.relationships.symm, same⟩
  | selectRelationship r v =>
      obtain rfl : v = u := own
      exact .some ⟨(same.relationship r).symm, same⟩
  | deleteRelationship r v =>
      obtain rfl : v = u := own
      have own (rows : List Relationship) :
          (rows.countP fun x => x.relationshipId = r && x.userId = v) =
            (rows.filter fun x => x.userId = v).countP fun x => x.relationshipId = r := by
        rw [List.countP_filter]
      have kept (rows : List Relationship) :
          ((rows.filter fun x => !(x.relationshipId = r && x.userId = v)).filter
            fun x => x.userId = v) = (rows.filter fun x => x.userId = v).filter
              fun x => !(x.relationshipId = r && x.userId = v) := by
        rw [List.filter_filter, List.filter_filter]
        refine List.filter_congr fun x _ => Bool.and_comm _ _
      refine .some ⟨?_, same.users, same.devices, same.registrationTokens, ?_, same.exchanges⟩
      · change List.countP _ _ = List.countP _ _
        rw [own, own, same.relationships]
      · change List.filter _ (List.filter _ _) = List.filter _ (List.filter _ _)
        rw [kept, kept, same.relationships]
  | insertExchange row =>
      simp only [Statement.execute, same.anyExchange, same.hasUser]
      split
      · exact .none
      · refine .some ⟨rfl, same.users, same.devices, same.registrationTokens,
          same.relationships, ?_⟩
        exact List.rel_append same.exchanges (.cons (Or.inl rfl) .nil)
  | updateResponderPubkey key e =>
      refine .some ⟨(same.countExchange e).symm, same.users, same.devices,
        same.registrationTokens, same.relationships, ?_⟩
      change List.Forall₂ _ (List.map _ _) (List.map _ _)
      rw [List.forall₂_map_left_iff, List.forall₂_map_right_iff]
      refine same.exchanges.imp fun a b related => ?_
      rcases related with rfl | ⟨other, own, answer, rfl⟩
      · exact Or.inl rfl
      · dsimp only
        split
        · exact Or.inr ⟨other, own, some key, rfl⟩
        · exact Or.inr ⟨other, own, answer, rfl⟩
  | deleteExchange e =>
      refine .some ⟨(same.countExchange e).symm, same.users, same.devices,
        same.registrationTokens, same.relationships, ?_⟩
      have rows := same.exchanges
      change List.Forall₂ _ (List.filter _ _) (List.filter _ _)
      generalize db.pendingExchanges = l at rows
      generalize db'.pendingExchanges = l' at rows
      induction rows with
      | nil => exact .nil
      | cons head tail ih =>
          rw [List.filter_cons, List.filter_cons, head.keeps.1]
          split
          · exact .cons head ih
          · exact ih
  | _ => exact absurd own id

/-- A row under an id that is free in both. -/
theorem Statement.insertRelationship_same {db db' : Database} (same : db.SameFor u db')
    (row : Relationship)
    (free : ∀ r ∈ db.relationships, r.relationshipId ≠ row.relationshipId)
    (free' : ∀ r ∈ db'.relationships, r.relationshipId ≠ row.relationshipId) :
    AgreeFor u ((Statement.insertRelationship row).execute db)
      ((Statement.insertRelationship row).execute db') := by
  have unused {rows : List Relationship}
      (free : ∀ r ∈ rows, r.relationshipId ≠ row.relationshipId) :
      (rows.any fun r => r.relationshipId = row.relationshipId) = false :=
    List.any_eq_false.mpr fun r mem => by simpa using free r mem
  simp only [Statement.execute, unused free, unused free', same.hasUser]
  split
  · exact .none
  · refine .some ⟨rfl, same.users, same.devices, same.registrationTokens, ?_, same.exchanges⟩
    simp only [List.filter_append, same.relationships]

theorem exec_sql_same {s : Statement} (same : w.SameFor u w')
    (agree : AgreeFor u (s.execute w.db) (s.execute w'.db)) :
    (exec A (.sql s) w).1 = (exec A (.sql s) w').1 ∧
      (exec A (.sql s) w).2.SameFor u (exec A (.sql s) w').2 := by
  obtain ⟨db, rest⟩ := same
  rw [rest]
  simp only [exec]
  split
  · exact ⟨rfl, db, rfl⟩
  · revert agree
    generalize s.execute w.db = before
    generalize s.execute w'.db = before'
    rintro (⟨answer, same⟩ | -)
    · exact ⟨congrArg some answer, same, rfl⟩
    · exact ⟨rfl, db, rfl⟩

theorem exec_same {op : Op} (own : op.Private u) (same : w.SameFor u w') :
    (exec A op w).1 = (exec A op w').1 ∧ (exec A op w).2.SameFor u (exec A op w').2 := by
  cases op with
  | sql s => exact exec_sql_same same (s.execute_same own same.db)
  | unixNow | newUuid | jwtVerify _ | kick _ | publishSystem _ _ =>
      obtain ⟨db, rest⟩ := same
      rw [rest]
      exact ⟨rfl, db, rfl⟩
  | _ => exact absurd own id

theorem sql_private {s : Statement} (own : s.Private u) : (sql s).Uses (Op.Private u) := by
  refine ⟨own, fun x => ?_⟩
  cases x <;> trivial

theorem unixNow_private : unixNow.Uses (Op.Private u) := ⟨trivial, fun _ => trivial⟩

theorem newUuid_private : newUuid.Uses (Op.Private u) := ⟨trivial, fun _ => trivial⟩

theorem getUser_private (v : String) : (Db.getUser v).Uses (Op.Private u) := by
  refine .bind (sql_private trivial) fun row => ?_
  cases row <;> trivial

theorem kickUser_private (v : String) : (Broker.kickUser v).Uses (Op.Private u) := by
  have kicks (devices : List Device) : (Broker.kickDevices devices).Uses (Op.Private u) := by
    induction devices with
    | nil => trivial
    | cons d ds ih => exact ⟨trivial, fun _ => ih⟩
  refine .bind (Prog.Uses.attempt ?_) fun _ => ?_
  · exact .bind unixNow_private fun now =>
      .bind (sql_private (s := .updateTokensValidFrom (asI64 now) v) trivial) fun _ => trivial
  · refine .bind (Prog.Uses.attempt (sql_private (s := .selectDevices v) trivial)) fun devices => ?_
    split
    · exact kicks _
    · trivial

theorem revoke_private (r : String) : (do
    let rel ← Db.getRelationship u r
    Db.deleteRelationship u r
    Broker.kickUser u
    Broker.kickUser rel.peerId : Handler Unit).Uses (Op.Private u) := by
  refine .bind (.bind (sql_private (s := .selectRelationship r u) rfl) fun row => ?_) fun rel => ?_
  · cases row <;> trivial
  · refine .bind (.bind (sql_private (s := .deleteRelationship r u) rfl) fun rows => ?_) fun _ => ?_
    · split <;> trivial
    · exact .bind (kickUser_private u) fun _ => kickUser_private rel.peerId

theorem initiate_private (req : Exchange.InitiateRequest) : (do
    let _peer ← Db.getUser req.peerId
    let pubkey ← Prog.ofExcept (Exchange.decodePubkey A req.ephemeralPubkey)
    let exchange ← Db.createExchange u req.peerId pubkey
    Broker.publishSystem (A.notifyTopic req.peerId) ⟨"pending_exchange", exchange.exchangeId⟩
    return exchange.exchangeId : Handler String).Uses (Op.Private u) := by
  refine .bind (getUser_private _) fun _ => .bind ?_ fun pubkey => .bind ?_ fun row => ?_
  · cases Exchange.decodePubkey A req.ephemeralPubkey <;> trivial
  · exact .bind newUuid_private fun _ => .bind unixNow_private fun _ => .bind unixNow_private
      fun _ => .bind (sql_private (s := .insertExchange _) trivial) fun _ => trivial
  · exact ⟨trivial, fun _ => trivial⟩

/-- The user gets the same answer from both worlds, and they stay the same for him. -/
abbrev SameRun (A : AppState) (u : String) {α : Type} (p : Handler α) (w w' : World) : Prop :=
  Prog.Coupled (exec A) (exec A) (World.SameFor u) p p w w'

theorem private_sameRun {α : Type} {p : Handler α} (own : p.Uses (Op.Private u))
    (same : w.SameFor u w') : SameRun A u p w w' :=
  own.coupled (fun _ own _ _ same => exec_same own same) same

theorem sql_sameRun {s : Statement} (same : w.SameFor u w')
    (agree : AgreeFor u (s.execute w.db) (s.execute w'.db)) : SameRun A u (sql s) w w' := by
  obtain ⟨answer, after⟩ := exec_sql_same (A := A) same agree
  unfold SameRun sql Prog.Coupled
  rw [Prog.run_call, Prog.run_call, ← answer]
  cases (exec A (.sql s) w).1 <;> exact ⟨rfl, after⟩

/-- Past the extractor a handler runs for the user. -/
theorem authorized_sameRun {α : Type} {authorization : Option String} {f : String → Handler α}
    (auth : authUser A w.clock authorization = some u) (same : w.SameFor u w')
    (body : SameRun A u (f u) w w') :
    SameRun A u (AuthUser.fromRequestParts authorization >>= f) w w' := by
  have clock : w'.clock = w.clock := by rw [same.rest]
  unfold SameRun Prog.Coupled
  rw [Prog.run_bind, Prog.run_bind, fromRequestParts_run, fromRequestParts_run, clock, auth]
  exact body

theorem getExchange_sameRun {α : Type} {e : String} {f : PendingExchange → Handler α}
    (same : w.SameFor u w')
    (others : ∀ row, ¬row.involves u → f row = .fail .forbidden)
    (own : ∀ row v v', row.involves u → v.SameFor u v' → SameRun A u (f row) v v') :
    SameRun A u (Db.getExchange e >>= f) w w' := by
  have counted : w.counted.SameFor u w'.counted := ⟨same.db, by rw [same.rest]; rfl⟩
  have statements : w'.statements = w.statements := by rw [same.rest]
  have found := same.db.exchange e
  unfold SameRun Prog.Coupled
  rw [Prog.run_bind, Prog.run_bind, Db.getExchange_run, Db.getExchange_run, statements]
  cases A.outside.fails w.statements with
  | true => exact ⟨rfl, counted⟩
  | false =>
      revert found
      generalize w.db.exchange e = row
      generalize w'.db.exchange e = row'
      rintro (⟨rfl | ⟨other, key, answer, rfl⟩⟩ | -)
      · rename_i row
        by_cases mine : row.involves u
        · exact own row _ _ mine counted
        · have refused := others row mine
          simp only [Bool.false_eq_true, if_false, refused]
          exact ⟨rfl, counted⟩
      · rename_i row
        have refused := others row other
        have refused' := others { row with initiatorPubkey := key, responderPubkey := answer } other
        simp only [Bool.false_eq_true, if_false, refused, refused']
        exact ⟨rfl, counted⟩
      · exact ⟨rfl, counted⟩

/-- The next id names no stored relationship. -/
def NextIdFree (A : AppState) (w : World) : Prop :=
  ∀ r ∈ w.db.relationships, r.relationshipId ≠ A.outside.uuid w.draws

theorem createRelationship_sameRun (peerId : String) (publishTopics subscribeTopics : List String)
    (same : w.SameFor u w') (free : NextIdFree A w) (free' : NextIdFree A w') :
    SameRun A u (Db.createRelationship u peerId publishTopics subscribeTopics) w w' := by
  have draws : w'.draws = w.draws := by rw [same.rest]
  have clock : w'.clock = w.clock := by rw [same.rest]
  have drawn : World.SameFor u { w with draws := w.draws + 1 } { w' with draws := w'.draws + 1 } :=
    ⟨same.db, by rw [same.rest]⟩
  have stored (v : World) :
      (Db.createRelationship u peerId publishTopics subscribeTopics).run (exec A) v =
        (sql (.insertRelationship ⟨A.outside.uuid v.draws, u, peerId,
          JsonStrings.encode publishTopics, JsonStrings.encode subscribeTopics,
          asI64 v.clock.secs⟩) >>= fun _ => (pure ⟨A.outside.uuid v.draws, u, peerId,
          JsonStrings.encode publishTopics, JsonStrings.encode subscribeTopics,
          asI64 v.clock.secs⟩ : Handler Relationship)).run (exec A)
            { v with draws := v.draws + 1 } := rfl
  have agree := Statement.insertRelationship_same same.db ⟨A.outside.uuid w.draws, u, peerId,
    JsonStrings.encode publishTopics, JsonStrings.encode subscribeTopics, asI64 w.clock.secs⟩
    free fun r mem => draws ▸ free' r mem
  unfold SameRun Prog.Coupled
  rw [stored, stored, show A.outside.uuid w'.draws = A.outside.uuid w.draws by rw [draws],
    show asI64 w'.clock.secs = asI64 w.clock.secs by rw [clock]]
  refine Prog.Coupled.bind (sql_sameRun drawn agree) ?_
  intro _ v v' related
  exact ⟨rfl, related⟩

theorem handle_sameRun {c : Call} {authorization : Option String}
    (header : c.authorization = some authorization)
    (auth : authUser A w.clock authorization = some u) (same : w.SameFor u w')
    (free : NextIdFree A w) (free' : NextIdFree A w') : SameRun A u (handle A c) w w' := by
  have reply {α : Type} {p : Handler α} (f : α → Reply) (body : SameRun A u p w w') :
      SameRun A u (Prog.reply p f) w w' := body.bind fun _ _ _ related => ⟨rfl, related⟩
  cases c <;> simp only [Call.authorization, Option.some.injEq, reduceCtorEq] at header
  all_goals
    subst header
    refine reply _ (authorized_sameRun auth same ?_)
  case createRelationship req =>
    exact (createRelationship_sameRun _ _ _ same free free').bind fun _ _ _ related =>
      ⟨rfl, related⟩
  case listRelationships =>
    exact private_sameRun (.bind (sql_private (s := .selectRelationships u) rfl) fun _ => trivial)
      same
  case revokeRelationship r => exact private_sameRun (revoke_private r) same
  case initiateExchange req => exact private_sameRun (initiate_private req) same
  case getExchange e =>
    refine getExchange_sameRun same (fun row other => ?_) fun row v v' mine related => ?_
    · exact if_pos (not_or.mp other)
    · rw [if_neg (not_and_of_not_or_not (by simpa [PendingExchange.involves] using mine))]
      refine private_sameRun ?_ related
      dsimp only
      split
      · exact .bind (.attempt (.bind (sql_private (s := .deleteExchange e) trivial)
          fun _ => trivial)) fun _ => trivial
      · trivial
  case respondExchange e req =>
    refine getExchange_sameRun same (fun row other => ?_) fun row v v' mine related => ?_
    · exact if_pos (not_or.mp other).2
    · refine private_sameRun ?_ related
      split
      · trivial
      · split
        · trivial
        · refine .bind ?_ fun pubkey => .bind (.bind (sql_private
            (s := .updateResponderPubkey pubkey e) trivial) fun rows => ?_) fun _ => ?_
          · cases Exchange.decodePubkey A req.ephemeralPubkey <;> trivial
          · split <;> trivial
          · exact ⟨trivial, fun _ => trivial⟩

inductive RelationshipChange (u : String) (rows : List Relationship) : List Relationship → Prop
  | same : RelationshipChange u rows rows
  | created (row : Relationship) (owner : row.userId = u) :
      RelationshipChange u rows (rows ++ [row])
  | deleted (r : String) :
      RelationshipChange u rows (rows.filter fun x => !(x.relationshipId = r && x.userId = u))

inductive ExchangeChange (u : String) (rows : List PendingExchange) : List PendingExchange → Prop
  | same : ExchangeChange u rows rows
  | initiated (row : PendingExchange) (initiator : row.initiatorId = u)
      (unanswered : row.responderPubkey = none)
      (free : ∀ e ∈ rows, e.exchangeId ≠ row.exchangeId) : ExchangeChange u rows (rows ++ [row])
  | responded (row : PendingExchange) (mem : row ∈ rows) (responder : row.responderId = u)
      (unanswered : row.responderPubkey = none) (key : List UInt8) :
      ExchangeChange u rows (updateWhere (fun e => e.exchangeId = row.exchangeId)
        (fun e => { e with responderPubkey := some key }) rows)
  | discarded (row : PendingExchange) (mem : row ∈ rows) (initiator : row.initiatorId = u)
      (complete : row.responderPubkey.isSome = true) :
      ExchangeChange u rows (rows.filter fun e => !(e.exchangeId = row.exchangeId))

/-- What the API shows of a relationship. -/
def relationshipResponse (r : Relationship) : Relationships.RelationshipResponse :=
  ⟨r.relationshipId, r.userId, r.peerId, Db.decodeTopics r.publishTopics,
    Db.decodeTopics r.subscribeTopics, r.createdAt⟩

/-- The reply shows rows of the user only. -/
def Reply.ShowsOwn (u : String) (before after : Database) : Reply → Prop
  | .relationship x => ∃ r ∈ after.relationships, r.userId = u ∧ x = relationshipResponse r
  | .relationships xs => ∀ x ∈ xs, ∃ r ∈ after.relationships, r.userId = u ∧
      x = relationshipResponse r
  | .exchangeId id => ∃ e ∈ after.pendingExchanges, e.initiatorId = u ∧ e.exchangeId = id
  | .exchange x => ∃ e, (e ∈ before.pendingExchanges ∨ e ∈ after.pendingExchanges) ∧
      e.involves u ∧ x = exchangeResponse e
  | _ => True

/-- What a step of the user `u` may do to the rows of the database, and show of them. -/
structure OwnStep (u : String) (before after : Database) (response : Except Error Reply) :
    Prop where
  othersRelationships : (after.relationships.filter fun r => r.userId ≠ u) =
    before.relationships.filter fun r => r.userId ≠ u
  othersExchanges : (after.pendingExchanges.filter fun e => ¬e.involves u) =
    before.pendingExchanges.filter fun e => ¬e.involves u
  createdRelationships : ∀ r ∈ after.relationships, r ∈ before.relationships ∨ r.userId = u
  initiatedExchanges : ∀ e ∈ after.pendingExchanges,
    (∀ f ∈ before.pendingExchanges, f.exchangeId ≠ e.exchangeId) →
      e.initiatorId = u ∧ e.responderPubkey = none
  responses : ∀ e ∈ before.pendingExchanges, ∀ f ∈ after.pendingExchanges,
    f.exchangeId = e.exchangeId → f = e ∨ e.responderId = u ∧ e.responderPubkey = none ∧
      ∃ key, f = { e with responderPubkey := some key }
  removals : ∀ e ∈ before.pendingExchanges,
    (∀ f ∈ after.pendingExchanges, f.exchangeId ≠ e.exchangeId) →
      e.initiatorId = u ∧ e.responderPubkey.isSome = true
  shows : ∀ reply, response = .ok reply → reply.ShowsOwn u before after

theorem RelationshipChange.others {rows rows' : List Relationship}
    (change : RelationshipChange u rows rows') :
    (rows'.filter fun r => r.userId ≠ u) = rows.filter fun r => r.userId ≠ u := by
  cases change with
  | same => rfl
  | created row owner => simp [owner]
  | deleted r =>
      rw [List.filter_filter]
      refine List.filter_congr fun x _ => ?_
      by_cases own : x.userId = u <;> simp [own]

theorem RelationshipChange.origin {rows rows' : List Relationship}
    (change : RelationshipChange u rows rows') : ∀ r ∈ rows', r ∈ rows ∨ r.userId = u := by
  intro r mem
  cases change with
  | same => exact Or.inl mem
  | created row owner =>
      rcases List.mem_append.mp mem with old | new
      · exact Or.inl old
      · obtain rfl := List.mem_singleton.mp new
        exact Or.inr owner
  | deleted id => exact Or.inl (List.mem_filter.mp mem).1

theorem exchange_eq {rows : List PendingExchange}
    (unique : (rows.map PendingExchange.exchangeId).Nodup) {e f : PendingExchange} (he : e ∈ rows)
    (hf : f ∈ rows) (same : f.exchangeId = e.exchangeId) : f = e :=
  List.inj_on_of_nodup_map unique hf he same

section
variable {rows rows' : List PendingExchange}

theorem ExchangeChange.others (unique : (rows.map PendingExchange.exchangeId).Nodup)
    (change : ExchangeChange u rows rows') :
    (rows'.filter fun e => ¬e.involves u) = rows.filter fun e => ¬e.involves u := by
  cases change with
  | same => rfl
  | initiated row initiator => simp [PendingExchange.involves, initiator]
  | responded row mem responder unanswered key =>
      rw [updateWhere, List.filter_map]
      have kept : ((fun e => decide ¬e.involves u) ∘ fun e : PendingExchange =>
          if decide (e.exchangeId = row.exchangeId) = true
          then { e with responderPubkey := some key } else e) =
          fun e => decide ¬e.involves u := by
        funext e
        simp only [Function.comp_apply]
        split <;> rfl
      rw [kept]
      conv_rhs => rw [← List.map_id (rows.filter _)]
      refine List.map_congr_left fun e he => ?_
      obtain ⟨old, other⟩ := List.mem_filter.mp he
      refine if_neg fun same => of_decide_eq_true other (Or.inr ?_)
      rw [exchange_eq unique mem old (of_decide_eq_true same)]
      exact responder
  | discarded row mem initiator complete =>
      rw [List.filter_filter]
      refine List.filter_congr fun e he => ?_
      by_cases same : e.exchangeId = row.exchangeId
      · obtain rfl := exchange_eq unique mem he same
        simp [PendingExchange.involves, initiator]
      · simp [same]

theorem ExchangeChange.initiates (change : ExchangeChange u rows rows') : ∀ e ∈ rows',
    (∀ f ∈ rows, f.exchangeId ≠ e.exchangeId) → e.initiatorId = u ∧ e.responderPubkey = none := by
  intro e mem new
  cases change with
  | same => exact absurd rfl (new e mem)
  | initiated row initiator unanswered free =>
      rcases List.mem_append.mp mem with old | mem
      · exact absurd rfl (new e old)
      · obtain rfl := List.mem_singleton.mp mem
        exact ⟨initiator, unanswered⟩
  | responded row present responder unanswered key =>
      obtain ⟨f, old, rfl⟩ := mem_updateWhere.mp mem
      exact absurd (by split <;> rfl) (new f old)
  | discarded row present initiator complete => exact absurd rfl (new e (List.mem_filter.mp mem).1)

theorem ExchangeChange.responses (unique : (rows.map PendingExchange.exchangeId).Nodup)
    (change : ExchangeChange u rows rows') : ∀ e ∈ rows, ∀ f ∈ rows',
      f.exchangeId = e.exchangeId → f = e ∨ e.responderId = u ∧ e.responderPubkey = none ∧
        ∃ key, f = { e with responderPubkey := some key } := by
  intro e he f hf same
  cases change with
  | same => exact Or.inl (exchange_eq unique he hf same)
  | initiated row initiator unanswered free =>
      rcases List.mem_append.mp hf with old | new
      · exact Or.inl (exchange_eq unique he old same)
      · obtain rfl := List.mem_singleton.mp new
        exact absurd same.symm (free e he)
  | responded row mem responder unanswered key =>
      obtain ⟨g, hg, rfl⟩ := mem_updateWhere.mp hf
      have same : g.exchangeId = e.exchangeId := by
        split at same <;> exact same
      obtain rfl := exchange_eq unique he hg same
      split
      · rename_i here
        obtain rfl := exchange_eq unique mem hg (of_decide_eq_true here)
        exact Or.inr ⟨responder, unanswered, key, rfl⟩
      · exact Or.inl rfl
  | discarded row mem initiator complete =>
      exact Or.inl (exchange_eq unique he (List.mem_filter.mp hf).1 same)

theorem ExchangeChange.removals (unique : (rows.map PendingExchange.exchangeId).Nodup)
    (change : ExchangeChange u rows rows') : ∀ e ∈ rows,
      (∀ f ∈ rows', f.exchangeId ≠ e.exchangeId) →
        e.initiatorId = u ∧ e.responderPubkey.isSome = true := by
  intro e he gone
  cases change with
  | same => exact absurd rfl (gone e he)
  | initiated row initiator unanswered free =>
      exact absurd rfl (gone e (List.mem_append_left _ he))
  | responded row mem responder unanswered key =>
      exact absurd (by split <;> rfl) (gone _ (mem_updateWhere.mpr ⟨e, he, rfl⟩))
  | discarded row mem initiator complete =>
      by_cases same : e.exchangeId = row.exchangeId
      · obtain rfl := exchange_eq unique mem he same
        exact ⟨initiator, complete⟩
      · exact absurd rfl (gone e (List.mem_filter.mpr ⟨he, by simpa using same⟩))

end

theorem OwnStep.of_changes {before after : Database} {response : Except Error Reply}
    (sound : before.Integrity)
    (relationships : RelationshipChange u before.relationships after.relationships)
    (exchanges : ExchangeChange u before.pendingExchanges after.pendingExchanges)
    (shows : ∀ reply, response = .ok reply → reply.ShowsOwn u before after) :
    OwnStep u before after response where
  othersRelationships := relationships.others
  othersExchanges := exchanges.others sound.exchanges
  createdRelationships := relationships.origin
  initiatedExchanges := exchanges.initiates
  responses := exchanges.responses sound.exchanges
  removals := exchanges.removals sound.exchanges
  shows := shows

theorem create_ownStep {authorization : Option String}
    (auth : authUser A w.clock authorization = some u) (req : Relationships.CreateRequest) :
    (∃ rel, rel.userId = u ∧
      ((Relationships.create authorization req).run (exec A) w).1 =
        .ok (relationshipResponse rel) ∧
      ((Relationships.create authorization req).run (exec A) w).2.db.relationships =
        w.db.relationships ++ [rel]) ∨
    ∃ e, ((Relationships.create authorization req).run (exec A) w).1 = .error e ∧
      ((Relationships.create authorization req).run (exec A) w).2.db.relationships =
        w.db.relationships := by
  unfold Relationships.create
  rw [Prog.run_bind, fromRequestParts_run, auth]
  dsimp only
  rw [Prog.run_bind]
  rcases Db.createRelationship_cases (A := A) (w := w) u req.peerId req.publishTopics
    req.subscribeTopics with ⟨rel, v, run, owner, peer, pub, sub, db⟩ | ⟨e, v, run, db⟩
  · rw [run]
    refine Or.inl ⟨rel, owner, ?_, by simp only [Prog.pure_eq, Prog.run_done, db]⟩
    simp only [Prog.pure_eq, Prog.run_done, relationshipResponse, pub, sub, decodeTopics_encode]
  · rw [run]
    exact Or.inr ⟨e, rfl, by simp only [db]⟩

theorem list_shows {authorization : Option String}
    (auth : authUser A w.clock authorization = some u)
    {xs : List Relationships.RelationshipResponse}
    (listed : ((Relationships.list authorization).run (exec A) w).1 = .ok xs) :
    ∀ x ∈ xs, ∃ r ∈ w.db.relationships, r.userId = u ∧ x = relationshipResponse r := by
  unfold Relationships.list at listed
  rw [Prog.run_bind, fromRequestParts_run, auth] at listed
  dsimp only at listed
  unfold Db.listRelationships sql at listed
  simp only [Prog.call_bind, Prog.run_call, exec, Statement.execute] at listed
  cases failed : A.outside.fails w.statements with
  | true =>
      rw [failed] at listed
      cases listed
  | false =>
      rw [failed] at listed
      obtain rfl := Except.ok.inj listed
      intro x mem
      obtain ⟨r, hr, rfl⟩ := List.mem_map.mp mem
      obtain ⟨mem, own⟩ := List.mem_filter.mp hr
      exact ⟨r, mem, by simpa using own, rfl⟩

/-- Every request of an authenticated user keeps to what is his. -/
theorem handle_ownStep {c : Call} {authorization : Option String}
    (header : c.authorization = some authorization)
    (auth : authUser A w.clock authorization = some u) (sound : w.db.Integrity) :
    OwnStep u w.db ((handle A c).run (exec A) w).2.db ((handle A c).run (exec A) w).1 := by
  have relationships (hc : c.spares .relationships) :
      RelationshipChange u w.db.relationships ((handle A c).run (exec A) w).2.db.relationships := by
    rw [handle_relationships A w hc]
    exact .same
  have exchanges (hc : c.spares .exchanges) : ExchangeChange u w.db.pendingExchanges
      ((handle A c).run (exec A) w).2.db.pendingExchanges := by
    rw [handle_exchanges A w hc]
    exact .same
  cases c <;> simp only [Call.authorization, Option.some.injEq, reduceCtorEq] at header
  all_goals subst header
  case createRelationship req =>
    have kept := exchanges rfl
    rw [handle, reply_run] at kept ⊢
    rcases create_ownStep (A := A) auth req with ⟨rel, owner, response, rows⟩ | ⟨e, response, rows⟩
    · refine .of_changes sound (rows ▸ .created rel owner) kept ?_
      rw [response]
      rintro reply ⟨⟩
      exact ⟨rel, by rw [rows]; simp, owner, rfl⟩
    · refine .of_changes sound (rows ▸ .same) kept ?_
      rw [response]
      rintro reply ⟨⟩
  case listRelationships =>
    rename_i authorization
    have own := relationships rfl
    have kept := exchanges rfl
    have rows := handle_relationships A w (c := .listRelationships authorization) rfl
    refine .of_changes sound own kept ?_
    rw [handle, reply_run] at rows ⊢
    intro reply response
    cases listed : ((Relationships.list authorization).run (exec A) w).1 with
    | error e => rw [listed] at response; cases response
    | ok xs =>
        rw [listed] at response
        obtain rfl := Except.ok.inj response
        intro x mem
        rw [rows]
        exact list_shows auth listed x mem
  case revokeRelationship r =>
    have kept := exchanges rfl
    rw [handle, reply_run] at kept ⊢
    rcases revoke_cases (A := A) (w := w) _ r with
      ⟨v, rel, auth', hrel, run⟩ | ⟨e, n, run⟩
    · obtain rfl : v = u := Option.some.inj (auth'.symm.trans auth)
      rw [run] at kept ⊢
      refine .of_changes sound ?_ kept ?_
      · simp only [Relationships.revoked, Broker.kicked_relationships]
        exact .deleted r
      · rintro reply ⟨⟩
        trivial
    · rw [run]
      refine .of_changes sound .same .same ?_
      rintro reply ⟨⟩
  case initiateExchange req =>
    have own := relationships rfl
    rw [handle, reply_run] at own ⊢
    rcases Exchange.initiate_cases (A := A) auth req with
      ⟨row, v, run, initiator, unanswered, free, db⟩ | ⟨e, v, run, db⟩
    · rw [run] at own ⊢
      refine .of_changes sound own (by rw [db]; exact .initiated row initiator unanswered free) ?_
      rintro reply ⟨⟩
      exact ⟨row, by simp only [db]; simp, initiator, rfl⟩
    · rw [run] at own ⊢
      refine .of_changes sound own (by rw [db]; exact .same) ?_
      rintro reply ⟨⟩
  case getExchange e =>
    have own := relationships rfl
    rw [handle, reply_run] at own ⊢
    rcases Exchange.get_cases (A := A) auth e with
      ⟨row, v, run, -, found, party, db⟩ | ⟨err, v, run, db⟩
    · obtain ⟨mem, rfl⟩ := find_exchange found
      rw [run] at own ⊢
      refine .of_changes sound own ?_ ?_
      · rcases db with same | ⟨initiator, complete, gone⟩
        · rw [same]
          exact .same
        · rw [gone]
          exact .discarded row mem initiator complete
      · rintro reply ⟨⟩
        exact ⟨row, Or.inl mem, party, rfl⟩
    · rw [run] at own ⊢
      refine .of_changes sound own (by rw [db]; exact .same) ?_
      rintro reply ⟨⟩
  case respondExchange e req =>
    have own := relationships rfl
    rw [handle, reply_run] at own ⊢
    rcases Exchange.respond_cases (A := A) auth e req with
      ⟨row, key, v, run, -, found, responder, unanswered, db⟩ | ⟨err, v, run, db⟩
    · obtain ⟨mem, rfl⟩ := find_exchange found
      rw [run] at own ⊢
      refine .of_changes sound own ?_ ?_
      · rw [db]
        exact .responded row mem responder unanswered key
      · rintro reply ⟨⟩
        refine ⟨{ row with responderPubkey := some key }, Or.inr ?_, Or.inr responder, rfl⟩
        rw [db]
        exact mem_updateWhere.mpr ⟨row, mem, by simp⟩
    · rw [run] at own ⊢
      refine .of_changes sound own (by rw [db]; exact .same) ?_
      rintro reply ⟨⟩

/-- In every reachable state a request of `u` keeps to what is his, and what is none of
his business decides nothing about it. -/
theorem ownership_noninterference {allowed : Scheduling} {h : PoolLog} {s : Threads}
    (fresh : FreshIds A) (run : PoolRun A allowed h s) {c : Call} {authorization : Option String}
    (header : c.authorization = some authorization)
    (auth : authUser A s.world.clock authorization = some u) :
    OwnStep u s.world.db ((handle A c).run (exec A) s.world).2.db
      ((handle A c).run (exec A) s.world).1 ∧
    ∀ w', NextIdFree A w' → s.world.SameFor u w' → SameRun A u (handle A c) s.world w' :=
  ⟨handle_ownStep header auth (pool_integrity run), fun _ free' same =>
    handle_sameRun header auth same (fun _ mem => next_id_free fresh run mem) free'⟩

section
open Deployment

/-- The first of the pair gives itself a topic to share with the second. -/
def shareTopic : Call :=
  .createRelationship (bearer (token "0" "1" 100 [] [])) ⟨"2", [], ["room"]⟩

private theorem pair_facts : HonestSchedule poolPair ∧
    authUser app (poolState poolPair).world.clock (bearer (token "0" "1" 100 [] [])) =
      some "0" := by
  decide +kernel

theorem ownership_noninterference_pair :
    OwnStep "0" (poolState poolPair).world.db
      ((handle app shareTopic).run (exec app) (poolState poolPair).world).2.db
      ((handle app shareTopic).run (exec app) (poolState poolPair).world).1 ∧
    ∀ w', NextIdFree app w' → (poolState poolPair).world.SameFor "0" w' →
      SameRun app "0" (handle app shareTopic) (poolState poolPair).world w' :=
  ownership_noninterference freshIds (run_poolLog pair_facts.1) rfl pair_facts.2

end

end Smqtt
