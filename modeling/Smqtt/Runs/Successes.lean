import Smqtt.Runs.Atomic

/-!
What the handlers do for a request that has nothing wrong with it, on a server whose
statements do not fail: each succeeds, and the database changes by the rows of the request.
-/

namespace Smqtt

open AtomicSteps

variable {A : AppState} {w : World} {u : String} {authorization : Option String}

theorem reply_achieves {α : Type} {p : Handler α} {f : α → Reply} {Q : Reply → World → Prop}
    (achieves : Prog.Achieves (exec A) p w fun a v => Q (f a) v) :
    Prog.Achieves (exec A) (Prog.reply p f) w Q :=
  .bind (achieves.mono fun _ _ post => Prog.achieves_done post)

theorem unixNow_achieves {Q : Nat → World → Prop} (post : Q w.clock.secs w) :
    Prog.Achieves (exec A) unixNow w Q :=
  Prog.achieves_perform post

theorem newUuid_achieves {Q : String → World → Prop}
    (post : Q (A.outside.uuid w.draws) { w with draws := w.draws + 1 }) :
    Prog.Achieves (exec A) newUuid w Q :=
  Prog.achieves_perform post

theorem ofExcept_achieves {α : Type} {r : Except Error α} {a : α} {Q : α → World → Prop}
    (ok : r = .ok a) (post : Q a w) : Prog.Achieves (exec A) (Prog.ofExcept r : Handler α) w Q := by
  subst ok
  exact Prog.achieves_done post

theorem extractor_achieves {Q : String → World → Prop}
    (auth : authUser A w.clock authorization = some u) (post : Q u w) :
    Prog.Achieves (exec A) (AuthUser.fromRequestParts authorization) w Q := by
  refine ⟨u, w, ?_, post⟩
  rw [fromRequestParts_run, auth]

/-- The exchange that a valid request stores. -/
def newExchange (A : AppState) (w : World) (u peer : String) (pub : List UInt8) :
    PendingExchange :=
  ⟨A.outside.uuid w.draws, u, peer, pub, none, asI64 w.clock.secs,
    asI64 (addU64 w.clock.secs Db.exchangeTtlSecs)⟩

theorem decodePubkey_of_length {pub : List UInt8} (length : pub.length = 32) :
    Exchange.decodePubkey A (Base64Url.encode pub) = .ok pub := by
  unfold Exchange.decodePubkey b64Decode
  rw [Base64Url.decode_encode]
  exact if_neg (not_not.mpr length)

section
variable (unfailing : Unfailing A)
include unfailing

theorem sql_achieves {s : Statement} {x : s.Answer} {db : Database} {Q : s.Answer → World → Prop}
    (executed : s.execute w.db = some (x, db)) (post : Q x { w.counted with db }) :
    Prog.Achieves (exec A) (sql s) w Q := by
  refine ⟨x, { w.counted with db }, ?_, post⟩
  unfold sql
  simp only [Prog.run_call, exec]
  rw [unfailing w.statements, executed]
  rfl

theorem getUser_achieves {user : User} {Q : User → World → Prop} (known : w.db.user u = some user)
    (post : Q user w.counted) : Prog.Achieves (exec A) (Db.getUser u) w Q := by
  refine ⟨user, w.counted, ?_, post⟩
  rw [Db.getUser_run, unfailing, known]
  rfl

theorem getExchange_achieves {e : String} {row : PendingExchange}
    {Q : PendingExchange → World → Prop} (found : w.db.exchange e = some row)
    (post : Q row w.counted) : Prog.Achieves (exec A) (Db.getExchange e) w Q := by
  refine ⟨row, w.counted, ?_, post⟩
  rw [Db.getExchange_run, unfailing, found]
  rfl

theorem createUser_achieves {Q : User → World → Prop}
    (free : w.db.hasUser (A.outside.uuid w.draws) = false)
    (post : Q ⟨A.outside.uuid w.draws, w.clock.secs, false, none, 0⟩ { w.counted with
      db := { w.db with
        users := w.db.users ++ [⟨A.outside.uuid w.draws, w.clock.secs, false, none, 0⟩] }
      draws := w.draws + 1 }) : Prog.Achieves (exec A) Db.createUser w Q := by
  rcases Db.createUser_cases (A := A) (w := w) with ⟨-, -, run⟩ | ⟨refused, -⟩
  · exact ⟨_, _, run, post⟩
  · exact absurd ⟨unfailing _, free⟩ refused

theorem createDevice_achieves {key : List UInt8} {Q : Device → World → Prop}
    (known : w.db.hasUser u = true)
    (free : (w.db.devices.any fun d => d.deviceId = A.outside.uuid w.draws) = false)
    (post : Q ⟨A.outside.uuid w.draws, u, key, w.clock.secs⟩ { w.counted with
      db := { w.db with
        devices := w.db.devices ++ [⟨A.outside.uuid w.draws, u, key, w.clock.secs⟩] }
      draws := w.draws + 1 }) : Prog.Achieves (exec A) (Db.createDevice u key) w Q := by
  rcases Db.createDevice_cases (A := A) (w := w) known key with ⟨-, -, run⟩ | ⟨refused, -⟩
  · exact ⟨_, _, run, post⟩
  · exact absurd ⟨unfailing _, free⟩ refused

/-- In open mode a valid key gets an account and a device, under the next two ids. -/
theorem register_achieves {pub : List UInt8} {token : Option String}
    {Q : String × String → World → Prop}
    (admits : A.config.registrationMode = .open) (length : pub.length = 32)
    (point : A.lib.ed25519Point pub = true)
    (userFree : w.db.hasUser (A.outside.uuid w.draws) = false)
    (deviceFree : (w.db.devices.any fun d => d.deviceId = A.outside.uuid (w.draws + 1)) = false)
    (post : ∀ v : World, v.db = { w.db with
        users := w.db.users ++ [⟨A.outside.uuid w.draws, w.clock.secs, false, none, 0⟩]
        devices := w.db.devices ++
          [⟨A.outside.uuid (w.draws + 1), A.outside.uuid w.draws, pub, w.clock.secs⟩] } →
      Q (A.outside.uuid w.draws, A.outside.uuid (w.draws + 1)) v) :
    Prog.Achieves (exec A) (Register.register A ⟨Base64Url.encode pub, token⟩) w Q := by
  have passes : Register.checkPolicy A ⟨Base64Url.encode pub, token⟩ = return () := by
    unfold Register.checkPolicy
    rw [admits]
  have decoded : b64Decode A (Base64Url.encode pub) = .ok pub := by
    unfold b64Decode
    rw [Base64Url.decode_encode]
  unfold Register.register
  rw [passes]
  refine .bind (Prog.achieves_done (.bind (ofExcept_achieves decoded ?_)))
  rw [if_neg (not_not.mpr length), if_neg (by rw [point]; decide)]
  refine .bind (createUser_achieves unfailing userFree (.bind ?_))
  refine createDevice_achieves unfailing ?_ deviceFree (Prog.achieves_done (post _ rfl))
  simp [Database.hasUser]

theorem initiate_achieves {peer : String} {user : User} {pub : List UInt8}
    {Q : String → World → Prop} (auth : authUser A w.clock authorization = some u)
    (initiator : w.db.hasUser u = true) (known : w.db.user peer = some user)
    (length : pub.length = 32)
    (free : (w.db.pendingExchanges.any fun e => e.exchangeId = A.outside.uuid w.draws) = false)
    (post : ∀ v : World, v.db = { w.db with
        pendingExchanges := w.db.pendingExchanges ++ [newExchange A w u peer pub] } →
      Q (A.outside.uuid w.draws) v) :
    Prog.Achieves (exec A) (Exchange.initiate A authorization ⟨peer, Base64Url.encode pub⟩) w
      Q := by
  have stored : (Statement.insertExchange (newExchange A w u peer pub)).execute w.db =
      some ((), { w.db with
        pendingExchanges := w.db.pendingExchanges ++ [newExchange A w u peer pub] }) := by
    have free : (w.db.pendingExchanges.any fun e =>
      e.exchangeId = (newExchange A w u peer pub).exchangeId) = false := free
    have initiator : w.db.hasUser (newExchange A w u peer pub).initiatorId = true := initiator
    rw [Statement.execute, free, initiator]
    rfl
  unfold Exchange.initiate
  refine .bind (extractor_achieves auth (.bind (getUser_achieves unfailing known (.bind ?_))))
  refine ofExcept_achieves (decodePubkey_of_length length) (.bind ?_)
  refine .bind (newUuid_achieves (.bind (unixNow_achieves (.bind (unixNow_achieves (.bind ?_))))))
  refine sql_achieves unfailing stored (Prog.achieves_done (.bind ?_))
  exact Prog.achieves_perform (Prog.achieves_done (post _ rfl))

/-- The responder reads the exchange as long as it is unanswered. -/
theorem get_unanswered_achieves {e : String} {row : PendingExchange}
    {Q : Exchange.ExchangeResponse → World → Prop}
    (auth : authUser A w.clock authorization = some u) (found : w.db.exchange e = some row)
    (responder : row.responderId = u) (unanswered : row.responderPubkey = none)
    (post : Q ⟨e, row.initiatorId, row.responderId, Base64Url.encode row.initiatorPubkey, none⟩
      w.counted) : Prog.Achieves (exec A) (Exchange.get authorization e) w Q := by
  unfold Exchange.get
  refine .bind (extractor_achieves auth (.bind (getExchange_achieves unfailing found ?_)))
  rw [if_neg fun parties => parties.2 responder, unanswered]
  exact Prog.achieves_done post

/-- The initiator reads the answered exchange, which is then gone. -/
theorem get_answered_achieves {e : String} {row : PendingExchange} {key : List UInt8}
    {Q : Exchange.ExchangeResponse → World → Prop}
    (auth : authUser A w.clock authorization = some u) (found : w.db.exchange e = some row)
    (initiator : row.initiatorId = u) (answered : row.responderPubkey = some key)
    (post : ∀ v : World, v.db = Db.withoutExchange w.db e →
      Q ⟨e, row.initiatorId, row.responderId, Base64Url.encode row.initiatorPubkey,
        some (Base64Url.encode key)⟩ v) :
    Prog.Achieves (exec A) (Exchange.get authorization e) w Q := by
  unfold Exchange.get
  refine .bind (extractor_achieves auth (.bind (getExchange_achieves unfailing found ?_)))
  rw [if_neg fun parties => parties.1 initiator, answered]
  dsimp only
  rw [if_pos ⟨rfl, initiator⟩]
  refine .bind ⟨_, _, Prog.run_attempt _ _ _, Prog.achieves_done (post _ ?_)⟩
  rw [Db.deleteExchange_world, unfailing]
  rfl

theorem respond_achieves {e : String} {row : PendingExchange} {pub : List UInt8}
    {Q : Exchange.ExchangeResponse → World → Prop}
    (auth : authUser A w.clock authorization = some u) (found : w.db.exchange e = some row)
    (responder : row.responderId = u) (unanswered : row.responderPubkey = none)
    (length : pub.length = 32)
    (post : ∀ (response : Exchange.ExchangeResponse) (v : World),
      v.db = w.db.updateExchange e (fun x => { x with responderPubkey := some pub }) →
      Q response v) :
    Prog.Achieves (exec A) (Exchange.respond A authorization e ⟨Base64Url.encode pub⟩) w Q := by
  unfold Exchange.respond
  refine .bind (extractor_achieves auth (.bind (getExchange_achieves unfailing found ?_)))
  rw [if_neg (not_not.mpr responder), unanswered, if_neg (by decide)]
  have written : (Db.setResponderPubkey e pub).run (exec A) w.counted =
      (.ok (), { w.counted.counted with
        db := w.db.updateExchange e fun x => { x with responderPubkey := some pub } }) := by
    rw [Db.setResponderPubkey_run (w := w.counted) found pub, unfailing]
    rfl
  refine .bind (ofExcept_achieves (decodePubkey_of_length length) (.bind ⟨_, _, written, ?_⟩))
  exact .bind (Prog.achieves_perform (Prog.achieves_done (post _ _ rfl)))

theorem create_achieves {peer : String} {ps ss : List String}
    {Q : Relationships.RelationshipResponse → World → Prop}
    (auth : authUser A w.clock authorization = some u) (owner : w.db.hasUser u = true)
    (free : (w.db.relationships.any fun r => r.relationshipId = A.outside.uuid w.draws) = false)
    (post : ∀ (response : Relationships.RelationshipResponse) (v : World) (r : Relationship),
      r.userId = u → r.publishTopics = JsonStrings.encode ps →
      r.subscribeTopics = JsonStrings.encode ss →
      v.db = { w.db with relationships := w.db.relationships ++ [r] } → Q response v) :
    Prog.Achieves (exec A) (Relationships.create authorization ⟨peer, ps, ss⟩) w Q := by
  let row : Relationship := ⟨A.outside.uuid w.draws, u, peer, JsonStrings.encode ps,
    JsonStrings.encode ss, asI64 w.clock.secs⟩
  have stored : (Statement.insertRelationship row).execute w.db =
      some ((), { w.db with relationships := w.db.relationships ++ [row] }) := by
    have free : (w.db.relationships.any fun r => r.relationshipId = row.relationshipId) = false :=
      free
    have owner : w.db.hasUser row.userId = true := owner
    rw [Statement.execute, free, owner]
    rfl
  unfold Relationships.create
  refine .bind (extractor_achieves auth (.bind (.bind ?_)))
  refine newUuid_achieves (.bind (unixNow_achieves (.bind ?_)))
  exact sql_achieves unfailing stored (Prog.achieves_done (Prog.achieves_done
    (post _ _ row rfl rfl rfl rfl)))

theorem list_achieves {Q : List Relationships.RelationshipResponse → World → Prop}
    (auth : authUser A w.clock authorization = some u)
    (post : Q ((w.db.relationships.filter fun r => r.userId = u).map fun r =>
      ⟨r.relationshipId, r.userId, r.peerId, Db.decodeTopics r.publishTopics,
        Db.decodeTopics r.subscribeTopics, r.createdAt⟩) w.counted) :
    Prog.Achieves (exec A) (Relationships.list authorization) w Q := by
  unfold Relationships.list
  refine .bind (extractor_achieves auth (.bind ?_))
  exact sql_achieves unfailing (s := .selectRelationships u) rfl (Prog.achieves_done post)

theorem revoke_achieves {r : String} {rel : Relationship} {Q : Unit → World → Prop}
    (auth : authUser A w.clock authorization = some u) (found : w.db.relationship u r = some rel)
    (post : Q () (Relationships.revoked A w u r rel.peerId)) :
    Prog.Achieves (exec A) (Relationships.revoke authorization r) w Q := by
  have read : (Db.getRelationship u r).run (exec A) w = (.ok rel, w.counted) := by
    rw [Db.getRelationship_run, unfailing, found]
    rfl
  have deleted : (Db.deleteRelationship u r).run (exec A) w.counted =
      (.ok (), { w.counted.counted with db := Db.withoutRelationship w.db u r }) := by
    rw [Db.deleteRelationship_run (w := w.counted) found, unfailing]
    rfl
  unfold Relationships.revoke
  refine .bind (extractor_achieves auth (.bind ⟨_, _, read, .bind ⟨_, _, deleted, ?_⟩⟩))
  exact .bind ⟨_, _, Broker.kickUser_run u, _, _, Broker.kickUser_run rel.peerId, post⟩

end
end Smqtt
