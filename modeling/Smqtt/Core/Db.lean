import Smqtt.Core.Integrity

/-!
The database functions and the cryptographic helpers, as programs over the
atomic operations. Ids and timestamps are taken before the statement that
stores them, so another handler may run in between.
-/

namespace Smqtt

open AtomicSteps

def unixNow : Handler Nat := .perform (S := signature) .unixNow

def newUuid : Handler String := .perform (S := signature) .newUuid

/-- A statement whose failure is returned as the database error. -/
def sql (s : Statement) : Handler s.Answer :=
  .call (S := signature) (.sql s) fun
    | some x => .done x
    | none => .fail .database

def utf8 (s : String) : List UInt8 := s.toList.flatMap String.utf8EncodeChar

def notificationTopic (A : AppState) (notifySecret : List UInt8) (userId : String) : String :=
  Base64Url.encode (A.lib.hmacSha256 notifySecret (utf8 ("notify:" ++ userId)))

def AppState.notifyTopic (A : AppState) (userId : String) : String :=
  notificationTopic A (utf8 A.config.notifySecret) userId

def b64Decode (A : AppState) (s : String) : Except Error (List UInt8) :=
  match Base64Url.decode s with
  | some bytes => .ok bytes
  | none => .error (.badRequest ("invalid base64: " ++ A.lib.base64Error s))

namespace Db

def createUser : Handler User := do
  let userId ← newUuid
  let now := asI64 (← unixNow)
  let user : User := ⟨userId, now, false, none, 0⟩
  sql (.insertUser user)
  return user

def getUser (userId : String) : Handler User := do
  let row : Option User ← sql (.selectUser userId)
  match row with
  | some user => return user
  | none => .fail .notFound

def invalidateTokens (userId : String) : Handler Unit := do
  let now := asI64 (← unixNow)
  let _rows : Nat ← sql (.updateTokensValidFrom now userId)
  return ()

def setSuspended (userId : String) (suspended : Bool) (reason : Option String) :
    Handler Unit := do
  let rows : Nat ← sql (.updateSuspended suspended reason userId)
  if rows = 0 then .fail .notFound else return ()

def createDevice (userId : String) (pubkey : List UInt8) : Handler Device := do
  let deviceId ← newUuid
  let now := asI64 (← unixNow)
  let device : Device := ⟨deviceId, userId, pubkey, now⟩
  sql (.insertDevice device)
  return device

def getDeviceByUser (userId : String) : Handler (List Device) :=
  sql (.selectDevices userId)

def createRelationship (userId peerId : String) (publishTopics subscribeTopics : List String) :
    Handler Relationship := do
  let relationshipId ← newUuid
  let now := asI64 (← unixNow)
  let row : Relationship := ⟨relationshipId, userId, peerId,
    JsonStrings.encode publishTopics, JsonStrings.encode subscribeTopics, now⟩
  sql (.insertRelationship row)
  return row

def listRelationships (userId : String) : Handler (List Relationship) :=
  sql (.selectRelationships userId)

def getRelationship (userId relationshipId : String) : Handler Relationship := do
  let row : Option Relationship ← sql (.selectRelationship relationshipId userId)
  match row with
  | some rel => return rel
  | none => .fail .notFound

def deleteRelationship (userId relationshipId : String) : Handler Unit := do
  let rows : Nat ← sql (.deleteRelationship relationshipId userId)
  if rows = 0 then .fail .notFound else return ()

/-- `serde_json::from_str(..).unwrap_or_default()` -/
def decodeTopics (json : String) : List String := (JsonStrings.decode json).getD []

def userTopics (userId : String) : Handler (List String × List String) := do
  let rels ← listRelationships userId
  return (rels.flatMap fun r => decodeTopics r.publishTopics,
    rels.flatMap fun r => decodeTopics r.subscribeTopics)

def exchangeTtlSecs : Nat := 7 * 24 * 3600

def createExchange (initiatorId responderId : String) (initiatorPubkey : List UInt8) :
    Handler PendingExchange := do
  let exchangeId ← newUuid
  let now := asI64 (← unixNow)
  let expiresAt := asI64 (addU64 (← unixNow) exchangeTtlSecs)
  let row : PendingExchange :=
    ⟨exchangeId, initiatorId, responderId, initiatorPubkey, none, now, expiresAt⟩
  sql (.insertExchange row)
  return row

def getExchange (exchangeId : String) : Handler PendingExchange := do
  let row : Option PendingExchange ← sql (.selectExchange exchangeId)
  match row with
  | some ex => return ex
  | none => .fail .notFound

def setResponderPubkey (exchangeId : String) (responderPubkey : List UInt8) :
    Handler Unit := do
  let rows : Nat ← sql (.updateResponderPubkey responderPubkey exchangeId)
  if rows = 0 then .fail .notFound else return ()

def deleteExchange (exchangeId : String) : Handler Unit := do
  let _rows : Nat ← sql (.deleteExchange exchangeId)
  return ()

def purgeExpiredExchanges : Handler Nat := do
  let now := asI64 (← unixNow)
  sql (.purgeExchanges now)

def createRegistrationToken (tokenHash : List UInt8) (expiresInSecs : UInt64)
    (maxUses : Int64) : Handler String := do
  let tokenId ← newUuid
  let now := asI64 (← unixNow)
  let expiresAt := asI64 (addU64 (← unixNow) expiresInSecs.toNat)
  sql (.insertRegistrationToken ⟨tokenId, tokenHash, now, expiresAt, maxUses.toInt, 0⟩)
  return tokenId

def consumeRegistrationToken (tokenHash : List UInt8) : Handler Unit := do
  let now := asI64 (← unixNow)
  let rows : Nat ← sql (.consumeRegistrationToken tokenHash now)
  if rows = 0 then .fail .forbidden else return ()

end Db

variable {A : AppState} {w w' : World}

theorem unixNow_run : unixNow.run (exec A) w = (.ok w.clock.secs, w) := rfl

theorem ofExcept_run {α : Type} (r : Except Error α) :
    (Prog.ofExcept r : Handler α).run (exec A) w = (r, w) := by
  cases r <;> rfl

/-- A statement that answers has executed. -/
theorem sql_ok {s : Statement} {x : s.Answer}
    (h : (sql s).run (exec A) w = (.ok x, w')) :
    A.outside.fails w.statements = false ∧
      ∃ db, s.execute w.db = some (x, db) ∧ w' = { w.counted with db } := by
  rcases exec_sql_cases A w s with he | ⟨y, db, hf, hs, he⟩
  · simp [sql, he] at h
  · obtain ⟨rfl, rfl⟩ : y = x ∧ { w.counted with db } = w' := by simpa [sql, he] using h
    exact ⟨hf, db, hs, rfl⟩

theorem sql_bind_ok {s : Statement} {α : Type} {f : s.Answer → Handler α} {a : α}
    (h : (sql s >>= f).run (exec A) w = (.ok a, w')) :
    A.outside.fails w.statements = false ∧ ∃ x db, s.execute w.db = some (x, db) ∧
      (f x).run (exec A) { w.counted with db } = (.ok a, w') := by
  obtain ⟨x, v, hx, hf⟩ := (Prog.run_bind_ok _).mp h
  obtain ⟨ok, db, hs, rfl⟩ := sql_ok hx
  exact ⟨ok, x, db, hs, hf⟩

theorem perform_bind_run (op : Op) {α : Type} {f : op.Answer → Handler α} :
    (Prog.perform (S := signature) op >>= f : Handler α).run (exec A) w =
      (f (exec A op w).1).run (exec A) (exec A op w).2 := rfl

theorem ok_inj {α : Type} {a b : α} {v v' : World}
    (h : ((.ok a : Except Error α), v) = (.ok b, v')) : a = b ∧ v = v' := by
  obtain ⟨⟨⟩, rfl⟩ := Prod.mk.inj h
  exact ⟨rfl, rfl⟩

theorem not_error_ok {α : Type} {a : α} {e : Error} {v v' : World}
    (h : ((.error e : Except Error α), v) = (.ok a, v')) : False := by
  cases h

namespace Db

theorem getUser_run (u : String) : (getUser u).run (exec A) w =
    (if A.outside.fails w.statements then .error .database
      else match w.db.user u with
        | some user => .ok user
        | none => .error .notFound, w.counted) := by
  unfold getUser sql
  simp only [Prog.call_bind, Prog.run_call, exec, Statement.execute]
  cases A.outside.fails w.statements with
  | true => rfl
  | false => cases w.db.user u <;> rfl

theorem getUser_ok {u : String} {user : User}
    (h : (getUser u).run (exec A) w = (.ok user, w')) :
    w.db.user u = some user ∧ w' = w.counted := by
  rw [getUser_run] at h
  obtain ⟨found, rfl⟩ := Prod.mk.inj h
  refine ⟨?_, rfl⟩
  split at found
  · cases found
  · split at found
    · rename_i r hr
      obtain rfl := Except.ok.inj found
      exact hr
    · cases found

theorem getDeviceByUser_run (u : String) : (getDeviceByUser u).run (exec A) w =
    (if A.outside.fails w.statements then .error .database
      else .ok (w.db.devices.filter fun d => d.userId = u), w.counted) := by
  unfold getDeviceByUser sql
  simp only [Prog.run_call, exec, Statement.execute]
  cases A.outside.fails w.statements <;> rfl

theorem getDeviceByUser_ok {u : String} {devices : List Device}
    (h : (getDeviceByUser u).run (exec A) w = (.ok devices, w')) :
    devices = (w.db.devices.filter fun d => d.userId = u) ∧ w' = w.counted := by
  obtain ⟨-, db, hs, rfl⟩ := sql_ok (s := .selectDevices u) h
  obtain ⟨rfl, rfl⟩ := Prod.mk.inj (Option.some.inj hs)
  exact ⟨rfl, rfl⟩

/-- The topics of a user's rows, in the order of the rows. -/
def topicsOf (db : Database) (userId : String) : List String × List String :=
  let rels := db.relationships.filter fun r => r.userId = userId
  (rels.flatMap fun r => decodeTopics r.publishTopics,
    rels.flatMap fun r => decodeTopics r.subscribeTopics)

theorem userTopics_ok {u : String} {topics : List String × List String}
    (h : (userTopics u).run (exec A) w = (.ok topics, w')) :
    topics = topicsOf w.db u ∧ w' = w.counted := by
  obtain ⟨-, rels, db, hs, hret⟩ := sql_bind_ok (s := .selectRelationships u) h
  obtain ⟨rfl, rfl⟩ := Prod.mk.inj (Option.some.inj hs)
  obtain ⟨rfl, rfl⟩ := ok_inj hret
  exact ⟨rfl, rfl⟩

theorem getRelationship_run (u r : String) : (getRelationship u r).run (exec A) w =
    (if A.outside.fails w.statements then .error .database
      else match w.db.relationship u r with
        | some rel => .ok rel
        | none => .error .notFound, w.counted) := by
  unfold getRelationship sql
  simp only [Prog.call_bind, Prog.run_call, exec, Statement.execute]
  cases A.outside.fails w.statements with
  | true => rfl
  | false => cases w.db.relationship u r <;> rfl

theorem getExchange_run (e : String) : (getExchange e).run (exec A) w =
    (if A.outside.fails w.statements then .error .database
      else match w.db.exchange e with
        | some row => .ok row
        | none => .error .notFound, w.counted) := by
  unfold getExchange sql
  simp only [Prog.call_bind, Prog.run_call, exec, Statement.execute]
  cases A.outside.fails w.statements with
  | true => rfl
  | false => cases w.db.exchange e <;> rfl

/-- The database without one relationship of a user. -/
def withoutRelationship (db : Database) (userId relationshipId : String) : Database :=
  { db with relationships := db.relationships.filter fun r =>
      !(r.relationshipId = relationshipId && r.userId = userId) }

/-- A row the user has is deleted, unless the statement fails. -/
theorem deleteRelationship_run {u r : String} {rel : Relationship}
    (h : w.db.relationship u r = some rel) : (deleteRelationship u r).run (exec A) w =
      if A.outside.fails w.statements then (.error .database, w.counted)
      else (.ok (), { w.counted with db := withoutRelationship w.db u r }) := by
  have rows : (w.db.relationships.countP fun x => x.relationshipId = r && x.userId = u) ≠ 0 :=
    Nat.ne_of_gt (List.countP_pos_iff.mpr ⟨rel, List.mem_of_find?_eq_some h,
      by simpa using List.find?_some h⟩)
  unfold deleteRelationship sql
  simp only [Prog.call_bind, Prog.run_call, exec, Statement.execute]
  cases A.outside.fails w.statements with
  | true => rfl
  | false =>
      simp only [Bool.false_eq_true, if_false, Prog.done_bind]
      rw [if_neg rows]
      rfl

/-- The suspended flag of an existing user is written, unless the statement fails. -/
theorem setSuspended_run (u : String) (b : Bool) (reason : Option String) :
    (w.db.hasUser u = true ∧ A.outside.fails w.statements = false ∧
      (setSuspended u b reason).run (exec A) w =
        (.ok (), { w.counted with db := w.db.updateUser u fun x =>
          { x with suspended := b, suspendReason := reason } })) ∨
    ∃ e, (setSuspended u b reason).run (exec A) w = (.error e, w.counted) := by
  unfold setSuspended sql
  simp only [Prog.call_bind, Prog.run_call, exec, Statement.execute]
  cases A.outside.fails w.statements with
  | true => exact Or.inr ⟨_, rfl⟩
  | false =>
      simp only [Bool.false_eq_true, if_false, Prog.done_bind]
      cases has : w.db.hasUser u with
      | true =>
          obtain ⟨x, hx, hu⟩ := List.any_eq_true.mp has
          rw [if_neg (Nat.ne_of_gt (List.countP_pos_iff.mpr ⟨x, hx, hu⟩))]
          exact Or.inl ⟨rfl, trivial, rfl⟩
      | false =>
          have none : (w.db.users.countP fun x => x.userId = u) = 0 :=
            List.countP_eq_zero.mpr (List.any_eq_false.mp has)
          rw [if_pos none, Database.updateUser_absent has]
          exact Or.inr ⟨_, rfl⟩

/-- A user is appended under the next id, or nothing is stored. -/
theorem createUser_cases :
    (A.outside.fails w.statements = false ∧ w.db.hasUser (A.outside.uuid w.draws) = false ∧
      createUser.run (exec A) w =
        (.ok ⟨A.outside.uuid w.draws, w.clock.secs, false, none, 0⟩, { w.counted with
          db := { w.db with
            users := w.db.users ++ [⟨A.outside.uuid w.draws, w.clock.secs, false, none, 0⟩] }
          draws := w.draws + 1 })) ∨
    (¬(A.outside.fails w.statements = false ∧ w.db.hasUser (A.outside.uuid w.draws) = false) ∧
      createUser.run (exec A) w = (.error .database, { w.counted with draws := w.draws + 1 })) := by
  rw [← Clock.asI64_secs w.clock]
  have stored : createUser.run (exec A) w =
      (sql (.insertUser ⟨A.outside.uuid w.draws, asI64 w.clock.secs, false, none, 0⟩) >>=
        fun _ => (pure ⟨A.outside.uuid w.draws, asI64 w.clock.secs, false, none, 0⟩ :
          Handler User)).run (exec A) { w with draws := w.draws + 1 } := rfl
  rw [stored]
  unfold sql
  simp only [Prog.call_bind, Prog.run_call, exec, Statement.execute]
  cases A.outside.fails w.statements with
  | true => exact Or.inr ⟨by simp, rfl⟩
  | false =>
      cases w.db.hasUser (A.outside.uuid w.draws) with
      | true => exact Or.inr ⟨by simp, rfl⟩
      | false => exact Or.inl ⟨rfl, rfl, rfl⟩

/-- A device of a known user is appended under the next id, or nothing is stored. -/
theorem createDevice_cases {u : String} (known : w.db.hasUser u = true) (key : List UInt8) :
    (A.outside.fails w.statements = false ∧
      (w.db.devices.any fun d => d.deviceId = A.outside.uuid w.draws) = false ∧
      (createDevice u key).run (exec A) w =
        (.ok ⟨A.outside.uuid w.draws, u, key, w.clock.secs⟩, { w.counted with
          db := { w.db with
            devices := w.db.devices ++ [⟨A.outside.uuid w.draws, u, key, w.clock.secs⟩] }
          draws := w.draws + 1 })) ∨
    (¬(A.outside.fails w.statements = false ∧
        (w.db.devices.any fun d => d.deviceId = A.outside.uuid w.draws) = false) ∧
      (createDevice u key).run (exec A) w =
        (.error .database, { w.counted with draws := w.draws + 1 })) := by
  rw [← Clock.asI64_secs w.clock]
  have stored : (createDevice u key).run (exec A) w =
      (sql (.insertDevice ⟨A.outside.uuid w.draws, u, key, asI64 w.clock.secs⟩) >>=
        fun _ => (pure ⟨A.outside.uuid w.draws, u, key, asI64 w.clock.secs⟩ :
          Handler Device)).run (exec A) { w with draws := w.draws + 1 } := rfl
  rw [stored]
  unfold sql
  simp only [Prog.call_bind, Prog.run_call, exec, Statement.execute, known, Bool.not_true,
    Bool.or_false]
  cases A.outside.fails w.statements with
  | true => exact Or.inr ⟨by simp, rfl⟩
  | false =>
      cases w.db.devices.any fun d => d.deviceId = A.outside.uuid w.draws with
      | true => exact Or.inr ⟨by simp, rfl⟩
      | false => exact Or.inl ⟨rfl, rfl, rfl⟩

/-- A registration token is used up where the hash, the expiry and the count match. -/
theorem consumeRegistrationToken_run (hash : List UInt8) :
    (consumeRegistrationToken hash).run (exec A) w =
    let usable := RegistrationToken.usable hash w.clock.secs
    if A.outside.fails w.statements = true then (.error .database, w.counted)
    else if w.db.registrationTokens.any usable = true then
      (.ok (), { w.counted with
        db := w.db.updateTokens usable fun t => { t with uses := t.uses + 1 } })
    else (.error .forbidden, w.counted) := by
  rw [← Clock.asI64_secs w.clock]
  change (sql (.consumeRegistrationToken hash _) >>= fun rows =>
    if rows = 0 then .fail .forbidden else pure () : Handler Unit).run (exec A) w = _
  unfold sql
  simp only [Prog.call_bind, Prog.run_call, exec, Statement.execute]
  cases A.outside.fails w.statements with
  | true => rfl
  | false =>
      simp only [Bool.false_eq_true, if_false, Prog.done_bind]
      cases found : w.db.registrationTokens.any
          (RegistrationToken.usable hash (asI64 w.clock.secs)) with
      | true =>
          obtain ⟨t, mem, usable⟩ := List.any_eq_true.mp found
          rw [if_neg (Nat.ne_of_gt (List.countP_pos_iff.mpr ⟨t, mem, usable⟩))]
          rfl
      | false =>
          rw [if_pos (List.countP_eq_zero.mpr (List.any_eq_false.mp found)),
            Database.updateTokens, updateWhere_none found]
          rfl

/-- A relationship is appended with the lists as submitted, or nothing is stored. -/
theorem createRelationship_cases (u p : String) (ps ss : List String) :
    (∃ rel v, (createRelationship u p ps ss).run (exec A) w = (.ok rel, v) ∧
      rel.userId = u ∧ rel.peerId = p ∧ rel.publishTopics = JsonStrings.encode ps ∧
      rel.subscribeTopics = JsonStrings.encode ss ∧
      v.db = { w.db with relationships := w.db.relationships ++ [rel] }) ∨
    ∃ e v, (createRelationship u p ps ss).run (exec A) w = (.error e, v) ∧ v.db = w.db := by
  have stored : (createRelationship u p ps ss).run (exec A) w =
      (let row : Relationship := ⟨A.outside.uuid w.draws, u, p, JsonStrings.encode ps,
        JsonStrings.encode ss, asI64 w.clock.secs⟩
      (sql (.insertRelationship row) >>= fun _ => (pure row : Handler Relationship)).run
        (exec A) { w with draws := w.draws + 1 }) := rfl
  rw [stored]
  unfold sql
  simp only [Prog.call_bind, Prog.run_call]
  rcases exec_sql_cases A { w with draws := w.draws + 1 } (.insertRelationship
    ⟨A.outside.uuid w.draws, u, p, JsonStrings.encode ps, JsonStrings.encode ss,
      asI64 w.clock.secs⟩) with he | ⟨x, db, -, hs, he⟩
  · rw [he]
    exact Or.inr ⟨_, _, rfl, rfl⟩
  · rw [he]
    simp only [Statement.execute, Option.ite_none_left_eq_some, Option.some.injEq,
      Prod.mk.injEq] at hs
    obtain ⟨-, -, rfl⟩ := hs
    exact Or.inl ⟨_, _, rfl, rfl, rfl, rfl, rfl, rfl⟩

/-- An unanswered row is appended under an id no row has, or nothing is stored. -/
theorem createExchange_cases (initiatorId responderId : String) (key : List UInt8) :
    (∃ row v, (createExchange initiatorId responderId key).run (exec A) w = (.ok row, v) ∧
      row.initiatorId = initiatorId ∧ row.responderPubkey = none ∧
      (∀ e ∈ w.db.pendingExchanges, e.exchangeId ≠ row.exchangeId) ∧
      v.db = { w.db with pendingExchanges := w.db.pendingExchanges ++ [row] }) ∨
    ∃ e v, (createExchange initiatorId responderId key).run (exec A) w = (.error e, v) ∧
      v.db = w.db := by
  let row : PendingExchange := ⟨A.outside.uuid w.draws, initiatorId, responderId, key, none,
    asI64 w.clock.secs, asI64 (addU64 w.clock.secs exchangeTtlSecs)⟩
  have stored : (createExchange initiatorId responderId key).run (exec A) w =
      (sql (.insertExchange row) >>= fun _ => (pure row : Handler PendingExchange)).run
        (exec A) { w with draws := w.draws + 1 } := rfl
  rw [stored]
  unfold sql
  simp only [Prog.call_bind, Prog.run_call]
  rcases exec_sql_cases A { w with draws := w.draws + 1 } (.insertExchange row) with
    he | ⟨x, db, -, hs, he⟩
  · rw [he]
    exact Or.inr ⟨_, _, rfl, rfl⟩
  · rw [he]
    simp only [Statement.execute, Option.ite_none_left_eq_some, Option.some.injEq,
      Prod.mk.injEq, Bool.or_eq_true, not_or, List.any_eq_true, not_exists, not_and,
      decide_eq_true_eq] at hs
    obtain ⟨⟨free, -⟩, -, rfl⟩ := hs
    exact Or.inl ⟨row, _, rfl, rfl, rfl, free, rfl⟩

/-- The key of an existing row is written, unless the statement fails. -/
theorem setResponderPubkey_run {e : String} {row : PendingExchange}
    (found : w.db.exchange e = some row) (key : List UInt8) :
    (setResponderPubkey e key).run (exec A) w =
      if A.outside.fails w.statements then (.error .database, w.counted)
      else (.ok (), { w.counted with
        db := w.db.updateExchange e fun x => { x with responderPubkey := some key } }) := by
  have rows : (w.db.pendingExchanges.countP fun x => x.exchangeId = e) ≠ 0 :=
    Nat.ne_of_gt (List.countP_pos_iff.mpr ⟨row, List.mem_of_find?_eq_some found,
      by simpa using List.find?_some found⟩)
  unfold setResponderPubkey sql
  simp only [Prog.call_bind, Prog.run_call, exec, Statement.execute]
  cases A.outside.fails w.statements with
  | true => rfl
  | false =>
      simp only [Bool.false_eq_true, if_false, Prog.done_bind]
      rw [if_neg rows]
      rfl

/-- The database without one exchange. -/
def withoutExchange (db : Database) (exchangeId : String) : Database :=
  { db with pendingExchanges :=
      db.pendingExchanges.filter fun e => !(e.exchangeId = exchangeId) }

theorem deleteExchange_world (e : String) : ((deleteExchange e).run (exec A) w).2 =
    { w.counted with
      db := if A.outside.fails w.statements then w.db else withoutExchange w.db e } := by
  unfold deleteExchange sql
  simp only [Prog.call_bind, Prog.run_call, exec, Statement.execute]
  cases A.outside.fails w.statements <;> rfl

end Db

end Smqtt
