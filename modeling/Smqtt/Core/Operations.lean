import Smqtt.Core.State
import Smqtt.Library.Base64Url
import Smqtt.Library.JsonStrings
import Smqtt.Library.Pool

/-!
The atomic operations of the server: one database statement, one access to a
shared map, one look at the clock, one draw, one action of the broker. A
statement either fails as a whole and changes nothing or has its SQL effect.

The frame lemmas at the end say of each part of the world which operations can
change it and how; everything later reads the operations through them.
-/

namespace Smqtt

open AtomicSteps

inductive Statement
  | insertUser (row : User)
  | selectUser (userId : String)
  | updateTokensValidFrom (now : Int) (userId : String)
  | updateSuspended (suspended : Bool) (reason : Option String) (userId : String)
  | insertDevice (row : Device)
  | selectDevices (userId : String)
  | insertRelationship (row : Relationship)
  | selectRelationships (userId : String)
  | selectRelationship (relationshipId userId : String)
  | deleteRelationship (relationshipId userId : String)
  | insertExchange (row : PendingExchange)
  | selectExchange (exchangeId : String)
  | updateResponderPubkey (responderPubkey : List UInt8) (exchangeId : String)
  | deleteExchange (exchangeId : String)
  | purgeExchanges (now : Int)
  | insertRegistrationToken (row : RegistrationToken)
  | consumeRegistrationToken (tokenHash : List UInt8) (now : Int)

/-- Updates and deletes answer with the number of rows they affected. -/
@[reducible] def Statement.Answer : Statement → Type
  | .insertUser _ | .insertDevice _ | .insertRelationship _ => Unit
  | .insertExchange _ | .insertRegistrationToken _ => Unit
  | .selectUser _ => Option User
  | .selectDevices _ => List Device
  | .selectRelationships _ => List Relationship
  | .selectRelationship _ _ => Option Relationship
  | .selectExchange _ => Option PendingExchange
  | .updateTokensValidFrom _ _ | .updateSuspended _ _ _ => Nat
  | .deleteRelationship _ _ | .updateResponderPubkey _ _ => Nat
  | .deleteExchange _ | .purgeExchanges _ | .consumeRegistrationToken _ _ => Nat

def Database.hasUser (db : Database) (userId : String) : Bool :=
  db.users.any fun u => u.userId = userId

def Database.user (db : Database) (userId : String) : Option User :=
  db.users.find? fun u => u.userId = userId

def Database.relationship (db : Database) (userId relationshipId : String) :
    Option Relationship :=
  db.relationships.find? fun r => r.relationshipId = relationshipId && r.userId = userId

def Database.exchange (db : Database) (exchangeId : String) : Option PendingExchange :=
  db.pendingExchanges.find? fun e => e.exchangeId = exchangeId

def updateWhere {α : Type} (p : α → Bool) (f : α → α) (rows : List α) : List α :=
  rows.map fun r => if p r then f r else r

def RegistrationToken.usable (tokenHash : List UInt8) (now : Int) (t : RegistrationToken) :
    Bool :=
  t.tokenHash = tokenHash && now < t.expiresAt && t.uses < t.maxUses

def Database.updateUser (db : Database) (userId : String) (f : User → User) : Database :=
  { db with users := updateWhere (fun u => u.userId = userId) f db.users }

def Database.updateExchange (db : Database) (exchangeId : String)
    (f : PendingExchange → PendingExchange) : Database :=
  { db with
    pendingExchanges := updateWhere (fun e => e.exchangeId = exchangeId) f db.pendingExchanges }

def Database.updateTokens (db : Database) (p : RegistrationToken → Bool)
    (f : RegistrationToken → RegistrationToken) : Database :=
  { db with registrationTokens := updateWhere p f db.registrationTokens }

/-- The effect of a statement; primary and foreign keys make inserts fail. -/
def Statement.execute : (s : Statement) → Database → Option (s.Answer × Database)
  | .insertUser row, db =>
      if db.hasUser row.userId then none
      else some ((), { db with users := db.users ++ [row] })
  | .selectUser userId, db => some (db.user userId, db)
  | .updateTokensValidFrom now userId, db =>
      some (db.users.countP fun u => u.userId = userId,
        db.updateUser userId fun u => { u with tokensValidFrom := now })
  | .updateSuspended suspended reason userId, db =>
      some (db.users.countP fun u => u.userId = userId,
        db.updateUser userId fun u =>
          { u with suspended := suspended, suspendReason := reason })
  | .insertDevice row, db =>
      if (db.devices.any fun d => d.deviceId = row.deviceId) || !db.hasUser row.userId
      then none
      else some ((), { db with devices := db.devices ++ [row] })
  | .selectDevices userId, db => some (db.devices.filter fun d => d.userId = userId, db)
  | .insertRelationship row, db =>
      if (db.relationships.any fun r => r.relationshipId = row.relationshipId) ||
        !db.hasUser row.userId
      then none
      else some ((), { db with relationships := db.relationships ++ [row] })
  | .selectRelationships userId, db =>
      some (db.relationships.filter fun r => r.userId = userId, db)
  | .selectRelationship relationshipId userId, db =>
      some (db.relationship userId relationshipId, db)
  | .deleteRelationship relationshipId userId, db =>
      some (db.relationships.countP fun r =>
          r.relationshipId = relationshipId && r.userId = userId,
        { db with relationships := db.relationships.filter fun r =>
            !(r.relationshipId = relationshipId && r.userId = userId) })
  | .insertExchange row, db =>
      if (db.pendingExchanges.any fun e => e.exchangeId = row.exchangeId) ||
        !db.hasUser row.initiatorId
      then none
      else some ((), { db with pendingExchanges := db.pendingExchanges ++ [row] })
  | .selectExchange exchangeId, db => some (db.exchange exchangeId, db)
  | .updateResponderPubkey responderPubkey exchangeId, db =>
      some (db.pendingExchanges.countP fun e => e.exchangeId = exchangeId,
        db.updateExchange exchangeId fun e =>
          { e with responderPubkey := some responderPubkey })
  | .deleteExchange exchangeId, db =>
      some (db.pendingExchanges.countP fun e => e.exchangeId = exchangeId,
        { db with pendingExchanges :=
            db.pendingExchanges.filter fun e => !(e.exchangeId = exchangeId) })
  | .purgeExchanges now, db =>
      some (db.pendingExchanges.countP fun e => e.expiresAt < now,
        { db with pendingExchanges :=
            db.pendingExchanges.filter fun e => !(e.expiresAt < now) })
  | .insertRegistrationToken row, db =>
      if db.registrationTokens.any fun t => t.tokenId = row.tokenId then none
      else some ((), { db with registrationTokens := db.registrationTokens ++ [row] })
  | .consumeRegistrationToken tokenHash now, db =>
      some (db.registrationTokens.countP (RegistrationToken.usable tokenHash now),
        db.updateTokens (RegistrationToken.usable tokenHash now) fun t =>
          { t with uses := t.uses + 1 })

/-- What identifies an MQTT session to the broker and to its hooks. -/
structure Session where
  connection : Nat
  clientId : String
  deriving DecidableEq

inductive Op
  | unixNow
  | newUuid
  | fillBytes
  | sql (statement : Statement)
  | challengesInsert (userId : String) (nonce : List UInt8) (expiresAt : Nat)
  | challengesRemove (userId : String)
  | sessionsInsert (clientId : String) (claims : Claims)
  | sessionsRemove (clientId : String)
  | sessionsGet (clientId : String)
  /-- `JwtKeys::issue`, whose only look at shared state is the clock. -/
  | jwtIssue (userId deviceId : String) (pubTopics subTopics : List String)
      (notifyTopic : String)
  /-- `JwtKeys::verify`, likewise. -/
  | jwtVerify (token : String)
  | callHook (url pubkey : String)
  /-- `shared.entry(id).kick(..)`: close the connections of a client id. -/
  | kick (clientId : String)
  /-- `shared.forwards(..)` from the system. -/
  | publishSystem (topic : String) (message : SystemMessage)
  /-- The broker's own steps around the hooks. -/
  | accept (clientId token : String)
  | grant (session : Session) (filter : String)
  | forward (session : Session) (topic : String)
  | close (session : Session)

/-- A failed statement answers `none`. -/
@[reducible] def Op.Answer : Op → Type
  | .unixNow => Nat
  | .newUuid => String
  | .fillBytes => List UInt8
  | .sql s => Option s.Answer
  | .challengesInsert _ _ _ => Unit
  | .challengesRemove _ => Option (List UInt8 × Nat)
  | .sessionsInsert _ _ | .sessionsRemove _ => Unit
  | .sessionsGet _ => Option Claims
  | .jwtIssue _ _ _ _ _ => Except Error String
  | .jwtVerify _ => Except Error Claims
  | .callHook _ _ => Except String (Option Bool)
  | .kick _ | .publishSystem _ _ => Unit
  | .accept _ _ => Nat
  | .grant _ _ | .forward _ _ => Bool
  | .close _ => Unit

@[reducible] def signature : Signature where
  Op := Op
  Answer := Op.Answer

/-- A handler: its atomic operations and its `Result`. -/
abbrev Handler (α : Type) := Prog signature Error α

/-- The claims of a token issued at `now`. -/
def JwtKeys.claims (A : AppState) (now : Clock) (userId deviceId : String)
    (pubTopics subTopics : List String) (notifyTopic : String) : Claims where
  sub := userId
  dev := deviceId
  exp := addU64 now.secs A.config.jwtTtlSeconds.toNat
  iat := now.secs
  pubTopics
  subTopics
  notifyTopic

def JwtKeys.issue (A : AppState) (now : Clock) (userId deviceId : String)
    (pubTopics subTopics : List String) (notifyTopic : String) : Except Error String :=
  match A.lib.jwtEncode A.jwtKeys.secret
      (claims A now userId deviceId pubTopics subTopics notifyTopic) with
  | some token => .ok token
  | none => .error (.internal "jwt")

/-- The default validation accepts a token when `now - leeway` is not after `exp`. No clock
is below the leeway, so the difference does not wrap around. -/
def JwtKeys.verify (A : AppState) (now : Clock) (token : String) : Except Error Claims :=
  match A.lib.jwtDecode A.jwtKeys.secret token with
  | some claims => if now.secs - jwtLeeway ≤ claims.exp then .ok claims else .error .unauthorized
  | none => .error .unauthorized

def Session.isOf (s : Session) (c : Connection) : Bool :=
  c.id = s.connection && c.clientId = s.clientId

/-- The session is one of a live connection. -/
def World.live (w : World) (s : Session) : Bool := w.connections.any s.isOf

def exec (A : AppState) : (op : Op) → World → op.Answer × World
  | .unixNow, w => (w.clock.secs, w)
  | .newUuid, w => (A.outside.uuid w.draws, { w with draws := w.draws + 1 })
  | .fillBytes, w => (A.outside.randomBytes w.draws, { w with draws := w.draws + 1 })
  | .sql s, w =>
      if A.outside.fails w.statements then (none, { w with statements := w.statements + 1 })
      else
        match s.execute w.db with
        | none => (none, { w with statements := w.statements + 1 })
        | some (x, db) => (some x, { w with db, statements := w.statements + 1 })
  | .challengesInsert userId nonce expiresAt, w =>
      ((), { w with challenges := Function.update w.challenges userId (some (nonce, expiresAt)) })
  | .challengesRemove userId, w =>
      (w.challenges userId, { w with challenges := Function.update w.challenges userId none })
  | .sessionsInsert clientId claims, w =>
      ((), { w with sessions := Function.update w.sessions clientId (some claims) })
  | .sessionsRemove clientId, w =>
      ((), { w with sessions := Function.update w.sessions clientId none })
  | .sessionsGet clientId, w => (w.sessions clientId, w)
  | .jwtIssue userId deviceId pubTopics subTopics notifyTopic, w =>
      (JwtKeys.issue A w.clock userId deviceId pubTopics subTopics notifyTopic, w)
  | .jwtVerify token, w => (JwtKeys.verify A w.clock token, w)
  | .callHook url pubkey, w =>
      (A.outside.hookReply w.draws url pubkey, { w with draws := w.draws + 1 })
  | .kick clientId, w =>
      ((), { w with connections := w.connections.filter fun c => !(c.clientId = clientId) })
  | .publishSystem topic message, w =>
      ((), { w with
        deliveries := w.deliveries ++ deliver topic w.connections
        systemMessages := w.systemMessages ++ [(topic, message)] })
  | .accept clientId token, w =>
      (w.admitted, { w with
        connections := w.connections ++ [⟨w.admitted, clientId, token, []⟩]
        admitted := w.admitted + 1 })
  | .grant session filter, w =>
      (w.live session, { w with
        connections := w.connections.map fun c =>
          if session.isOf c then { c with subscriptions := c.subscriptions ++ [filter] } else c })
  | .forward session topic, w =>
      if w.live session then
        (true, { w with deliveries := w.deliveries ++ deliver topic w.connections })
      else (false, w)
  | .close session, w =>
      ((), { w with connections := w.connections.filter fun c => !session.isOf c })

/-- The operations by the effect they have; all that have none are reads. -/
inductive Kind
  | read
  | issue
  | insertUser
  | cutoff
  | suspend
  | insertDevice
  | insertRelationship
  | deleteRelationship
  | insertExchange
  | respondExchange
  | deleteExchange
  | purgeExchanges
  | insertRegistrationToken
  | consumeRegistrationToken
  | insertChallenge
  | removeChallenge
  | insertSession
  | removeSession
  | kick
  | accept
  | grant
  | close
  | publishSystem
  | forward
  deriving DecidableEq

inductive Part
  | nothing
  | users
  | devices
  | relationships
  | exchanges
  | registrationTokens
  | challenges
  | sessions
  | connections
  | deliveries
  deriving DecidableEq

def Kind.part : Kind → Part
  | .read | .issue => .nothing
  | .insertUser | .cutoff | .suspend => .users
  | .insertDevice => .devices
  | .insertRelationship | .deleteRelationship => .relationships
  | .insertExchange | .respondExchange | .deleteExchange | .purgeExchanges => .exchanges
  | .insertRegistrationToken | .consumeRegistrationToken => .registrationTokens
  | .insertChallenge | .removeChallenge => .challenges
  | .insertSession | .removeSession => .sessions
  | .kick | .accept | .grant | .close => .connections
  | .publishSystem | .forward => .deliveries

def Statement.kind : Statement → Kind
  | .insertUser _ => .insertUser
  | .updateTokensValidFrom _ _ => .cutoff
  | .updateSuspended _ _ _ => .suspend
  | .insertDevice _ => .insertDevice
  | .insertRelationship _ => .insertRelationship
  | .deleteRelationship _ _ => .deleteRelationship
  | .insertExchange _ => .insertExchange
  | .updateResponderPubkey _ _ => .respondExchange
  | .deleteExchange _ => .deleteExchange
  | .purgeExchanges _ => .purgeExchanges
  | .insertRegistrationToken _ => .insertRegistrationToken
  | .consumeRegistrationToken _ _ => .consumeRegistrationToken
  | .selectUser _ | .selectDevices _ | .selectRelationships _ => .read
  | .selectRelationship _ _ | .selectExchange _ => .read

def Op.kind : Op → Kind
  | .sql s => s.kind
  | .challengesInsert _ _ _ => .insertChallenge
  | .challengesRemove _ => .removeChallenge
  | .sessionsInsert _ _ => .insertSession
  | .sessionsRemove _ => .removeSession
  | .jwtIssue _ _ _ _ _ => .issue
  | .kick _ => .kick
  | .accept _ _ => .accept
  | .grant _ _ => .grant
  | .close _ => .close
  | .publishSystem _ _ => .publishSystem
  | .forward _ _ => .forward
  | .unixNow | .newUuid | .fillBytes | .sessionsGet _ | .jwtVerify _ | .callHook _ _ => .read

def Op.part (op : Op) : Part := op.kind.part

section
variable (A : AppState) (op : Op) (w : World)

/-- The world after a failed statement. -/
def World.counted (w : World) : World := { w with statements := w.statements + 1 }

theorem exec_sql_cases (s : Statement) :
    exec A (.sql s) w = (none, w.counted) ∨
    ∃ x db, A.outside.fails w.statements = false ∧ s.execute w.db = some (x, db) ∧
      exec A (.sql s) w = (some x, { w.counted with db }) := by
  simp only [exec]
  cases hf : A.outside.fails w.statements with
  | true => exact Or.inl rfl
  | false =>
      cases hs : s.execute w.db with
      | none => exact Or.inl rfl
      | some r => exact Or.inr ⟨r.1, r.2, rfl, rfl, rfl⟩

/-- A property of the database that every statement keeps is kept by every operation. -/
theorem exec_db_invariant {I : Database → Prop}
    (step : ∀ (s : Statement) db x db', s.execute db = some (x, db') → I db → I db')
    (h : I w.db) : I (exec A op w).2.db := by
  cases op with
  | sql s =>
      rcases exec_sql_cases A w s with h' | ⟨x, db, -, hs, h'⟩
      · rw [h']; exact h
      · rw [h']; exact step s w.db x db hs h
  | forward s t => simp only [exec]; split <;> exact h
  | _ => exact h

/-- What only statements of other parts leave alone. -/
theorem exec_db_frame {β : Type} {f : Database → β}
    (step : ∀ s db x db', Statement.execute s db = some (x, db') →
      Op.sql s = op → f db' = f db) :
    f (exec A op w).2.db = f w.db := by
  cases op with
  | sql s =>
      rcases exec_sql_cases A w s with h | ⟨x, db, -, hs, h⟩
      · rw [h]; rfl
      · rw [h]; exact step s w.db x db hs rfl
  | forward s t => simp only [exec]; split <;> rfl
  | _ => rfl

theorem Statement.execute_frame {s : Statement} {db db' : Database} {x : s.Answer}
    (h : s.execute db = some (x, db')) :
    (s.kind.part ≠ .users → db'.users = db.users) ∧
    (s.kind.part ≠ .devices → db'.devices = db.devices) ∧
    (s.kind.part ≠ .relationships → db'.relationships = db.relationships) ∧
    (s.kind.part ≠ .exchanges → db'.pendingExchanges = db.pendingExchanges) ∧
    (s.kind.part ≠ .registrationTokens → db'.registrationTokens = db.registrationTokens) := by
  cases s <;> simp only [execute, Option.ite_none_left_eq_some, Option.some.injEq,
    Prod.mk.injEq] at h
  case insertUser row => obtain ⟨-, -, rfl⟩ := h; simp [Statement.kind, Kind.part]
  case insertDevice row => obtain ⟨-, -, rfl⟩ := h; simp [Statement.kind, Kind.part]
  case insertRelationship row => obtain ⟨-, -, rfl⟩ := h; simp [Statement.kind, Kind.part]
  case insertExchange row => obtain ⟨-, -, rfl⟩ := h; simp [Statement.kind, Kind.part]
  case insertRegistrationToken row =>
    obtain ⟨-, -, rfl⟩ := h; simp [Statement.kind, Kind.part]
  all_goals
    obtain ⟨-, rfl⟩ := h
    simp [Statement.kind, Kind.part, Database.updateUser, Database.updateExchange,
      Database.updateTokens]

theorem exec_users (h : op.part ≠ .users) : (exec A op w).2.db.users = w.db.users :=
  exec_db_frame A op w fun s _ _ _ hs ho => (Statement.execute_frame hs).1 (by subst ho; exact h)

theorem exec_devices (h : op.part ≠ .devices) : (exec A op w).2.db.devices = w.db.devices :=
  exec_db_frame A op w fun s _ _ _ hs ho =>
    (Statement.execute_frame hs).2.1 (by subst ho; exact h)

theorem exec_relationships (h : op.part ≠ .relationships) :
    (exec A op w).2.db.relationships = w.db.relationships :=
  exec_db_frame A op w fun s _ _ _ hs ho =>
    (Statement.execute_frame hs).2.2.1 (by subst ho; exact h)

theorem exec_exchanges (h : op.part ≠ .exchanges) :
    (exec A op w).2.db.pendingExchanges = w.db.pendingExchanges :=
  exec_db_frame A op w fun s _ _ _ hs ho =>
    (Statement.execute_frame hs).2.2.2.1 (by subst ho; exact h)

theorem exec_registrationTokens (h : op.part ≠ .registrationTokens) :
    (exec A op w).2.db.registrationTokens = w.db.registrationTokens :=
  exec_db_frame A op w fun s _ _ _ hs ho =>
    (Statement.execute_frame hs).2.2.2.2 (by subst ho; exact h)

theorem exec_challenges (h : op.part ≠ .challenges) :
    (exec A op w).2.challenges = w.challenges := by
  cases op with
  | sql s => rcases exec_sql_cases A w s with h' | ⟨x, db, -, -, h'⟩ <;> rw [h'] <;> rfl
  | forward s t => simp only [exec]; split <;> rfl
  | challengesInsert u n e => exact absurd rfl h
  | challengesRemove u => exact absurd rfl h
  | _ => rfl

theorem exec_sessions (h : op.part ≠ .sessions) : (exec A op w).2.sessions = w.sessions := by
  cases op with
  | sql s => rcases exec_sql_cases A w s with h' | ⟨x, db, -, -, h'⟩ <;> rw [h'] <;> rfl
  | forward s t => simp only [exec]; split <;> rfl
  | sessionsInsert c cl => exact absurd rfl h
  | sessionsRemove c => exact absurd rfl h
  | _ => rfl

theorem exec_connections (h : op.part ≠ .connections) :
    (exec A op w).2.connections = w.connections := by
  cases op with
  | sql s => rcases exec_sql_cases A w s with h' | ⟨x, db, -, -, h'⟩ <;> rw [h'] <;> rfl
  | forward s t => simp only [exec]; split <;> rfl
  | kick c => exact absurd rfl h
  | accept c t => exact absurd rfl h
  | grant s f => exact absurd rfl h
  | close s => exact absurd rfl h
  | _ => rfl

theorem exec_deliveries (h : op.part ≠ .deliveries) :
    (exec A op w).2.deliveries = w.deliveries := by
  cases op with
  | sql s => rcases exec_sql_cases A w s with h' | ⟨x, db, -, -, h'⟩ <;> rw [h'] <;> rfl
  | forward s t => exact absurd rfl h
  | publishSystem t m => exact absurd rfl h
  | _ => rfl

/-- A delivery of the new world: an old one, or of a message routed just now. -/
theorem exec_delivery {A : AppState} {w : World} (op : Op) {d : Delivery}
    (hd : d ∈ (exec A op w).2.deliveries) :
    d ∈ w.deliveries ∨ d ∈ deliver d.topic w.connections := by
  have routed {topic : String} (h : d ∈ w.deliveries ++ deliver topic w.connections) :
      d ∈ w.deliveries ∨ d ∈ deliver d.topic w.connections := by
    rcases List.mem_append.mp h with h | h
    · exact Or.inl h
    · obtain ⟨c, hc, hf, rfl⟩ := mem_deliver.mp h
      exact Or.inr (mem_deliver.mpr ⟨c, hc, hf, rfl⟩)
  cases op with
  | forward session topic =>
      simp only [exec] at hd
      split at hd
      · exact routed hd
      · exact Or.inl hd
  | publishSystem topic message => exact routed hd
  | sql s =>
      rcases exec_sql_cases A w s with h | ⟨x, db, -, -, h⟩
      · rw [h] at hd; exact Or.inl hd
      · rw [h] at hd; exact Or.inl hd
  | _ => exact Or.inl hd

@[simp] theorem exec_clock : (exec A op w).2.clock = w.clock := by
  cases op with
  | sql s => rcases exec_sql_cases A w s with h | ⟨x, db, -, -, h⟩ <;> rw [h] <;> rfl
  | forward s t => simp only [exec]; split <;> rfl
  | _ => rfl

end
end Smqtt
