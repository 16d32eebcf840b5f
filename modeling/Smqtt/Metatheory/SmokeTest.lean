import Smqtt.Client.SmokeTest
import Smqtt.Metatheory.LoginAvailability
import Smqtt.Runs.Successes

/-!
The smoke test passes from every state that a run can reach, not only on a server that
has just started: whatever accounts, exchanges and connections there are, newcomers can
register, log in, exchange keys and talk, and a revocation disconnects them.
-/

namespace Smqtt

open AtomicSteps System

variable {A : AppState} {allowed : Scheduling} {h : PoolLog} {s : Threads} {v w : World}
  {lib : ClientLibraries} {cipher : ChaCha20Poly1305} {around : Surroundings} {start : Nat}
  {client peer : SmqttClient} {claims : Claims} {α : Type}

/-- The keys of a pair that a client has generated. -/
structure UsableKeys (A : AppState) (lib : ClientLibraries) (privateKey : List UInt8) : Prop where
  ed25519 : (lib.ed25519Public privateKey).length = 32 ∧
    A.lib.ed25519Point (lib.ed25519Public privateKey) = true
  signs : ∀ n, (lib.ed25519Sign privateKey (A.outside.randomBytes n)).length = 64 ∧
    A.lib.ed25519Verify (lib.ed25519Public privateKey) (A.outside.randomBytes n)
      (lib.ed25519Sign privateKey (A.outside.randomBytes n)) = true
  x25519 : (lib.x25519Public privateKey).length = 32

/-- The libraries keep their promises, the server takes newcomers and no statement fails. -/
structure Dependable (A : AppState) (lib : ClientLibraries) (cipher : ChaCha20Poly1305)
    (around : Surroundings) : Prop where
  unfailing : Unfailing A
  fresh : FreshIds A
  named : ∀ n, A.outside.uuid n ≠ ""
  admits : A.config.registrationMode = .open
  encodes : ∀ claims, A.lib.jwtEncode A.jwtKeys.secret claims ≠ none
  noToken : A.lib.jwtDecode A.jwtKeys.secret "" = none
  lifetime : A.config.jwtTtlSeconds.toNat < 2 ^ 63
  decodes : lib.Decodes
  commutes : lib.Commutes
  keys : ∀ w, UsableKeys A lib (around.privateKey w)
  agrees : ∀ v w, lib.x25519Exchange (around.privateKey v)
    (lib.x25519Public (around.privateKey w)) ≠ none
  nonces : ∀ w, (around.nonce w).length = 12
  decrypts : ∀ key nonce plaintext,
    cipher.decrypt key nonce (cipher.encrypt key nonce plaintext) = some plaintext
  prompt : ∀ w, around.pause w ≤ Auth.challengeTtlSecs

/-- When a token that is issued at this time has run out. -/
def AppState.deadline (A : AppState) (start : Nat) : Nat :=
  start + A.config.jwtTtlSeconds.toNat + jwtLeeway

/-- Some run reaches this world, and the time of the test is not over. -/
structure Fit (A : AppState) (start : Nat) (w : World) : Prop where
  reachable : Reachable A w
  started : start ≤ w.clock.secs
  inTime : w.clock.secs ≤ A.deadline start

theorem Fit.arrival (within : around.Within (A.deadline start)) (fit : Fit A start w) :
    Fit A start (arrive around w) where
  reachable := fit.reachable.arrive
  started := Nat.le_trans fit.started (Clock.le_advance _ _)
  inTime := Nat.le_trans (Clock.advance_le _ _) (within w fit.inTime)

theorem Fit.served (within : around.Within (A.deadline start)) (op : ClientOp) (w : World)
    (fit : Fit A start w) : Fit A start (execClient A around op w).2 := by
  have reachable : Reachable A (execClient A around op w).2 := fit.reachable.execClient op w
  have arrived := fit.arrival within
  have clock : (execClient A around op w).2.clock = w.clock ∨
    (execClient A around op w).2.clock = (arrive around w).clock := execClient_clock op
  rcases clock with same | same
  · exact ⟨reachable, by rw [same]; exact fit.started, by rw [same]; exact fit.inTime⟩
  · exact ⟨reachable, by rw [same]; exact arrived.started, by rw [same]; exact arrived.inTime⟩

section
variable (fit : Fit A start w)
include fit

theorem Fit.wellFormed : w.WellFormed A := by
  obtain ⟨h, s, run, rfl⟩ := fit.reachable
  exact state_wellFormed run

/-- Ids that have not been drawn are not in use. -/
theorem Fit.free (fresh : FreshIds A) {n : Nat} (later : w.draws ≤ n) :
    A.outside.uuid n ∉ w.db.ids := by
  intro used
  obtain ⟨d, drawn, same⟩ := fit.wellFormed.ids _ used
  have := fresh same
  omega

section
variable (fresh : FreshIds A) {n : Nat} (later : w.draws ≤ n)
include fresh later

theorem Fit.unused {β : Type} {rows : List β} {id : β → String}
    (keys : ∀ k ∈ rows.map id, k ∈ w.db.ids) :
    (rows.any fun x => id x = A.outside.uuid n) = false := by
  rw [List.any_eq_false]
  intro x mem same
  exact fit.free fresh later (of_decide_eq_true same ▸ keys _ (List.mem_map_of_mem mem))

theorem Fit.userFree : w.db.hasUser (A.outside.uuid n) = false :=
  fit.unused fresh later fun k mem => by
    simp only [Database.ids, List.mem_append, mem, true_or]

theorem Fit.deviceFree : (w.db.devices.any fun d => d.deviceId = A.outside.uuid n) = false :=
  fit.unused fresh later fun k mem => by
    simp only [Database.ids, List.mem_append, mem, true_or, or_true]

theorem Fit.relationshipFree :
    (w.db.relationships.any fun r => r.relationshipId = A.outside.uuid n) = false :=
  fit.unused fresh later fun k mem => by
    simp only [Database.ids, List.mem_append, mem, true_or, or_true]

theorem Fit.exchangeFree :
    (w.db.pendingExchanges.any fun e => e.exchangeId = A.outside.uuid n) = false :=
  fit.unused fresh later fun k mem => by
    simp only [Database.ids, List.mem_append, mem, true_or, or_true]

end
end

/-- A request that arrives in time and is answered leaves a world that is fit again. -/
theorem Fit.requested {c : Call} {read : Reply → Option α} {Q : α → World → Prop}
    (within : around.Within (A.deadline start)) (fit : Fit A start w)
    (handled : Fit A start (arrive around w) → Prog.Achieves (exec A) (handle A c)
      (arrive around w) fun reply v =>
        ∃ a, read reply = some a ∧ (Fit A start v → Q a v)) :
    Prog.Achieves (execClient A around) (request c read) w Q := by
  refine ((request_achieves (Q := fun a v => Fit A start v → Q a v)
    (handled (fit.arrival within))).preserving (Fit.served within) fit).mono ?_
  intro a v post
  exact post.1 post.2

/-- No account, device or relationship has gone. -/
structure Grows (w v : World) : Prop where
  users : w.db.users <+: v.db.users
  devices : w.db.devices <+: v.db.devices
  relationships : w.db.relationships <+: v.db.relationships

theorem Grows.trans {u : World} (first : Grows u w) (second : Grows w v) : Grows u v where
  users := first.users.trans second.users
  devices := first.devices.trans second.devices
  relationships := first.relationships.trans second.relationships

theorem grows_of_db (same : v.db = w.db) : Grows w v := by
  constructor <;> rw [same]

theorem Grows.user (grows : Grows w v) {u : String} {user : User}
    (known : w.db.user u = some user) : v.db.user u = some user := by
  obtain ⟨new, users⟩ := grows.users
  have found : w.db.users.find? (fun x => x.userId = u) = some user := known
  rw [Database.user, ← users, List.find?_append, found]
  rfl

/-- The client has an account that is not suspended. -/
structure SmqttClient.Enrolled (A : AppState) (lib : ClientLibraries) (w : World)
    (client : SmqttClient) : Prop where
  user : ∃ user, w.db.user client.userId = some user ∧ user.suspended = false
  registered : client.Registered A lib w

theorem SmqttClient.Enrolled.grows (grows : Grows w v) (enrolled : client.Enrolled A lib w) :
    client.Enrolled A lib v := by
  obtain ⟨user, known, active⟩ := enrolled.user
  obtain ⟨d, mem, rest⟩ := enrolled.registered.device
  exact ⟨⟨user, grows.user known, active⟩, ⟨d, grows.devices.subset mem, rest⟩,
    enrolled.registered.decodes, enrolled.registered.signs⟩

theorem SmqttClient.Enrolled.renewed (enrolled : client.Enrolled A lib w) {jwt : Option String} :
    SmqttClient.Enrolled A lib w { client with jwt } :=
  ⟨enrolled.user, enrolled.registered.device, enrolled.registered.decodes,
    enrolled.registered.signs⟩

/-- The client holds a token with these claims that is accepted until the test is over. -/
structure SmqttClient.Bears (A : AppState) (start : Nat) (w : World) (client : SmqttClient)
    (claims : Claims) : Prop where
  token : ∃ token, client.jwt = some token ∧ token ≠ "" ∧
    A.lib.jwtDecode A.jwtKeys.secret token = some claims
  sub : claims.sub = client.userId
  dev : claims.dev = client.deviceId
  lasts : A.deadline start ≤ claims.exp + jwtLeeway
  user : ∃ user, w.db.user client.userId = some user ∧ user.suspended = false ∧
    user.tokensValidFrom ≤ asI64 claims.iat

theorem SmqttClient.Bears.grows (grows : Grows w v) (bears : client.Bears A start w claims) :
    client.Bears A start v claims := by
  obtain ⟨user, known, rest⟩ := bears.user
  exact { bears with user := ⟨user, grows.user known, rest⟩ }

theorem SmqttClient.Bears.auth (bears : client.Bears A start w claims) {now : Clock}
    (inTime : now.secs ≤ A.deadline start) :
    authUser A now client.authHeaders = some client.userId := by
  obtain ⟨token, held, -, decodes⟩ := bears.token
  have verifies : JwtKeys.verify A now token = .ok claims :=
    jwtVerify_ok decodes (Nat.le_trans inTime bears.lasts)
  have header : bearerToken client.authHeaders = some token := by
    unfold SmqttClient.authHeaders
    rw [held]
    exact bearerToken_bearer token
  unfold authUser
  rw [header]
  dsimp only
  rw [verifies]
  exact congrArg some bears.sub

/-- The exchange is there, with these keys. -/
def Offered (w : World) (e initiator responder : String) (pub : List UInt8)
    (answer : Option (List UInt8)) : Prop :=
  ∃ row, w.db.exchange e = some row ∧ row.initiatorId = initiator ∧ row.responderId = responder ∧
    row.initiatorPubkey = pub ∧ row.responderPubkey = answer

/-- A relationship of the user is for the topics of this secret. -/
def Related (lib : ClientLibraries) (w : World) (u : String) (secret : SharedSecret) : Prop :=
  ∃ r ∈ w.db.relationships, r.userId = u ∧
    Db.decodeTopics r.publishTopics = [secret.outboundTopic lib u] ∧
    Db.decodeTopics r.subscribeTopics = [secret.inboundTopic lib u]

theorem Related.grows {u : String} {secret : SharedSecret} (grows : Grows w v)
    (related : Related lib w u secret) : Related lib v u secret := by
  obtain ⟨r, mem, rest⟩ := related
  exact ⟨r, grows.relationships.subset mem, rest⟩

theorem find?_snoc {β : Type} {p : β → Bool} {rows : List β} {row : β}
    (new : rows.any p = false) (hit : p row = true) : (rows ++ [row]).find? p = some row := by
  have none : rows.find? p = none := List.find?_eq_none.mpr (List.any_eq_false.mp new)
  rw [List.find?_append, none, Option.none_or, List.find?_singleton, hit]
  rfl

theorem encode_ne_empty {bytes : List UInt8} (some : bytes.length ≠ 0) :
    Base64Url.encode bytes ≠ "" := by
  intro empty
  have same : Base64Url.decode (Base64Url.encode bytes) = Base64Url.decode (Base64Url.encode []) :=
    congrArg _ empty
  rw [Base64Url.decode_encode, Base64Url.decode_encode] at same
  exact some (congrArg List.length (Option.some.inj same))

theorem exchange_answered {db : Database} {e : String} {row : PendingExchange}
    (found : db.exchange e = some row) (key : List UInt8) :
    (db.updateExchange e fun x => { x with responderPubkey := some key }).exchange e =
      some { row with responderPubkey := some key } := by
  obtain ⟨-, id⟩ := find_exchange found
  have found : (db.pendingExchanges.find? fun x => x.exchangeId = e) = some row := found
  have same : ((fun x : PendingExchange => decide (x.exchangeId = e)) ∘ fun x =>
      if decide (x.exchangeId = e) = true then { x with responderPubkey := some key } else x) =
      fun x => decide (x.exchangeId = e) := by
    funext x
    simp only [Function.comp_apply]
    split <;> rfl
  rw [Database.exchange, Database.updateExchange, updateWhere, List.find?_map, same, found,
    Option.map_some, if_pos (decide_eq_true id)]

section
variable (dep : Dependable A lib cipher around) (within : around.Within (A.deadline start))
  (fit : Fit A start w)
include dep within fit

theorem register_joins : Prog.Achieves (execClient A around) (SmqttClient.register lib none) w
    fun client v => (Grows w v ∧ client.Enrolled A lib v ∧ client.userId ≠ "" ∧
      client.deviceId ≠ "" ∧ ∀ d ∈ w.db.devices, d.deviceId ≠ client.deviceId) ∧
        Fit A start v := by
  refine .preserving ?_ (Fit.served within) fit
  have arrived := fit.arrival within
  have keys := dep.keys w
  have deviceFree := arrived.deviceFree dep.fresh (Nat.le_succ _)
  have userFree := arrived.userFree dep.fresh (Nat.le_refl _)
  unfold SmqttClient.register
  refine .bind (Prog.achieves_perform (.bind (request_achieves (reply_achieves ?_))))
  refine register_achieves dep.unfailing dep.admits keys.ed25519.1 keys.ed25519.2 userFree
    deviceFree fun v db => ⟨_, rfl, Prog.achieves_done ⟨?_, ⟨?_, ?_⟩, dep.named _, dep.named _, ?_⟩⟩
  · constructor <;> rw [db]
    · exact List.prefix_append _ _
    · exact List.prefix_append _ _
    · exact List.prefix_refl _
  · refine ⟨⟨A.outside.uuid (arrive around w).draws, (arrive around w).clock.secs, false, none, 0⟩,
      ?_, rfl⟩
    rw [Database.user, db]
    exact find?_snoc userFree (decide_eq_true rfl)
  · refine ⟨⟨⟨A.outside.uuid ((arrive around w).draws + 1), A.outside.uuid (arrive around w).draws,
      lib.ed25519Public (around.privateKey w), (arrive around w).clock.secs⟩, ?_, rfl, rfl, rfl⟩,
      dep.decodes, keys.signs⟩
    rw [db]
    exact List.mem_append_right _ (List.mem_singleton_self _)
  · intro d mem same
    exact List.any_eq_false.mp deviceFree d mem (decide_eq_true same)

/-- A new token carries the topics of the relationships at its login. -/
theorem authenticate_renews (enrolled : client.Enrolled A lib w) :
    Prog.Achieves (execClient A around) (client.authenticate lib) w fun client' v =>
      (v.db = w.db ∧ ∃ token claims, client' = { client with jwt := some token } ∧
        client'.Bears A start v claims ∧
        claims.subTopics = (Db.topicsOf w.db client.userId).2 ++ [A.notifyTopic client.userId]) ∧
      Fit A start v := by
  refine .preserving ?_ (Fit.served within) fit
  obtain ⟨user, known, active⟩ := enrolled.user
  have wellFormed := fit.wellFormed
  obtain ⟨token, decodes, run⟩ := authenticate_run (dep.unfailing.onward _) dep.encodes
    wellFormed known active enrolled.registered dep.prompt
  let v := authenticated A around w client.userId
  have later : w.clock.secs ≤ v.clock.secs :=
    Nat.le_trans (Clock.le_advance _ _) (Clock.le_advance _ _)
  refine ⟨_, _, run, rfl, token, ownClaims A v client, rfl, ?_, rfl⟩
  refine ⟨⟨token, rfl, ?_, decodes⟩, rfl, rfl, ?_, user, known, active, ?_⟩
  · rintro rfl
    cases dep.noToken.symm.trans decodes
  · have small := v.clock.inRange
    have lifetime := dep.lifetime
    have exp : (ownClaims A v client).exp = v.clock.secs + A.config.jwtTtlSeconds.toNat :=
      addU64_of_lt (by omega)
    have started := fit.started
    rw [exp, AppState.deadline]
    omega
  · have cutoff := (wellFormed.users user (List.mem_of_find?_eq_some known)).tokensValidFrom.2
    change user.tokensValidFrom ≤ asI64 v.clock.secs
    rw [Clock.asI64_secs]
    omega

theorem initiate_offers (bears : client.Bears A start w claims) (enrolled : peer.Enrolled A lib w) :
    Prog.Achieves (execClient A around) (client.initiateExchange lib peer.userId) w fun x v =>
      Grows w v ∧ x.1 ≠ "" ∧ x.2 = around.privateKey w ∧
        Offered v x.1 client.userId peer.userId (lib.x25519Public x.2) none ∧ Fit A start v := by
  obtain ⟨user, known, -⟩ := enrolled.user
  obtain ⟨own, mine, -⟩ := bears.user
  unfold SmqttClient.initiateExchange
  refine .bind (Prog.achieves_perform (.bind (fit.requested within fun arrived =>
    reply_achieves ?_)))
  have free := arrived.exchangeFree dep.fresh (Nat.le_refl _)
  refine initiate_achieves dep.unfailing (bears.auth arrived.inTime)
    (Database.hasUser_of_user mine) known (dep.keys w).x25519 free fun v db =>
      ⟨_, rfl, fun after => Prog.achieves_done ⟨?_, dep.named _, rfl, ?_, after⟩⟩
  · constructor <;> rw [db] <;> exact List.prefix_refl _
  · refine ⟨newExchange A (arrive around w) client.userId peer.userId
      (lib.x25519Public (around.privateKey w)), ?_, rfl, rfl, rfl, rfl⟩
    rw [Database.exchange, db]
    exact find?_snoc free (decide_eq_true rfl)

theorem createRelationship_relates (bears : client.Bears A start w claims)
    (peerId : String) (secret : SharedSecret) :
    Prog.Achieves (execClient A around) (client.createRelationship lib peerId secret) w fun _ v =>
      Grows w v ∧ v.db.pendingExchanges = w.db.pendingExchanges ∧
        Related lib v client.userId secret ∧ Fit A start v := by
  obtain ⟨own, mine, -⟩ := bears.user
  refine fit.requested within fun arrived => reply_achieves ?_
  refine create_achieves dep.unfailing (bears.auth arrived.inTime) (Database.hasUser_of_user mine)
    (arrived.relationshipFree dep.fresh (Nat.le_refl _)) fun response v r owner ps ss db =>
      ⟨_, rfl, fun after => ⟨?_, by rw [db]; rfl, ⟨r, ?_, owner, ?_, ?_⟩, after⟩⟩
  · constructor <;> rw [db]
    · exact List.prefix_refl _
    · exact List.prefix_refl _
    · exact List.prefix_append _ _
  · rw [db]
    exact List.mem_append_right _ (List.mem_singleton_self _)
  · rw [ps, decodeTopics_encode]
  · rw [ss, decodeTopics_encode]

theorem respond_answers (bears : client.Bears A start w claims) {e initiator : String} (u : World)
    (offered : Offered w e initiator client.userId (lib.x25519Public (around.privateKey u)) none) :
    Prog.Achieves (execClient A around) (client.respondToExchange lib e) w fun x v =>
      ∃ drawn raw, lib.x25519Exchange (around.privateKey drawn)
          (lib.x25519Public (around.privateKey u)) = some raw ∧
        x = (.derive lib raw (lib.x25519Public (around.privateKey drawn))
          (lib.x25519Public (around.privateKey u)) initiator, initiator) ∧
        Grows w v ∧ Related lib v client.userId x.1 ∧
        Offered v e initiator client.userId (lib.x25519Public (around.privateKey u))
          (some (lib.x25519Public (around.privateKey drawn))) ∧ Fit A start v := by
  obtain ⟨row, found, rfl, responder, pub, unanswered⟩ := offered
  unfold SmqttClient.respondToExchange
  -- the key of the initiator
  refine .bind (fit.requested within fun arrived => reply_achieves ?_)
  refine get_unanswered_achieves dep.unfailing (bears.auth arrived.inTime) found responder
    unanswered ⟨_, rfl, fun read => ?_⟩
  dsimp only
  rw [dep.decodes, pub]
  obtain ⟨raw, agreed⟩ := Option.ne_none_iff_exists'.mp (dep.agrees (arrive around w).counted u)
  refine .bind (Prog.achieves_done (.bind (Prog.achieves_perform (.bind ?_))))
  change Prog.Achieves _ (orRaise _ (lib.x25519Exchange
    (around.privateKey (arrive around w).counted) _)) _ _
  rw [agreed]
  refine Prog.achieves_done (.bind (read.requested within fun arrived => reply_achieves ?_))
  -- its own key
  refine respond_achieves dep.unfailing (bears.auth arrived.inTime) found responder unanswered
    (dep.keys _).x25519 fun response v db => ⟨_, rfl, fun answered => .bind ?_⟩
  have kept : Grows w v := by
    constructor <;> rw [db] <;> exact List.prefix_refl _
  refine (createRelationship_relates dep within answered (bears.grows kept) row.initiatorId
    _).mono ?_
  rintro relationshipId v' ⟨grows, exchanges, related, after⟩
  refine Prog.achieves_done ⟨(arrive around w).counted, raw, agreed, rfl, kept.trans grows,
    related, ⟨{ row with responderPubkey := some _ }, ?_, rfl, responder, pub, rfl⟩, after⟩
  rw [Database.exchange, exchanges, db]
  exact exchange_answered found _

theorem complete_agrees (bears : client.Bears A start w claims) {e responder : String}
    (u u' : World) {raw : List UInt8}
    (offered : Offered w e client.userId responder (lib.x25519Public (around.privateKey u))
      (some (lib.x25519Public (around.privateKey u'))))
    (agreed : lib.x25519Exchange (around.privateKey u')
      (lib.x25519Public (around.privateKey u)) = some raw) :
    Prog.Achieves (execClient A around) (client.completeExchange lib e (around.privateKey u)) w
      fun x v => ∃ secret, secret = .derive lib raw (lib.x25519Public (around.privateKey u))
          (lib.x25519Public (around.privateKey u')) responder ∧ x = some (secret, responder) ∧
        Grows w v ∧ Related lib v client.userId secret ∧ Fit A start v := by
  obtain ⟨row, found, initiator, rfl, -, answered⟩ := offered
  unfold SmqttClient.completeExchange
  refine .bind (fit.requested within fun arrived => reply_achieves ?_)
  refine get_answered_achieves dep.unfailing (bears.auth arrived.inTime) found initiator answered
    fun v db => ⟨_, rfl, fun read => ?_⟩
  have kept : Grows w v := by
    constructor <;> rw [db] <;> exact List.prefix_refl _
  have text : Base64Url.encode (lib.x25519Public (around.privateKey u')) ≠ "" :=
    encode_ne_empty (by rw [(dep.keys u').x25519]; decide)
  dsimp only
  rw [Option.filter_some, if_pos (decide_eq_true text)]
  dsimp only
  rw [dep.decodes]
  refine .bind (Prog.achieves_done (.bind ?_))
  rw [dep.commutes, agreed]
  refine Prog.achieves_done (.bind ?_)
  refine (createRelationship_relates dep within read (bears.grows kept) row.responderId _).mono ?_
  rintro relationshipId v' ⟨grows, -, related, after⟩
  exact Prog.achieves_done ⟨_, rfl, rfl, kept.trans grows, related, after⟩

end

section
variable {b : Bench}

theorem ofMethod_achieves {p : Method α} {Q : α → Bench → Prop}
    (achieves : Prog.Achieves (execClient A around) p b.world fun a v =>
      Q a { b with world := v }) :
    Prog.Achieves (Bench.exec A around) (ofMethod p) b Q := by
  induction p generalizing b with
  | done a =>
      obtain ⟨_, _, run, post⟩ := achieves
      obtain ⟨same, rfl⟩ := Prod.mk.inj run
      obtain rfl := Except.ok.inj same
      exact ⟨a, b, rfl, post⟩
  | fail e =>
      obtain ⟨_, _, run, -⟩ := achieves
      cases run
  | call op next ih =>
      obtain ⟨a, v, run, post⟩ := achieves
      obtain ⟨a', b', run', post'⟩ := ih (execClient A around op b.world).1
        (b := { b with world := (execClient A around op b.world).2 }) ⟨a, v, run, post⟩
      exact ⟨a', b', run', post'⟩

theorem check_achieves {label : String} {ok : Bool} {Q : Unit → Bench → Prop} (passes : ok = true)
    (post : Q () b) : Prog.Achieves (Bench.exec A around) (check label ok) b Q := by
  refine Prog.achieves_perform ?_
  rw [passes]
  exact post

/-- The server answers a request of an MQTT client. -/
theorem client_achieves {c : Call} {Q : Except Error Reply → Bench → Prop}
    (within : around.Within (A.deadline start)) (fit : Fit A start b.world)
    (handled : Prog.Achieves (exec A) (handle A c) (arrive around b.world) fun reply v =>
      Fit A start v → Q (.ok reply) { b with world := v }) :
    Prog.Achieves (Bench.exec A around)
      (Prog.perform (S := scriptSignature) (.client (.request c)) : Script (Except Error Reply))
      b Q := by
  obtain ⟨reply, v, run, post⟩ := handled
  have served : execClient A around (.request c) b.world = (.ok reply, v) := run
  have after := fit.served within (.request c)
  rw [served] at after
  refine Prog.achieves_perform ?_
  change Q (execClient A around (.request c) b.world).1
    { b with world := (execClient A around (.request c) b.world).2 }
  rw [served]
  exact post after

theorem isConnected_achieves {clientId : String} {n : Nat} {Q : Bool → Bench → Prop}
    (online : Online b.world ⟨n, clientId⟩ claims) (post : Q true b) :
    Prog.Achieves (Bench.exec A around) (MqttClient.isConnected ⟨clientId, some n⟩) b Q := by
  refine Prog.achieves_perform ?_
  change Q (b.world.live ⟨n, clientId⟩) b
  rw [online.live]
  exact post

theorem waitForDisconnect_achieves {clientId : String} {n : Nat} {Q : Bool → Bench → Prop}
    (gone : b.world.live ⟨n, clientId⟩ = false) (post : Q true b) :
    Prog.Achieves (Bench.exec A around) (MqttClient.waitForDisconnect ⟨clientId, some n⟩) b Q := by
  refine .bind (Prog.achieves_perform (Prog.achieves_done ?_))
  change Q (!b.world.live ⟨n, clientId⟩) b
  rw [gone]
  exact post

/-- The user who revokes a relationship is disconnected with all devices. -/
theorem revoked_offline (unfailing : Unfailing A) {u r peer : String} {d : Device} {n : Nat}
    (device : d ∈ w.db.devices) (owner : d.userId = u) :
    (Relationships.revoked A w u r peer).live ⟨n, d.deviceId⟩ = false := by
  rw [World.live, List.any_eq_false]
  intro x mem is
  rw [Session.isOf, Bool.and_eq_true] at is
  obtain ⟨-, closed⟩ := Broker.mem_kicked (Broker.mem_kicked mem).1
  exact closed (unfailing _) d device owner (of_decide_eq_true is.2).symm

theorem subscribe_holds {clientId topic : String} {n : Nat}
    (within : around.Within (A.deadline start)) (fit : Fit A start b.world)
    (online : Online b.world ⟨n, clientId⟩ claims) (own : topic ∈ claims.subTopics) :
    Prog.Achieves (Bench.exec A around) (MqttClient.subscribe ⟨clientId, some n⟩ topic) b
      fun _ b' => ∃ v, b' = { b with world := v } ∧ Fit A start v ∧ v.db = b.world.db ∧
        Holds v ⟨n, clientId⟩ topic ∧
        ∀ session claims', Online b.world session claims' → Online v session claims' := by
  have arrived : Online (arrive around b.world) ⟨n, clientId⟩ claims := ⟨online.claims, online.live⟩
  have asked : (⟨topic, .atLeastOnce⟩ : Subscribe).topicFilter ∈ claims.subTopics := own
  have granted : (handle A (.subscribe ⟨n, clientId⟩ ⟨topic, .atLeastOnce⟩)).run (exec A)
      (arrive around b.world) = (.ok (.subscribed true),
        (exec A (.grant ⟨n, clientId⟩ topic) (arrive around b.world)).2) := by
    rw [handle_subscribe, arrived.subscribe asked]
    rfl
  refine .bind (client_achieves within fit ⟨_, _, granted, fun after => Prog.achieves_done
    ⟨_, rfl, after, rfl, (arrived.grant topic).2, fun session claims' online => ?_⟩⟩)
  have other : Online (arrive around b.world) session claims' := ⟨online.claims, online.live⟩
  exact other.granted topic

theorem encrypt_achieves {secret : SharedSecret} {plaintext : List UInt8}
    {Q : List UInt8 → Bench → Prop}
    (post : Q (around.nonce b.world ++
      cipher.encrypt secret.encKey (around.nonce b.world) plaintext) b) :
    Prog.Achieves (Bench.exec A around) (secret.encrypt cipher plaintext) b Q :=
  .bind (Prog.achieves_perform (Prog.achieves_done post))

/-- A payload that was encrypted under the key of the secret is decrypted. -/
theorem decrypt_achieves (dep : Dependable A lib cipher around) {secret : SharedSecret}
    {key plaintext : List UInt8} {Q : List UInt8 → Bench → Prop} (u : World)
    (same : key = secret.encKey) (post : Q plaintext b) :
    Prog.Achieves (Bench.exec A around) (secret.decrypt cipher
      (around.nonce u ++ cipher.encrypt key (around.nonce u) plaintext)) b Q := by
  unfold SharedSecret.decrypt
  dsimp only
  rw [List.take_left' (dep.nonces u), List.drop_left' (dep.nonces u), same, dep.decrypts]
  exact Prog.achieves_done post

/-- The subscriber of a topic receives what is published on it. -/
theorem publish_delivers {clientId peerId topic : String} {n m : Nat} {payload : List UInt8}
    (within : around.Within (A.deadline start)) (fit : Fit A start b.world)
    (online : Online b.world ⟨n, clientId⟩ claims) (holds : Holds b.world ⟨m, peerId⟩ topic)
    (empty : b.received = []) :
    Prog.Achieves (Bench.exec A around) (MqttClient.publish ⟨clientId, some n⟩ topic payload) b
      fun _ b' => ∃ v received, b' = ⟨v, received, b.failures⟩ ∧ Fit A start v ∧
        v.db = b.world.db ∧ (∃ r ∈ received, r.connection = m) ∧
        ∀ r ∈ received, r.payload = payload := by
  let w := arrive around b.world
  have live : w.live ⟨n, clientId⟩ = true := online.live
  have served : (execClient A around (.request (.publish ⟨n, clientId⟩ topic)) b.world).2 =
      { w with deliveries := w.deliveries ++ deliver topic w.connections } := by
    change ((handle A (.publish ⟨n, clientId⟩ topic)).run (exec A) w).2 = _
    rw [handle_publish, exec, if_pos live]
  have new : (w.deliveries ++ deliver topic w.connections).drop b.world.deliveries.length =
      deliver topic w.connections := List.drop_left ..
  obtain ⟨c, mem, is, subscribed⟩ := holds
  have addressed : c.id = m := by
    rw [Session.isOf, Bool.and_eq_true] at is
    exact of_decide_eq_true is.1
  have delivered : ⟨topic, c.id, c.clientId⟩ ∈ deliver topic w.connections :=
    mem_deliver.mpr ⟨c, mem, ⟨topic, subscribed, TopicFilter.matches_self topic⟩, rfl⟩
  refine Prog.achieves_perform ⟨_, _, rfl, fit.served within _ _, ?_, ?_⟩
  · rw [served]
    rfl
  rw [served, new, empty, List.nil_append]
  refine ⟨⟨_, List.mem_map_of_mem delivered, addressed⟩, fun r mem => ?_⟩
  obtain ⟨d, -, rfl⟩ := List.mem_map.mp mem
  rfl

theorem received_achieves {clientId : String} {n : Nat} {payload : List UInt8} {r : Received}
    {Q : List (String × List UInt8) → Bench → Prop} (mem : r ∈ b.received)
    (addressed : r.connection = n) (same : ∀ r ∈ b.received, r.payload = payload)
    (post : ∀ messages : List (String × List UInt8), messages ≠ [] →
      (∀ x ∈ messages, x.2 = payload) → Q messages b) :
    Prog.Achieves (Bench.exec A around) (MqttClient.received ⟨clientId, some n⟩) b Q := by
  refine Prog.achieves_perform (post _ ?_ fun x mem => ?_)
  · have there : r ∈ b.received.filter fun r => r.connection = n :=
      List.mem_filter.mpr ⟨mem, decide_eq_true addressed⟩
    exact List.ne_nil_of_mem (List.mem_map_of_mem there)
  · obtain ⟨r, there, rfl⟩ := List.mem_map.mp mem
    exact same r (List.mem_filter.mp there).1

namespace SmokeTest

variable (dep : Dependable A lib cipher around) (within : around.Within (A.deadline start))
  (fit : Fit A start b.world)
include dep within fit

theorem registrationAndAuth_passes :
    Prog.Achieves (Bench.exec A around) (registrationAndAuth lib) b fun alice b' =>
      ∃ v claims, b' = { b with world := v } ∧ Fit A start v ∧ alice.Enrolled A lib v ∧
        alice.Bears A start v claims := by
  unfold registrationAndAuth
  refine .bind (ofMethod_achieves ((register_joins dep within fit).mono ?_))
  rintro alice v ⟨⟨-, enrolled, named, deviceNamed, -⟩, joined⟩
  refine .bind (check_achieves (decide_eq_true named) (.bind (check_achieves
    (decide_eq_true deviceNamed) (.bind (ofMethod_achieves
      ((authenticate_renews dep within joined enrolled).mono ?_))))))
  rintro _ v' ⟨⟨same, token, claims, rfl, bears, -⟩, after⟩
  have held : token ≠ "" := by
    obtain ⟨_, jwt, held, -⟩ := bears.token
    obtain rfl := Option.some.inj jwt
    exact held
  refine .bind (check_achieves (decide_eq_true held) (Prog.achieves_done ?_))
  exact ⟨v', claims, rfl, after, (enrolled.grows (grows_of_db same)).renewed, bears⟩

/-- The parties have agreed, and their new tokens permit what they have agreed on. -/
structure Exchanged.Agreed (A : AppState) (lib : ClientLibraries) (start : Nat) (w : World)
    (x : Exchanged) : Prop where
  aliceIn : ∃ claims, x.alice.Bears A start w claims
  bobIn : ∃ claims, x.bob.Bears A start w claims ∧
    x.secretB.inboundTopic lib x.bob.userId ∈ claims.subTopics
  apart : x.alice.deviceId ≠ x.bob.deviceId
  enrolled : x.alice.Enrolled A lib w
  related : Related lib w x.alice.userId x.secretA
  paired : Paired lib x.secretA x.secretB x.alice.userId x.bob.userId

theorem keyExchange_passes {alice : SmqttClient} (enrolled : alice.Enrolled A lib b.world)
    (bears : alice.Bears A start b.world claims) :
    Prog.Achieves (Bench.exec A around) (keyExchange lib alice) b fun x b' =>
      ∃ v, b' = { b with world := v } ∧ Fit A start v ∧ x.Agreed A lib start v := by
  unfold keyExchange
  refine .bind (ofMethod_achieves ((register_joins dep within fit).mono ?_))
  rintro bob w₁ ⟨⟨grows₁, bobEnrolled, -, -, apart⟩, fit₁⟩
  refine .bind (ofMethod_achieves ((authenticate_renews dep within fit₁ bobEnrolled).mono ?_))
  rintro _ w₂ ⟨⟨same₂, token, claims', rfl, bobBears, -⟩, fit₂⟩
  have grows₂ : Grows b.world w₂ := grows₁.trans (grows_of_db same₂)
  refine .bind (ofMethod_achieves ((initiate_offers dep within fit₂ (bears.grows grows₂)
    (bobEnrolled.grows (grows_of_db same₂)).renewed).mono ?_))
  rintro ⟨exId, eph⟩ w₃ ⟨grows₃, named, rfl, offered, fit₃⟩
  refine .bind (check_achieves (decide_eq_true named) (.bind (ofMethod_achieves
    ((respond_answers dep within fit₃ (bobBears.grows grows₃) w₂ offered).mono ?_))))
  rintro ⟨secretB, peerIdB⟩ w₄ ⟨u, raw, agreed, same, grows₄, relatedB, answered, fit₄⟩
  obtain ⟨rfl, rfl⟩ := Prod.mk.inj same
  refine .bind (check_achieves (decide_eq_true rfl) (.bind (ofMethod_achieves
    ((complete_agrees dep within fit₄ (bears.grows (grows₂.trans (grows₃.trans grows₄))) w₂ u
      answered agreed).mono ?_))))
  rintro _ w₅ ⟨secretA, rfl, rfl, grows₅, relatedA, fit₅⟩
  have paired : Paired lib
      (.derive lib raw (lib.x25519Public (around.privateKey w₂))
        (lib.x25519Public (around.privateKey u)) bob.userId)
      (.derive lib raw (lib.x25519Public (around.privateKey u))
        (lib.x25519Public (around.privateKey w₂)) alice.userId) alice.userId bob.userId :=
    derive_paired ..
  refine .bind (check_achieves rfl (.bind (check_achieves (decide_eq_true rfl) (.bind
    (check_achieves (decide_eq_true paired.outbound) ?_)))))
  -- the new logins
  have grown : Grows b.world w₅ := grows₂.trans (grows₃.trans (grows₄.trans grows₅))
  have enrolledA := enrolled.grows grown
  refine .bind (ofMethod_achieves ((authenticate_renews dep within fit₅ enrolledA).mono ?_))
  rintro _ w₆ ⟨⟨same₆, tokenA, claimsA, rfl, bearsA, -⟩, fit₆⟩
  have grows₆ := grows_of_db same₆
  have enrolledB := (((bobEnrolled.grows (grows_of_db same₂)).grows grows₃).grows grows₄).grows
    (grows₅.trans grows₆)
  refine .bind (ofMethod_achieves ((authenticate_renews dep within fit₆ enrolledB.renewed).mono ?_))
  rintro _ w₇ ⟨⟨same₇, tokenB, claimsB, rfl, bearsB, subTopics⟩, fit₇⟩
  have grows₇ := grows_of_db same₇
  refine Prog.achieves_done ⟨w₇, rfl, fit₇, ⟨claimsA, bearsA.grows grows₇⟩,
    ⟨claimsB, bearsB, ?_⟩, ?_, (enrolledA.grows (grows₆.trans grows₇)).renewed,
    relatedA.grows (grows₆.trans grows₇), paired⟩
  · obtain ⟨r, mem, owner, -, topics⟩ := relatedB.grows (grows₅.trans grows₆)
    rw [subTopics]
    exact List.mem_append_left _ (mem_topicsOf_sub.mpr ⟨r, mem, owner, by rw [topics]; simp⟩)
  · obtain ⟨d, mem, id, -⟩ := enrolled.registered.device
    exact fun same => apart d mem (id.trans same)

theorem connect_online (bears : client.Bears A start b.world claims) :
    Prog.Achieves (Bench.exec A around) (MqttClient.connect client.deviceId client.jwt) b
      fun mqc b' => ∃ v n, b' = { b with world := v } ∧ Fit A start v ∧ v.db = b.world.db ∧
        mqc = ⟨client.deviceId, some n⟩ ∧ Online v ⟨n, client.deviceId⟩ claims ∧
        ∀ session claims', session.clientId ≠ client.deviceId →
          Online b.world session claims' → Online v session claims' := by
  obtain ⟨token, held, -, decodes⟩ := bears.token
  obtain ⟨user, known, active, current⟩ := bears.user
  have admits := connect_admits (w := arrive around b.world) (dep.unfailing.onward _) decodes
    (Nat.le_trans (fit.arrival within).inTime bears.lasts) (by rw [bears.sub]; exact known) active
    current
  rw [bears.dev] at admits
  have connected : (handle A (.connect ⟨client.deviceId, some (.text token)⟩)).run (exec A)
      (arrive around b.world) = (.ok (.connected (some (arrive around b.world).admitted)),
        Broker.admitted (arrive around b.world).counted client.deviceId token claims) := by
    rw [handle_connect, admits]
    rfl
  unfold MqttClient.connect
  rw [held]
  refine .bind (client_achieves within fit ⟨_, _, connected, fun after => Prog.achieves_done
    ⟨_, _, rfl, after, rfl, rfl, admitted_online .., fun session claims' other online => ?_⟩⟩)
  exact ⟨(Function.update_of_ne other ..).trans online.claims, by
    have live : (arrive around b.world).counted.connections.any session.isOf = true := online.live
    rw [World.live, Broker.admitted, List.any_append, live]
    rfl⟩

/-- The test returns the first connection and leaves the database as it was. -/
theorem mqttPubsub_passes {x : Exchanged} (agreed : x.Agreed A lib start b.world)
    (empty : b.received = []) :
    Prog.Achieves (Bench.exec A around) (mqttPubsub lib cipher x) b fun mqcA b' =>
      ∃ v received n, b' = ⟨v, received, b.failures⟩ ∧ Fit A start v ∧ v.db = b.world.db ∧
        mqcA = ⟨x.alice.deviceId, some n⟩ := by
  obtain ⟨claimsA, bearsA⟩ := agreed.aliceIn
  obtain ⟨claimsB, bearsB, own⟩ := agreed.bobIn
  unfold mqttPubsub
  refine .bind ((connect_online dep within fit bearsA).mono ?_)
  rintro _ _ ⟨w₁, n, rfl, fit₁, db₁, rfl, onlineA, -⟩
  refine .bind ((connect_online dep within fit₁ (bearsB.grows (grows_of_db db₁))).mono ?_)
  rintro _ _ ⟨w₂, m, rfl, fit₂, db₂, rfl, onlineB, others⟩
  have onlineA := others _ _ agreed.apart onlineA
  refine .bind (isConnected_achieves onlineA (.bind (check_achieves rfl (.bind
    (isConnected_achieves onlineB (.bind (check_achieves rfl ?_)))))))
  refine .bind ((subscribe_holds within fit₂ onlineB own).mono ?_)
  rintro _ _ ⟨w₃, rfl, fit₃, db₃, holds, others⟩
  refine .bind (encrypt_achieves (.bind ?_))
  rw [agreed.paired.outbound]
  refine (publish_delivers (b := { b with world := w₃ }) within fit₃ (others _ _ onlineA) holds
    empty).mono ?_
  rintro _ _ ⟨w₄, received, rfl, fit₄, db₄, ⟨r, mem, addressed⟩, same⟩
  refine .bind (.bind (received_achieves mem addressed same fun messages some _ =>
    Prog.achieves_done (.bind (check_achieves (by simpa using some) (.bind
      (received_achieves mem addressed same fun messages some payloads => ?_))))))
  obtain ⟨⟨_, raw⟩, last⟩ := Option.ne_none_iff_exists'.mp
    (fun none => some (List.getLast?_eq_none_iff.mp none))
  rw [last]
  obtain rfl := payloads _ (List.mem_of_getLast? last)
  refine .bind (decrypt_achieves dep _ agreed.paired.encKey (.bind (check_achieves
    (decide_eq_true rfl) (Prog.achieves_done ⟨w₄, received, n, rfl, fit₄, ?_, rfl⟩))))
  exact db₄.trans (db₃.trans (db₂.trans db₁))

theorem revocationKick_passes {alice : SmqttClient} {secret : SharedSecret} {n : Nat}
    (enrolled : alice.Enrolled A lib b.world) (bears : alice.Bears A start b.world claims)
    (related : Related lib b.world alice.userId secret) :
    Prog.Achieves (Bench.exec A around) (revocationKick alice ⟨alice.deviceId, some n⟩) b
      fun _ b' => b'.failures = b.failures := by
  obtain ⟨r, mem, owner, -⟩ := related
  obtain ⟨d, device, id, owned, -⟩ := enrolled.registered.device
  have own : r ∈ (arrive around b.world).db.relationships.filter fun r =>
      r.userId = alice.userId :=
    List.mem_filter.mpr ⟨mem, decide_eq_true owner⟩
  obtain ⟨first, rest, rows⟩ := List.exists_cons_of_ne_nil (List.ne_nil_of_mem own)
  have head : first ∈ first :: rest := List.mem_cons_self
  rw [← rows, List.mem_filter] at head
  obtain ⟨rel, found⟩ : ∃ rel,
      b.world.db.relationship alice.userId first.relationshipId = some rel :=
    Option.isSome_iff_exists.mp (List.find?_isSome.mpr
      ⟨first, head.1, Bool.and_eq_true_iff.mpr ⟨decide_eq_true rfl, head.2⟩⟩)
  unfold revocationKick
  refine .bind (client_achieves within fit (reply_achieves (list_achieves dep.unfailing
    (bears.auth (fit.arrival within).inTime) fun listed => ?_)))
  rw [rows]
  refine .bind (client_achieves within listed (reply_achieves (revoke_achieves dep.unfailing
    (bears.auth (listed.arrival within).inTime) found fun after => ?_)))
  refine .bind (waitForDisconnect_achieves ?_ (check_achieves rfl rfl))
  exact id ▸ revoked_offline dep.unfailing device owned

end SmokeTest

end

/-- Two newcomers pass the smoke test on a server in whatever state, while its tokens last. -/
theorem smoke_test_passes (dep : Dependable A lib cipher around) (run : PoolRun A allowed h s)
    (within : around.Within (A.deadline s.world.clock.secs)) :
    ∃ b, (SmokeTest.main lib cipher).run (Bench.exec A around) ⟨s.world, [], []⟩ = (.ok (), b) ∧
      b.failures = [] := by
  let b : Bench := ⟨s.world, [], []⟩
  have fit : Fit A s.world.clock.secs b.world :=
    ⟨reachable_of_run run, Nat.le_refl _,
      Nat.le_trans (Nat.le_add_right _ _) (Nat.le_add_right _ _)⟩
  suffices passes : Prog.Achieves (Bench.exec A around) (SmokeTest.main lib cipher) b
      fun _ b' => b'.failures = [] by
    obtain ⟨_, b', passed, none⟩ := passes
    exact ⟨b', passed, none⟩
  unfold SmokeTest.main
  refine .bind ((SmokeTest.registrationAndAuth_passes dep within fit).mono ?_)
  rintro alice _ ⟨v, claims, rfl, joined, enrolled, bears⟩
  refine .bind ((SmokeTest.keyExchange_passes dep within joined enrolled bears).mono ?_)
  rintro x _ ⟨v, rfl, exchanged, agreed⟩
  refine .bind ((SmokeTest.mqttPubsub_passes dep within exchanged agreed rfl).mono ?_)
  rintro _ _ ⟨v', received, n, rfl, talked, same, rfl⟩
  obtain ⟨claims, bears⟩ := agreed.aliceIn
  have grows := grows_of_db same
  exact SmokeTest.revocationKick_passes dep within talked (agreed.enrolled.grows grows)
    (bears.grows grows) (agreed.related.grows grows)

section
open Deployment

def shift (key nonce : List UInt8) : UInt8 :=
  UInt8.ofNat ((key ++ nonce).foldl (fun n b => n + b.toNat) 0)

/-- A stand-in for the cipher: the bytes are shifted and a checksum follows. -/
def shiftCipher : ChaCha20Poly1305 where
  encrypt key nonce plaintext :=
    plaintext.map (· + shift key nonce) ++ digest key (nonce ++ plaintext)
  decrypt key nonce ciphertext :=
    let plaintext := (ciphertext.take (ciphertext.length - 3)).map (· - shift key nonce)
    if ciphertext.drop (ciphertext.length - 3) = digest key (nonce ++ plaintext) then
      some plaintext
    else none

theorem shiftCipher_decrypts (key nonce plaintext : List UInt8) :
    shiftCipher.decrypt key nonce (shiftCipher.encrypt key nonce plaintext) = some plaintext := by
  have three : (digest key (nonce ++ plaintext)).length = 3 := rfl
  have back : ((· - shift key nonce) ∘ (· + shift key nonce) : UInt8 → UInt8) = id := by
    funext x
    exact UInt8.add_sub_cancel x _
  simp [shiftCipher, three, back]

/-- Every key is another, and a second passes before each request of the first minute. -/
def brisk : Surroundings where
  privateKey w := key w.draws
  nonce _ := List.replicate 12 0
  pause w := if w.clock.secs < 160 then 1 else 0

theorem dependable : Dependable app clientLibraries shiftCipher brisk where
  unfailing := unfailing
  fresh := freshIds
  named n := by simp [app, outside, digits]
  admits := rfl
  encodes claims := by simp [app, libraries, jwtEncode]
  noToken := by
    change jwtDecode [7] "" = none
    unfold jwtDecode
    refine if_neg fun same => ?_
    have four := (congrArg List.length same).trans (tag_length _ _)
    cases four
  lifetime := by decide
  decodes := clientLibraries_decodes
  commutes := clientLibraries_commutes
  keys w :=
    { ed25519 := ⟨rfl, rfl⟩
      signs n := ⟨rfl, by simp [clientLibraries, app, libraries]⟩
      x25519 := rfl }
  agrees v w := by simp [clientLibraries]
  nonces _ := rfl
  decrypts := shiftCipher_decrypts
  prompt w := by
    change (if w.clock.secs < 160 then 1 else 0) ≤ 60
    split <;> decide

/-- The test passes beside a pair of connected clients. -/
theorem smoke_test_passes_beside :
    ∃ b, (SmokeTest.main clientLibraries shiftCipher).run (Bench.exec app brisk)
        ⟨(poolState connecting).world, [], []⟩ = (.ok (), b) ∧ b.failures = [] := by
  have run : PoolRun app anything (poolLog connecting) (poolState connecting) :=
    poolMachine.run_anything connecting
  have start : (poolState connecting).world.clock.secs = 100 := by decide +kernel
  refine smoke_test_passes dependable run fun w soon => ?_
  have later : w.clock.secs ≤ 100 + 5 + 60 := by
    rw [start] at soon
    exact soon
  rw [start]
  change w.clock.secs + (if w.clock.secs < 160 then 1 else 0) ≤ 100 + 5 + 60
  split <;> omega

end

end Smqtt
