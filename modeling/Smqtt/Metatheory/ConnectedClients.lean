import Smqtt.Runs.Clients
import Smqtt.Runs.Exchanges
import Smqtt.Runs.Provenance
import Smqtt.Runs.Schedules

/-!
A completed key exchange connects its two clients. The server relays the public keys
of one row, each side sorts the two keys before it derives from them, and each names
its topics after itself and the peer, so that what the one may publish to the other
may receive.
-/

namespace Smqtt

open AtomicSteps System

variable {A : AppState} {lib : ClientLibraries} {allowed : Scheduling} {h : PoolLog} {s : Threads}
  {i j k m n : Nat} {client : SmqttClient} {e : String}

theorem sortedKeys_comm (a b : List UInt8) :
    SharedSecret.sortedKeys a b = SharedSecret.sortedKeys b a := by
  unfold SharedSecret.sortedKeys
  refine List.Perm.eq_of_pairwise (fun _ _ _ _ => List.le_antisymm)
    (List.pairwise_insertionSort (· ≤ ·) [a, b]) (List.pairwise_insertionSort (· ≤ ·) [b, a]) ?_
  exact (List.perm_insertionSort _ _).trans ((List.Perm.swap b a []).trans
    (List.perm_insertionSort _ _).symm)

/-- Two users hold the same keys, each under the name of the other. -/
structure Paired (lib : ClientLibraries) (secret secret' : SharedSecret) (u u' : String) :
    Prop where
  peer : secret.peerId = u'
  peer' : secret'.peerId = u
  topicSeed : secret.topicSeed = secret'.topicSeed
  encKey : secret.encKey = secret'.encKey
  authKey : secret.authKey = secret'.authKey
  outbound : secret.outboundTopic lib u = secret'.inboundTopic lib u'
  inbound : secret.inboundTopic lib u = secret'.outboundTopic lib u'

/-- The same agreement derives paired secrets from the keys in either order. -/
theorem derive_paired (raw pub pub' : List UInt8) (u u' : String) :
    Paired lib (.derive lib raw pub pub' u') (.derive lib raw pub' pub u) u u' := by
  have same := sortedKeys_comm pub pub'
  constructor <;> simp only [SharedSecret.derive, SharedSecret.outboundTopic,
    SharedSecret.inboundTopic, same]

/-- The claims of the client's token. -/
def SmqttClient.claims (A : AppState) (client : SmqttClient) : Option Claims :=
  client.jwt.bind (A.lib.jwtDecode A.jwtKeys.secret)

/-- The client is as a login in this run has left it. -/
def Authenticated (A : AppState) (lib : ClientLibraries) (h : PoolLog) (client : SmqttClient) :
    Prop :=
  ∃ before m n, Performs A h m n (SmqttClient.authenticate lib before) (.ok client)

/-- Behind a new token stands a read of the user's relationships during the login. -/
theorem authenticate_reads (run : PoolRun A allowed h s) {before : SmqttClient}
    (performs : Performs A h m n (before.authenticate lib) (.ok client)) :
    ∃ claims k i rows, client.claims A = some claims ∧ claims.sub = client.userId ∧
      client.userId = before.userId ∧ m ≤ k ∧ k < n ∧
      At h k i ⟨.sql (.selectRelationships client.userId), some rows⟩ ∧
      claims.pubTopics = (topicsOfRows rows).1 ∧
      ∀ t ∈ (topicsOfRows rows).2, t ∈ claims.subTopics := by
  unfold SmqttClient.authenticate at performs
  obtain ⟨text, m₁, first, performs⟩ := performs.bind
  obtain ⟨nonce, m₂, decoded, performs⟩ := performs.bind
  obtain ⟨token, m₃, second, performs⟩ := performs.bind
  have later : m ≤ m₂ := Nat.le_trans first.le decoded.le
  obtain ⟨reply, served, reads⟩ := second.served
  cases performs
  cases reply with
  | token token' =>
      obtain rfl := Option.some.inj reads
      obtain ⟨i, arrived, -, -, spec⟩ := served.sat handle_issue_sat
      obtain ⟨l, seen⟩ := spec _ _ rfl rfl
      obtain ⟨k, lt, a, -⟩ := at_of_eventsOf [_, _, _, _] seen
      obtain ⟨k', -, issue, -⟩ := at_of_eventsOf l.events seen
      obtain ⟨c, at_k'⟩ := issue.entry
      have decodes := jwtIssue_decodes (issue.exec run at_k').1.symm
      refine ⟨_, k, i, l.relationships, decodes, rfl, rfl,
        Nat.le_trans later (a.since run arrived), lt, a, rfl, ?_⟩
      intro t mem
      exact List.mem_append_left _ mem
  | _ => cases reads

theorem authenticate_userId (run : PoolRun A allowed h s) {before : SmqttClient}
    (performs : Performs A h m n (before.authenticate lib) (.ok client)) :
    client.userId = before.userId := by
  obtain ⟨-, -, -, -, -, -, same, -⟩ := authenticate_reads run performs
  exact same

theorem Authenticated.claims (run : PoolRun A allowed h s) (auth : Authenticated A lib h client) :
    ∃ token claims, client.jwt = some token ∧
      A.lib.jwtDecode A.jwtKeys.secret token = some claims ∧ claims.sub = client.userId := by
  obtain ⟨before, m, n, performs⟩ := auth
  obtain ⟨claims, -, -, -, held, sub, -⟩ := authenticate_reads run performs
  obtain ⟨token, jwt, decodes⟩ := Option.bind_eq_some_iff.mp held
  exact ⟨token, claims, jwt, decodes, sub⟩

/-- A thread that serves a request of the client has found its user id in the token. -/
theorem Authenticated.identified (run : PoolRun A allowed h s)
    (auth : Authenticated A lib h client) {c : Call} {reply : Reply}
    (header : c.authorization = some client.authHeaders)
    (path : Prog.Path (handle A c) (eventsOf i (h.take n)) (.done reply)) {token : String}
    {claims : Claims} {rest : List (Event signature)}
    (seen : eventsOf i (h.take n) = ⟨.jwtVerify token, .ok claims⟩ :: rest) :
    claims.sub = client.userId := by
  obtain ⟨token', held, jwt, decodes, sub⟩ := auth.claims run
  obtain ⟨f, extracts⟩ := handle_extracts (A := A) header
  rw [extracts, seen] at path
  have bearer := extractor_path path
  rw [SmqttClient.authHeaders, jwt, Option.getD_some, bearerToken_bearer] at bearer
  obtain rfl := Option.some.inj bearer
  obtain ⟨k, -, a, -⟩ := at_of_eventsOf [] seen
  obtain ⟨c', at_k⟩ := a.entry
  have verified := (jwtVerify_decodes (a.exec run at_k).1.symm).1
  rw [← sub, Option.some.inj (verified.symm.trans decodes)]

theorem decodePubkey_encode {bytes key : List UInt8}
    (decoded : Exchange.decodePubkey A (Base64Url.encode bytes) = .ok key) : key = bytes := by
  have text := (decodePubkey_ok decoded).1
  unfold b64Decode at text
  rw [Base64Url.decode_encode] at text
  exact (Except.ok.inj text).symm

/-- The row an exchange started with, by the client that initiated it. -/
theorem initiate_inserts (run : PoolRun A allowed h s) (auth : Authenticated A lib h client)
    {peerId : String} {ephPriv : List UInt8}
    (performs : Performs A h m n (client.initiateExchange lib peerId) (.ok (e, ephPriv))) :
    ∃ k i row, At h k i ⟨.sql (.insertExchange row), some ()⟩ ∧ row.exchangeId = e ∧
      row.initiatorId = client.userId ∧ row.initiatorPubkey = lib.x25519Public ephPriv := by
  unfold SmqttClient.initiateExchange at performs
  obtain ⟨key, performs⟩ := performs.drawn
  obtain ⟨exchangeId, k, asked, performs⟩ := performs.bind
  obtain ⟨reply, served, reads⟩ := asked.served
  cases performs
  cases reply with
  | exchangeId id =>
      obtain rfl := Option.some.inj reads
      obtain ⟨i, -, -, path, spec⟩ := served.sat handle_insertExchange_sat
      obtain ⟨x, published, seen, rfl⟩ := spec _ _ _ rfl rfl
      obtain ⟨k, -, a, -⟩ := at_of_eventsOf x.events seen
      exact ⟨k, i, x.row, a, rfl, auth.identified run rfl path seen, decodePubkey_encode x.decoded⟩
  | _ => cases reads

/-- What the client reads of an exchange is a row of it. -/
theorem get_reads {authorization : Option String} {data : Exchange.ExchangeResponse}
    (performs : Performs A h m n (request (.getExchange authorization e) Reply.readExchange)
      (.ok data)) :
    ∃ k i row, At h k i ⟨.sql (.selectExchange e), some (some row)⟩ ∧
      data.initiatorId = row.initiatorId ∧ data.responderId = row.responderId ∧
      data.initiatorPubkey = Base64Url.encode row.initiatorPubkey ∧
      data.responderPubkey = row.responderPubkey.map Base64Url.encode := by
  obtain ⟨reply, served, reads⟩ := performs.served
  cases reply with
  | exchange response =>
      obtain rfl := Option.some.inj reads
      obtain ⟨i, -, -, -, spec⟩ := served.sat handle_deleteExchange_sat
      obtain ⟨x, ⟨rest, seen⟩, rfl⟩ := spec _ _ _ rfl rfl
      obtain ⟨k, -, a, -⟩ := at_of_eventsOf [_] seen.symm
      exact ⟨k, i, x.row, a, rfl, rfl, rfl, rfl⟩
  | _ => cases reads

/-- A respond that returned has read a row that names the client, in a thread that serves
its request. -/
theorem respond_reads (run : PoolRun A allowed h s) (auth : Authenticated A lib h client)
    {req : Exchange.RespondRequest} {reply : Reply}
    (performs : Performs A h m n (request (.respondExchange client.authHeaders e req) some)
      (.ok reply)) :
    ∃ k i row, (requests h)[i]? = some (.respondExchange client.authHeaders e req) ∧
      At h k i ⟨.sql (.selectExchange e), some (some row)⟩ ∧ row.responderId = client.userId := by
  obtain ⟨reply', served, reads⟩ := performs.served
  obtain ⟨i, -, request, path, spec⟩ := served.sat handle_respondExchange_sat
  obtain ⟨x, rows, published, seen, -⟩ := spec _ _ _ _ rfl rfl
  obtain ⟨k, -, a, -⟩ := at_of_eventsOf [_] seen
  exact ⟨k, i, x.row, requests_of_take request, a,
    x.responder.trans (auth.identified run rfl path seen)⟩

theorem createRelationship_inserts (run : PoolRun A allowed h s)
    (auth : Authenticated A lib h client) {peerId relationshipId : String} {secret : SharedSecret}
    (performs : Performs A h m n (client.createRelationship lib peerId secret)
      (.ok relationshipId)) :
    ∃ k i row, m ≤ k ∧ k < n ∧ At h k i ⟨.sql (.insertRelationship row), some ()⟩ ∧
      row.userId = client.userId ∧
      row.publishTopics = JsonStrings.encode [secret.outboundTopic lib client.userId] ∧
      row.subscribeTopics = JsonStrings.encode [secret.inboundTopic lib client.userId] := by
  obtain ⟨reply, served, -⟩ := performs.served
  obtain ⟨i, arrived, -, path, spec⟩ := served.sat handle_insertRelationship_sat
  obtain ⟨x, seen⟩ := spec _ _ _ rfl rfl
  obtain ⟨k, lt, a, -⟩ := at_of_eventsOf x.events seen
  exact ⟨k, i, _, a.since run arrived, lt, a, auth.identified run rfl path seen, rfl, rfl⟩

/-- The client's token permits it to publish and to receive on the topics of the secret. -/
def Permits (A : AppState) (lib : ClientLibraries) (secret : SharedSecret) (client : SmqttClient) :
    Prop :=
  ∃ claims, client.claims A = some claims ∧
    secret.outboundTopic lib client.userId ∈ claims.pubTopics ∧
    secret.inboundTopic lib client.userId ∈ claims.subTopics

/-- A login after a relationship was created and before it is revoked permits its topics. -/
theorem authenticate_permits (run : PoolRun A allowed h s) (auth : Authenticated A lib h client)
    {peerId relationshipId : String} {secret : SharedSecret}
    (created : Performs A h m k (client.createRelationship lib peerId secret) (.ok relationshipId))
    {before after : SmqttClient} (own : before.userId = client.userId) {j : Nat} (le : k ≤ j)
    (login : Performs A h j n (before.authenticate lib) (.ok after))
    (unrevoked : Unrevoked h client.userId m n) : Permits A lib secret after := by
  obtain ⟨p, i, row, le_p, lt_p, inserted, owner, publish, subscribe⟩ :=
    createRelationship_inserts run auth created
  obtain ⟨claims, q, i', rows, held, -, same, le_q, lt_q, select, pub, sub⟩ :=
    authenticate_reads run login
  have own : after.userId = client.userId := same.trans own
  obtain ⟨c, at_q⟩ := select.entry
  have present : row ∈ c.before.world.db.relationships := by
    refine inserted_kept run inserted (by omega) ?_ at_q
    intro l i r x ge lt
    rw [owner]
    exact unrevoked l i r x (by omega) (by omega)
  rw [← own] at owner publish subscribe
  obtain ⟨db, executed, -⟩ := answered_by run select at_q
  obtain ⟨rfl, -⟩ := Prod.mk.inj (Option.some.inj executed)
  have listed : row ∈ c.before.world.db.relationships.filter fun r => r.userId = after.userId :=
    List.mem_filter.mpr ⟨present, decide_eq_true owner⟩
  refine ⟨claims, held, ?_, ?_⟩
  · rw [pub]
    refine List.mem_flatMap.mpr ⟨row, listed, ?_⟩
    rw [publish, decodeTopics_encode]
    exact List.mem_singleton_self _
  · refine sub _ ?_
    refine List.mem_flatMap.mpr ⟨row, listed, ?_⟩
    rw [subscribe, decodeTopics_encode]
    exact List.mem_singleton_self _

/-- The client has agreed with a public key and stored the relationship with its owner. -/
structure Side (A : AppState) (lib : ClientLibraries) (h : PoolLog) (m n : Nat)
    (client : SmqttClient) (ephPriv peerPub : List UInt8) (peerId : String)
    (secret : SharedSecret) : Prop where
  agrees : ∃ raw, lib.x25519Exchange ephPriv peerPub = some raw ∧
    secret = .derive lib raw (lib.x25519Public ephPriv) peerPub peerId
  related : ∃ k relationshipId, m ≤ k ∧
    Performs A h k n (client.createRelationship lib peerId secret) (.ok relationshipId)

theorem complete_side (decodes : lib.Decodes) {ephPriv : List UInt8} {secret : SharedSecret}
    {peerId : String}
    (performs : Performs A h m n (client.completeExchange lib e ephPriv)
      (.ok (some (secret, peerId)))) :
    ∃ k i row key, At h k i ⟨.sql (.selectExchange e), some (some row)⟩ ∧
      row.responderPubkey = some key ∧ peerId = row.responderId ∧
      Side A lib h m n client ephPriv key row.responderId secret := by
  unfold SmqttClient.completeExchange at performs
  obtain ⟨data, l, asked, performs⟩ := performs.bind
  obtain ⟨k, i, row, read, -, responder, -, key⟩ := get_reads asked
  dsimp only at performs
  split at performs
  · cases performs
  · rename_i text present
    obtain ⟨has, -⟩ := Option.filter_eq_some_iff.mp present
    obtain ⟨pub, stored, rfl⟩ := Option.map_eq_some_iff.mp (key.symm.trans has)
    obtain ⟨pub', l', decoded, performs⟩ := performs.bind
    obtain ⟨back, rfl⟩ := decoded.orRaise
    obtain rfl := Option.some.inj ((decodes pub).symm.trans back)
    obtain ⟨raw, l, agreed, performs⟩ := performs.bind
    obtain ⟨exchanged, rfl⟩ := agreed.orRaise
    obtain ⟨id, l', created, performs⟩ := performs.bind
    cases performs
    rw [responder] at created
    exact ⟨k, i, row, pub, read, stored, responder, ⟨raw, exchanged, by rw [responder]⟩,
      _, id, asked.le, by rw [responder]; exact created⟩

theorem respond_side (decodes : lib.Decodes) (run : PoolRun A allowed h s)
    (auth : Authenticated A lib h client) {secret : SharedSecret} {peerId : String}
    (performs : Performs A h m n (client.respondToExchange lib e) (.ok (secret, peerId))) :
    ∃ ephPriv row, (∃ k i, At h k i ⟨.sql (.selectExchange e), some (some row)⟩) ∧
      peerId = row.initiatorId ∧
      Side A lib h m n client ephPriv row.initiatorPubkey row.initiatorId secret ∧
      ∃ k i row', At h k i ⟨.sql (.selectExchange e), some (some row')⟩ ∧
        row'.responderId = client.userId ∧ (requests h)[i]? = some (.respondExchange
          client.authHeaders e ⟨Base64Url.encode (lib.x25519Public ephPriv)⟩) := by
  unfold SmqttClient.respondToExchange at performs
  obtain ⟨data, l, asked, performs⟩ := performs.bind
  obtain ⟨k, i, row, read, initiator, -, key, -⟩ := get_reads asked
  obtain ⟨pub, l', decoded, performs⟩ := performs.bind
  obtain ⟨back, rfl⟩ := decoded.orRaise
  rw [key] at back
  obtain rfl := Option.some.inj ((decodes _).symm.trans back)
  obtain ⟨ephPriv, performs⟩ := performs.drawn
  obtain ⟨raw, l', agreed, performs⟩ := performs.bind
  obtain ⟨exchanged, rfl⟩ := agreed.orRaise
  obtain ⟨reply, l', answered, performs⟩ := performs.bind
  obtain ⟨k', i', row', request, read', responder⟩ := respond_reads run auth answered
  obtain ⟨id, l'', created, performs⟩ := performs.bind
  cases performs
  rw [initiator] at created ⊢
  exact ⟨ephPriv, row, ⟨k, i, read⟩, rfl, ⟨⟨raw, exchanged, rfl⟩, _, id,
    Nat.le_trans asked.le answered.le, created⟩, k', i', row', read', responder, request⟩

/-- At most one request responds to the exchange. -/
def SoleRespond (h : PoolLog) (e : String) : Prop :=
  ∀ (i j : Nat) (authorization authorization' : Option String)
    (req req' : Exchange.RespondRequest),
    (requests h)[i]? = some (Call.respondExchange authorization e req) →
    (requests h)[j]? = some (Call.respondExchange authorization' e req') → i = j

/-- A key exchange in a run: one client initiates it, another responds and the first
completes it, perhaps after another login. Nobody responds to it a second time. -/
structure KeyExchange (A : AppState) (lib : ClientLibraries) (h : PoolLog) where
  exchangeId : String
  initiator : SmqttClient
  completer : SmqttClient
  responder : SmqttClient
  same : completer.userId = initiator.userId
  initiatorIn : Authenticated A lib h initiator
  completerIn : Authenticated A lib h completer
  responderIn : Authenticated A lib h responder
  ephPriv : List UInt8
  initiated : ∃ peerId m n,
    Performs A h m n (initiator.initiateExchange lib peerId) (.ok (exchangeId, ephPriv))
  secret : SharedSecret
  peerId : String
  completing : Nat
  completed : Nat
  completes : Performs A h completing completed
    (completer.completeExchange lib exchangeId ephPriv) (.ok (some (secret, peerId)))
  responderSecret : SharedSecret
  responderPeerId : String
  responding : Nat
  responded : Nat
  responds : Performs A h responding responded
    (responder.respondToExchange lib exchangeId) (.ok (responderSecret, responderPeerId))
  sole : SoleRespond h exchangeId

/-- The only respond to an exchange wrote the key that is there. -/
theorem sole_key (run : PoolRun A allowed h s)
    (sole : SoleRespond h e) {row : PendingExchange} {key pub : List UInt8}
    (read : At h k i ⟨.sql (.selectExchange e), some (some row)⟩)
    (has : row.responderPubkey = some key) {authorization : Option String}
    (request : (requests h)[j]? = some (.respondExchange authorization e
      ⟨Base64Url.encode pub⟩)) : key = pub := by
  obtain ⟨c, at_k⟩ := read.entry
  obtain ⟨mem, rfl⟩ := selected_row run read at_k
  obtain ⟨m, i', rows, write⟩ := key_written (run.take at_k).1 mem has
  have write := (at_take write.lt_of_take).mp write
  obtain ⟨c', served, spec⟩ := write.sat run handle_respondExchange_sat
  obtain ⟨authorization', id, req, x, rfl, -, op⟩ := spec rfl
  obtain ⟨rfl, rfl⟩ := Statement.updateResponderPubkey.inj (Op.sql.inj op)
  have served := requests_of_take served
  obtain rfl := sole _ _ _ _ _ _ served request
  obtain ⟨-, -, rfl⟩ := Call.respondExchange.inj (Option.some.inj (served.symm.trans request))
  exact decodePubkey_encode x.decoded

/-- The user logs in again, after `done`, with no revocation since `start`. -/
def LogsInAgain (A : AppState) (lib : ClientLibraries) (h : PoolLog) (u : String)
    (start done : Nat) (client : SmqttClient) : Prop :=
  ∃ (before : SmqttClient) (m n : Nat), before.userId = u ∧ done ≤ m ∧
    Performs A h m n (before.authenticate lib) (.ok client) ∧ Unrevoked h u start n

/-- What either client may publish on the topic of its secret, the other may receive. -/
def Connected (A : AppState) (lib : ClientLibraries) (secret secret' : SharedSecret)
    (client client' : SmqttClient) : Prop :=
  ∃ claims claims', client.claims A = some claims ∧ client'.claims A = some claims' ∧
    secret.outboundTopic lib client.userId ∈ claims.pubTopics ∧
    secret.outboundTopic lib client.userId ∈ claims'.subTopics ∧
    secret'.outboundTopic lib client'.userId ∈ claims'.pubTopics ∧
    secret'.outboundTopic lib client'.userId ∈ claims.subTopics

section
variable (commutes : lib.Commutes) (decodes : lib.Decodes) (fresh : FreshIds A)
  (run : PoolRun A allowed h s) (x : KeyExchange A lib h)
include commutes decodes fresh run

theorem KeyExchange.paired : Paired lib x.secret x.responderSecret x.initiator.userId
    x.responder.userId := by
  obtain ⟨peerId, m, n, initiated⟩ := x.initiated
  obtain ⟨k, i, row, inserted, id, initiator, initiatorPub⟩ :=
    initiate_inserts run x.initiatorIn initiated
  obtain ⟨k₁, i₁, row₁, key, read₁, has, -, ⟨raw, agreed, derived⟩, -⟩ :=
    complete_side decodes x.completes
  obtain ⟨ephPriv', row₂, ⟨k₂, i₂, read₂⟩, -, ⟨⟨raw', agreed', derived'⟩, -⟩, k₃, i₃, row₃, read₃,
    responder, request⟩ := respond_side decodes run x.responderIn x.responds
  obtain rfl := sole_key run x.sole read₁ has request
  -- the three rows that were read are the one that was inserted
  rw [← id] at read₁ read₂ read₃
  obtain ⟨-, -, responder₁, -⟩ := PendingExchange.of_sealed (read_sealed fresh run inserted read₁)
  obtain ⟨-, initiator₂, -, initiatorPub₂⟩ :=
    PendingExchange.of_sealed (read_sealed fresh run inserted read₂)
  obtain ⟨-, -, responder₃, -⟩ := PendingExchange.of_sealed (read_sealed fresh run inserted read₃)
  rw [initiatorPub₂, initiatorPub] at agreed' derived'
  obtain rfl : raw = raw' := by
    rw [commutes] at agreed
    exact Option.some.inj (agreed.symm.trans agreed')
  rw [derived, derived', responder₁, ← responder₃, responder, initiator₂, initiator]
  exact derive_paired raw _ _ _ _

/-- A completed exchange connects its clients: they hold the same keys, name their topics
alike, and are permitted both topics once they have logged in again. -/
theorem exchange_connects :
    Paired lib x.secret x.responderSecret x.initiator.userId x.responder.userId ∧
    ∀ alice bob, LogsInAgain A lib h x.initiator.userId x.completing x.completed alice →
      LogsInAgain A lib h x.responder.userId x.responding x.responded bob →
      Connected A lib x.secret x.responderSecret alice bob := by
  have paired := x.paired commutes decodes fresh run
  refine ⟨paired, ?_⟩
  rintro alice bob ⟨before, m, n, own, later, login, unrevoked⟩
    ⟨before', m', n', own', later', login', unrevoked'⟩
  obtain ⟨_, _, row, _, -, -, -, -, k, id, le, created⟩ := complete_side decodes x.completes
  obtain ⟨_, row', -, -, ⟨-, k', id', le', created'⟩, -⟩ :=
    respond_side decodes run x.responderIn x.responds
  have alices : alice.userId = x.initiator.userId := (authenticate_userId run login).trans own
  have bobs : bob.userId = x.responder.userId := (authenticate_userId run login').trans own'
  rw [← x.same] at own unrevoked
  obtain ⟨claims, held, publish, subscribe⟩ := authenticate_permits run x.completerIn created own
    later login fun l i r y ge lt => unrevoked l i r y (Nat.le_trans le ge) lt
  obtain ⟨claims', held', publish', subscribe'⟩ := authenticate_permits run x.responderIn created'
    own' later' login' fun l i r y ge lt => unrevoked' l i r y (Nat.le_trans le' ge) lt
  refine ⟨claims, claims', held, held', publish, ?_, publish', ?_⟩
  · rw [alices, paired.outbound, ← bobs]
    exact subscribe'
  · rw [bobs, ← paired.inbound, ← alices]
    exact subscribe

end

section
open Deployment

/-- An agreement that adds up the bytes of both keys; a private key is its own public key. -/
def clientLibraries : ClientLibraries where
  ed25519Public privateKey := privateKey
  ed25519Sign := sign
  x25519Public privateKey := privateKey
  x25519Exchange privateKey peerPublic := some (List.zipWith (· + ·) privateKey peerPublic)
  hkdfSha256 length salt info secret :=
    (secret ++ salt ++ info ++ List.replicate length 0).take length
  hmacSha256 := digest
  b64uDecode := Base64Url.decode

theorem clientLibraries_commutes : clientLibraries.Commutes := by
  intro a b
  exact congrArg some (List.zipWith_comm_of_comm fun x y => UInt8.add_comm x y)

theorem clientLibraries_decodes : clientLibraries.Decodes := Base64Url.decode_encode

/-- What a client meets on its way through a method: a key it draws, or the answer of a
thread by some position. -/
inductive Playback
  | draw (key : List UInt8)
  | ask (position thread : Nat) (reply : Reply)

/-- The calls of a schedule, in order. -/
def calls (schedule : List Schedule) : List Call :=
  schedule.filterMap fun
    | .spawn c => some c
    | _ => none

def replies (schedule : List Schedule) (m n i : Nat) (c : Call) (reply : Reply) : Bool :=
  m ≤ n && (calls (schedule.take m)).length ≤ i &&
    match (poolState (schedule.take n)).threads[i]? with
    | some (c', .done reply') => c' = c && reply' = reply
    | _ => false

/-- What the method returns, and at which position of the schedule. -/
def play (schedule : List Schedule) {α : Type} : Nat → Method α → List Playback → Option (α × Nat)
  | m, .done a, [] => some (a, m)
  | m, .call .generate next, .draw key :: rest => play schedule m (next key) rest
  | m, .call (.request c) next, .ask n i reply :: rest =>
      if replies schedule m n i c reply then play schedule n (next (.ok reply)) rest else none
  | _, _, _ => none

theorem requests_poolLog (schedule : List Schedule) :
    requests (poolLog schedule) = calls schedule := by
  conv_rhs => rw [← poolMachine.trace_actions poolMachine.start schedule, calls, List.filterMap_map]
  refine congrArg (fun f => List.filterMap f (poolLog schedule)) (funext fun e => ?_)
  unfold spawned
  rw [Function.comp_apply]
  cases e.action <;> rfl

/-- The state after a part of the schedule is that of a run of the history so far. -/
theorem poolLog_take (schedule : List Schedule) (n : Nat) :
    PoolRun app anything ((poolLog schedule).take n) (poolState (schedule.take n)) := by
  rw [poolLog, Machine.trace_take]
  exact poolMachine.run_anything _

theorem served_of_replies {schedule : List Schedule} {m n i : Nat} {c : Call} {reply : Reply}
    (ok : replies schedule m n i c reply = true) :
    Served app (poolLog schedule) m n c (.ok reply) := by
  unfold replies at ok
  rw [Bool.and_eq_true, Bool.and_eq_true] at ok
  obtain ⟨⟨le, arrived⟩, thread⟩ := ok
  split at thread
  · rename_i c' reply' served
    obtain ⟨rfl, rfl⟩ : c' = c ∧ reply' = reply := by simpa using thread
    have run := poolLog_take schedule n
    refine ⟨of_decide_eq_true le, i, ?_, thread_request run served, threads_path run served⟩
    rw [poolLog, Machine.trace_take]
    exact (congrArg List.length (requests_poolLog _)).trans_le (of_decide_eq_true arrived)
  · cases thread

theorem performs_of_play {schedule : List Schedule} {α : Type} {m n : Nat} {p : Method α} {a : α}
    {met : List Playback} (plays : play schedule m p met = some (a, n)) :
    Performs app (poolLog schedule) m n p (.ok a) := by
  fun_induction play schedule m p met with
  | case1 m b =>
      obtain ⟨rfl, rfl⟩ := Prod.mk.inj (Option.some.inj plays)
      exact .done m b
  | case2 m next key rest ih => exact .draw key (ih plays)
  | case3 m c next k i reply rest ok ih => exact .ask (served_of_replies ok) (ih plays)
  | case4 => cases plays
  | case5 => cases plays

/-- The first of the pair, before its login and after. -/
def alice (jwt : Option String) : SmqttClient := ⟨"0", "1", key 0, jwt⟩

/-- The second of the pair. -/
def bob (jwt : Option String) : SmqttClient := ⟨"2", "3", key 1, jwt⟩

def aliceToken : String := token "0" "1" 100 [] []

def bobToken : String := token "2" "3" 100 [] []

def agreement : List UInt8 := List.zipWith (· + ·) (key 8) (key 9)

def aliceSecret : SharedSecret := .derive clientLibraries agreement (key 8) (key 9) "2"

def bobSecret : SharedSecret := .derive clientLibraries agreement (key 9) (key 8) "0"

def relateTo (token userId peerId : String) (secret : SharedSecret) : Call :=
  .createRelationship (bearer token) ⟨peerId, [secret.outboundTopic clientLibraries userId],
    [secret.inboundTopic clientLibraries userId]⟩

/-- The two exchange keys and log in again. -/
def connecting : List Schedule :=
  poolExchange ++ serve 7 2 (.getExchange (bearer bobToken) "6") ++ serve 8 4 (respond 9) ++
    serve 9 4 (relateTo bobToken "2" "0" bobSecret) ++
    serve 10 3 (.getExchange (bearer aliceToken) "6") ++
    serve 11 4 (relateTo aliceToken "0" "2" aliceSecret) ++
    authenticate 12 "0" "1" 0 9 ++ authenticate 14 "2" "3" 1 10

def newToken (userId deviceId : String) (secret : SharedSecret) : String :=
  token userId deviceId 100 [secret.outboundTopic clientLibraries userId]
    [secret.inboundTopic clientLibraries userId]

/-- What a login of the client meets. -/
def loginMeets (m thread nonce : Nat) (token : String) : List Playback :=
  [.ask (m + 5) thread (.nonce (Base64Url.encode (outside.randomBytes nonce))),
    .ask (m + 13) (thread + 1) (.token token)]

def exchangeData (responderPub : Option (List UInt8)) : Reply :=
  .exchange ⟨"6", "0", "2", Base64Url.encode (key 8), responderPub.map Base64Url.encode⟩

def relatedReply (relationshipId userId peerId : String) (secret : SharedSecret) : Reply :=
  .relationship ⟨relationshipId, userId, peerId,
    [secret.outboundTopic clientLibraries userId], [secret.inboundTopic clientLibraries userId],
    100⟩

def deletesRelationship (e : PoolEntry signature World Call Env Error Reply) : Bool :=
  match e.response with
  | some ⟨.sql (.deleteRelationship _ _), _⟩ => true
  | _ => false

theorem unrevoked_of_log {log : PoolLog} (none : (log.all fun e => !deletesRelationship e) = true)
    (u : String) (m n : Nat) : Unrevoked log u m n := by
  rintro k i r x - - ⟨e, at_k, -, response⟩
  have kept := List.all_eq_true.mp none e (List.mem_of_getElem? at_k)
  simp [deletesRelationship, response] at kept

def respondsTo (e : String) : Call → Bool
  | .respondExchange _ e' _ => e' = e
  | _ => false

theorem soleRespond_of_calls {schedule : List Schedule} {e : String} {k : Nat}
    (only : ((calls schedule).zipIdx.all fun c => !respondsTo e c.1 || c.2 = k) = true) :
    SoleRespond (poolLog schedule) e := by
  have position {i : Nat} {authorization : Option String} {req : Exchange.RespondRequest}
      (request : (requests (poolLog schedule))[i]? = some (.respondExchange authorization e req)) :
      i = k := by
    rw [requests_poolLog] at request
    have checked := List.all_eq_true.mp only _ (List.mk_mem_zipIdx_iff_getElem?.mpr request)
    simpa [respondsTo] using checked
  intro i j authorization authorization' req req' first second
  rw [position first, position second]

private theorem connecting_facts : HonestSchedule connecting ∧
    play connecting 14 ((alice none).authenticate clientLibraries)
      (loginMeets 14 2 4 aliceToken) = some (alice (some aliceToken), 27) ∧
    play connecting 27 ((bob none).authenticate clientLibraries)
      (loginMeets 27 4 5 bobToken) = some (bob (some bobToken), 40) ∧
    play connecting 40 ((alice (some aliceToken)).initiateExchange clientLibraries "2")
      [.draw (key 8), .ask 48 6 (.exchangeId "6")] = some (("6", key 8), 48) ∧
    play connecting 48 ((bob (some bobToken)).respondToExchange clientLibraries "6")
      [.ask 51 7 (exchangeData none), .draw (key 9), .ask 56 8 (exchangeData (some (key 9))),
        .ask 61 9 (relatedReply "7" "2" "0" bobSecret)] = some ((bobSecret, "0"), 61) ∧
    play connecting 61 ((alice (some aliceToken)).completeExchange clientLibraries "6" (key 8))
      [.ask 65 10 (exchangeData (some (key 9))),
        .ask 70 11 (relatedReply "8" "0" "2" aliceSecret)] =
        some (some (aliceSecret, "2"), 70) ∧
    play connecting 70 ((alice (some aliceToken)).authenticate clientLibraries)
      (loginMeets 70 12 9 (newToken "0" "1" aliceSecret)) =
        some (alice (some (newToken "0" "1" aliceSecret)), 83) ∧
    play connecting 83 ((bob (some bobToken)).authenticate clientLibraries)
      (loginMeets 83 14 10 (newToken "2" "3" bobSecret)) =
        some (bob (some (newToken "2" "3" bobSecret)), 96) ∧
    ((calls connecting).zipIdx.all fun c => !respondsTo "6" c.1 || c.2 = 8) = true ∧
    ((poolLog connecting).all fun e => !deletesRelationship e) = true := by
  decide +kernel

/-- The exchange of this schedule. -/
def connectingExchange : KeyExchange app clientLibraries (poolLog connecting) where
  exchangeId := "6"
  initiator := alice (some aliceToken)
  completer := alice (some aliceToken)
  responder := bob (some bobToken)
  same := rfl
  initiatorIn := ⟨_, _, _, performs_of_play connecting_facts.2.1⟩
  completerIn := ⟨_, _, _, performs_of_play connecting_facts.2.1⟩
  responderIn := ⟨_, _, _, performs_of_play connecting_facts.2.2.1⟩
  ephPriv := key 8
  initiated := ⟨_, _, _, performs_of_play connecting_facts.2.2.2.1⟩
  secret := aliceSecret
  peerId := "2"
  completing := 61
  completed := 70
  completes := performs_of_play connecting_facts.2.2.2.2.2.1
  responderSecret := bobSecret
  responderPeerId := "0"
  responding := 48
  responded := 61
  responds := performs_of_play connecting_facts.2.2.2.2.1
  sole := soleRespond_of_calls connecting_facts.2.2.2.2.2.2.2.2.1

theorem exchange_connects_pair : Paired clientLibraries aliceSecret bobSecret "0" "2" ∧
    Connected app clientLibraries aliceSecret bobSecret
      (alice (some (newToken "0" "1" aliceSecret))) (bob (some (newToken "2" "3" bobSecret))) := by
  obtain ⟨honest, -, -, -, -, -, again, again', -, kept⟩ := connecting_facts
  have connects := exchange_connects clientLibraries_commutes clientLibraries_decodes freshIds
    (run_poolLog honest) connectingExchange
  refine ⟨connects.1, connects.2 _ _ ?_ ?_⟩
  · exact ⟨_, 70, 83, rfl, Nat.le_refl _, performs_of_play again, unrevoked_of_log kept _ _ _⟩
  · exact ⟨_, 83, 96, rfl, by decide, performs_of_play again', unrevoked_of_log kept _ _ _⟩

end

end Smqtt
