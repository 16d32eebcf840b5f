import Smqtt.Api.Authorization
import Smqtt.Core.Startup
import Smqtt.Metatheory.ChallengeResponse
import Smqtt.Metatheory.FailedRequests
import Smqtt.Metatheory.StrangerKick
import Smqtt.Runs.Clients

/-!
Every change of the database is authorized, in every interleaving: the request that makes
it has shown before what the policy asks for. A bearer token that has verified goes back
to a challenge that a device of its user has signed, and the admin key is never empty.
-/

namespace Smqtt

open AtomicSteps System

variable {A : AppState} {allowed : Scheduling} {h : PoolLog} {s : Threads} {i m n : Nat}
  {c : Call} {u token : String} {claims : Claims} {statement : Statement}
  {e : PoolEntry signature World Call Env Error Reply}

section
variable (run : PoolRun A allowed h s)
include run

/-- The token that a request with a header verifies first is its bearer token. -/
theorem bears_of_first (request : (requests (h.take n))[i]? = some c) (at_n : h[n]? = some e)
    (header : ∃ authorization, c.authorization = some authorization)
    {rest : List (Event signature)}
    (seen : eventsOf i (h.take n) = ⟨.jwtVerify token, .ok claims⟩ :: rest) :
    Bears c (eventsOf i (h.take n)) claims.sub := by
  obtain ⟨authorization, header⟩ := header
  obtain ⟨p, thread⟩ := thread_of_request (run.take at_n).1 request
  have path := threads_path (run.take at_n).1 thread
  obtain ⟨f, extracts⟩ := handle_extracts (A := A) header
  have path : (handle A c).Path (eventsOf i (h.take n)) p := path
  rw [extracts, seen] at path
  refine ⟨authorization, token, claims, header, extractor_path path, ?_, rfl⟩
  rw [seen]
  exact List.mem_cons_self

/-- Every statement that writes is authorized by what its thread has shown. -/
theorem write_authorized {x : Option statement.Answer} (placed : At h n i ⟨.sql statement, x⟩)
    (writes : statement.kind ≠ .read) : ∃ c, (requests (h.take n))[i]? = some c ∧
      Authorized A c (eventsOf i (h.take n)) statement := by
  obtain ⟨e, at_n⟩ := placed.entry
  have registers (listed : statement.kind ∈ registrations) : ∃ c,
      (requests (h.take n))[i]? = some c ∧
        Authorized A c (eventsOf i (h.take n)) statement := by
    obtain ⟨c, request, spec⟩ := placed.sat run handle_register_keeps
    exact ⟨c, request, spec statement rfl listed⟩
  cases statement with
  | insertUser row => exact registers (by simp [registrations, Statement.kind])
  | insertDevice row => exact registers (by simp [registrations, Statement.kind])
  | consumeRegistrationToken hash now =>
      exact registers (by simp [registrations, Statement.kind])
  | updateTokensValidFrom now u =>
      obtain ⟨c, request, spec⟩ := placed.sat run handle_kicks_sat
      obtain ⟨v, start, cause, step⟩ := spec (Or.inl rfl)
      obtain rfl := step.target run at_n (Or.inl ⟨now, rfl⟩)
      obtain ⟨part, -, -, -, seen, -⟩ := step
      refine ⟨c, request, ?_⟩
      rw [seen]
      cases cause with
      | suspended key req rows admin known => exact .cutOff admin
      | @revoked authorization r y owner =>
          have bears : Bears (.revokeRelationship authorization r) (y.events r ++ part) v :=
            ⟨authorization, y.token, y.claims, rfl, y.bearer, by simp [Revoking.events], owner⟩
          exact .cutOwn (r := r) bears (by simp [Revoking.events, owner]) y.deleted
      | @peer authorization r y now' rows devices peer =>
          have bears : Bears (.revokeRelationship authorization r)
              (y.events r ++ kickEvents y.claims.sub now' rows devices ++ part) y.claims.sub :=
            ⟨authorization, y.token, y.claims, rfl, y.bearer, by simp [Revoking.events], rfl⟩
          exact .cutPeer (r := r) bears (by simp [Revoking.events]) peer
            (by simp [Revoking.events]) y.deleted
  | updateSuspended b reason u =>
      obtain ⟨c, request, spec⟩ := placed.sat run handle_flag_sat
      exact ⟨c, request, .flag (spec rfl)⟩
  | insertRelationship row =>
      obtain ⟨c, request, spec⟩ := placed.sat run handle_insertRelationship_sat
      obtain ⟨authorization, req, y, rfl, seen, op⟩ := spec rfl
      obtain rfl := Statement.insertRelationship.inj (Op.sql.inj op)
      have first : eventsOf i (h.take n) = ⟨.jwtVerify y.token, .ok y.claims⟩ :: _ := seen
      exact ⟨_, request, .relate (bears_of_first run request at_n ⟨_, rfl⟩ first)⟩
  | deleteRelationship r u =>
      obtain ⟨c, request, spec⟩ := placed.sat run handle_deletion_sat
      obtain ⟨r', u', op, bears⟩ := spec rfl
      obtain ⟨rfl, rfl⟩ := Statement.deleteRelationship.inj (Op.sql.inj op)
      exact ⟨c, request, .revoke bears⟩
  | insertExchange row =>
      obtain ⟨c, request, spec⟩ := placed.sat run handle_insertExchange_sat
      obtain ⟨authorization, req, y, rfl, seen, op⟩ := spec rfl
      obtain rfl := Statement.insertExchange.inj (Op.sql.inj op)
      have first : eventsOf i (h.take n) = ⟨.jwtVerify y.token, .ok y.claims⟩ :: _ := seen
      exact ⟨_, request, .offer (bears_of_first run request at_n ⟨_, rfl⟩ first)⟩
  | updateResponderPubkey key id =>
      obtain ⟨c, request, spec⟩ := placed.sat run handle_respondExchange_sat
      obtain ⟨authorization, id', req, y, rfl, seen, op⟩ := spec rfl
      obtain ⟨rfl, rfl⟩ := Statement.updateResponderPubkey.inj (Op.sql.inj op)
      have first : eventsOf i (h.take n) = ⟨.jwtVerify y.token, .ok y.claims⟩ :: _ := seen
      have bears := bears_of_first run request at_n ⟨_, rfl⟩ first
      rw [← y.responder] at bears
      refine ⟨_, request, .respond ?_ bears y.unanswered⟩
      rw [seen]
      exact List.mem_cons_of_mem _ (List.mem_singleton_self _)
  | deleteExchange id =>
      obtain ⟨c, request, spec⟩ := placed.sat run handle_deleteExchange_sat
      obtain ⟨authorization, id', y, rfl, bearer, seen, op, initiator, answered⟩ := spec rfl
      obtain rfl := Statement.deleteExchange.inj (Op.sql.inj op)
      have bears : Bears (.getExchange authorization id) (eventsOf i (h.take n))
          y.row.initiatorId := by
        refine ⟨authorization, y.token, y.claims, rfl, bearer, ?_, initiator.symm⟩
        rw [seen]
        exact List.mem_cons_self
      refine ⟨_, request, .collect ?_ bears answered⟩
      rw [seen]
      exact List.mem_cons_of_mem _ (List.mem_singleton_self _)
  | purgeExchanges now =>
      obtain ⟨c, request, spec⟩ := placed.sat run handle_purgeExchanges_sat
      obtain ⟨time, rfl, seen, op⟩ := spec rfl
      rw [Statement.purgeExchanges.inj (Op.sql.inj op)]
      refine ⟨_, request, .sweep rfl ?_⟩
      rw [seen]
      exact List.mem_singleton_self _
  | insertRegistrationToken row =>
      obtain ⟨c, request, spec⟩ := placed.sat run handle_mint_sat
      obtain ⟨key, req, rfl, admin, -⟩ := spec rfl
      exact ⟨_, request, .mint admin⟩
  | _ => exact absurd rfl writes

/-- The database changes by statements that have answered only. -/
theorem change_answered (at_n : h[n]? = some e) (changed : e.after.world.db ≠ e.before.world.db) :
    ∃ i statement x, At h n i ⟨.sql statement, some x⟩ ∧ statement.kind ≠ .read := by
  rcases world_cases run (List.mem_of_getElem? at_n) with
    ⟨i, ⟨op, x⟩, does, after⟩ | ⟨x, -, after⟩ | ⟨-, after⟩
  · have after : e.after.world = (exec A op e.before.world).2 := after
    have placed : At h n i ⟨op, x⟩ := ⟨e, at_n, does⟩
    have answer : x = (exec A op e.before.world).1 := (placed.exec run at_n).1
    rw [after] at changed
    cases op with
    | sql statement =>
        rcases exec_sql_cases A e.before.world statement with failed | ⟨y, db, -, executed, done⟩
        · rw [failed] at changed
          exact absurd rfl changed
        · rw [done] at answer changed
          subst answer
          refine ⟨i, statement, y, placed, fun read => changed ?_⟩
          exact Statement.execute_read read executed
    | forward session topic =>
        simp only [exec] at changed
        split at changed <;> exact absurd rfl changed
    | _ => exact absurd rfl changed
  · rw [after] at changed
    cases x <;> exact absurd rfl changed
  · rw [after] at changed
    exact absurd rfl changed

end

/-- The token that the bearer has shown was issued before. -/
theorem Bears.issued (run : PoolRun A (Genuine A) h s) (bears : Bears c (eventsOf i (h.take n)) u) :
    ∃ m < n, ∃ j token claims, IssuedAt A h m j token claims ∧ claims.sub = u := by
  obtain ⟨authorization, token, claims, -, -, verified, sub⟩ := bears
  obtain ⟨k, lt, at_k⟩ := at_of_mem_eventsOf verified
  obtain ⟨m, lt', j, issued⟩ := verified_issued (fun _ _ _ ok => ok) run at_k
  exact ⟨m, Nat.lt_trans lt' lt, j, token, claims, issued, sub⟩

/-- Every change is authorized, every bearer token answers a signed challenge, and the admin
key is there. -/
theorem changes_authorized {config : Config} {signingKey : String} {lib : Libraries}
    {outside : Outside} (loaded : AppState.load config signingKey lib outside = .ok A)
    (run : PoolRun A (Genuine A) h s) :
    (∀ n e, h[n]? = some e → e.after.world.db ≠ e.before.world.db →
      ∃ i c statement x, (requests (h.take n))[i]? = some c ∧
        At h n i ⟨.sql statement, some x⟩ ∧
          Authorized A c (eventsOf i (h.take n)) statement) ∧
    (∀ n i c u, Bears c (eventsOf i (h.take n)) u →
      ∃ m < n, ∃ j d nonce, Nonempty (Answers h s m j u d nonce)) ∧
    ∀ c, HoldsKey A c → c.adminKey = some A.config.adminApiKey ∧ A.config.adminApiKey ≠ "" := by
  refine ⟨fun n e at_n changed => ?_, ?_, fun c holds => ?_⟩
  · obtain ⟨i, statement, x, placed, writes⟩ := change_answered run at_n changed
    obtain ⟨c, request, authorized⟩ := write_authorized run placed writes
    exact ⟨i, c, statement, x, request, placed, authorized⟩
  · intro n i c u bears
    obtain ⟨m, lt, l, token, claims, issued, rfl⟩ := bears.issued run
    obtain ⟨j, nonce, answers⟩ := issued.answers (fun _ _ _ ok => ok) run
    exact ⟨m, lt, j, claims.dev, nonce, answers⟩
  · have set := load_validated loaded
    refine ⟨?_, set⟩
    unfold HoldsKey at holds
    cases key : c.adminKey with
    | none =>
        rw [key] at holds
        exact absurd holds.symm set
    | some key' =>
        rw [key] at holds
        exact congrArg some holds

section
open Deployment

private theorem offer_facts : HonestSchedule poolExchange ∧
    ((poolLog poolExchange)[46]?.map fun e =>
      decide (e.after.world.db ≠ e.before.world.db)) = some true ∧
    (requests ((poolLog poolExchange).take 46))[6]? = some (.initiateExchange
      (bearer (Deployment.token "0" "1" 100 [] [])) ⟨"2", Base64Url.encode (key 8)⟩) := by
  decide +kernel

theorem app_loaded : AppState.load config "Bw" libraries outside = .ok app := by rfl

/-- The initiate inserts its row in step 46, authorized by its token. -/
theorem changes_authorized_exchange :
    At (poolLog poolExchange) 46 6 ⟨.sql (.insertExchange offered), some ()⟩ ∧
    Authorized app (.initiateExchange (bearer (Deployment.token "0" "1" 100 [] []))
      ⟨"2", Base64Url.encode (key 8)⟩) (eventsOf 6 ((poolLog poolExchange).take 46))
      (.insertExchange offered) := by
  obtain ⟨honest, change, request⟩ := offer_facts
  obtain ⟨e, at_n, changed⟩ := Option.map_eq_some_iff.mp change
  obtain ⟨i, c, statement, x, request', placed, authorized⟩ :=
    (changes_authorized app_loaded (run_poolLog honest)).1 46 e at_n (of_decide_eq_true changed)
  obtain ⟨rfl, same⟩ := placed.unique poolExchange_offers
  obtain rfl := Op.sql.inj (congrArg Event.op same)
  obtain rfl := Option.some.inj (request'.symm.trans request)
  exact ⟨poolExchange_offers, authorized⟩

end

end Smqtt
