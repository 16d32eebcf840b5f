import Smqtt.Metatheory.Ownership

/-!
What the requests of a user add up to. The relationships a user has created and not
revoked since can be read off the history of requests alone; the rows of the database
are these and no others, in the order of their creation. The token builder and the list
endpoint both read the rows, so a token permits and a listing shows what is live.
-/

namespace Smqtt

open AtomicSteps

variable {A : AppState} {h : Log} {w : World} {u : String} {e : Step}
  {allowed : Assumption World Action (Option (Except Error Reply))}

/-- A request for a relationship with its answer. -/
structure Created where
  request : Relationships.CreateRequest
  response : Relationships.RelationshipResponse
  deriving DecidableEq

/-- The relationship the user has created in this step. -/
def Step.created (A : AppState) (u : String) (e : Step) : Option Created :=
  match e.action, e.response with
  | .call (.createRelationship authorization request), some (.ok (.relationship response)) =>
      if authUser A e.before.clock authorization = some u then some ⟨request, response⟩ else none
  | _, _ => none

/-- The id the user has successfully revoked in this step. -/
def Step.revoked (A : AppState) (u : String) (e : Step) : Option String :=
  match e.action, e.response with
  | .call (.revokeRelationship authorization relationshipId), some (.ok .revoked) =>
      if authUser A e.before.clock authorization = some u then some relationshipId else none
  | _, _ => none

/-- The user revokes the relationship in this step. -/
def Created.endsAt (A : AppState) (u : String) (x : Created) (e : Step) : Bool :=
  Step.revoked A u e = some x.response.relationshipId

/-- The requests of a user that he has not successfully revoked since, in order. -/
def live (A : AppState) (u : String) : Log → List Created
  | [] => []
  | e :: later =>
      ((Step.created A u e).filter fun x => !later.any (x.endsAt A u)).toList ++ live A u later

theorem live_snoc (h : Log) (e : Step) : live A u (h ++ [e]) =
    ((live A u h).filter fun x => !x.endsAt A u e) ++ (Step.created A u e).toList := by
  induction h with
  | nil =>
      simp only [List.nil_append, live, List.any_nil, List.append_nil, List.filter_nil]
      cases Step.created A u e <;> rfl
  | cons f h ih =>
      have single : ((Step.created A u f).filter fun x => !(h ++ [e]).any (x.endsAt A u)).toList =
          ((Step.created A u f).filter fun x => !h.any (x.endsAt A u)).toList.filter
            fun x => !x.endsAt A u e := by
        cases Step.created A u f with
        | none => rfl
        | some x =>
            cases earlier : h.any (x.endsAt A u) <;> cases now : x.endsAt A u e <;>
              simp [Option.filter, earlier, now]
      rw [List.cons_append, live, live, ih, List.filter_append, List.append_assoc, single]

theorem mem_live {x : Created} (mem : x ∈ live A u h) : ∃ e ∈ h, Step.created A u e = some x := by
  induction h with
  | nil => cases mem
  | cons e h ih =>
      rcases List.mem_append.mp mem with here | later
      · have created := (Option.filter_eq_some_iff.mp (Option.mem_toList.mp here)).1
        exact ⟨e, List.mem_cons_self, created⟩
      · obtain ⟨f, hf, created⟩ := ih later
        exact ⟨f, List.mem_cons_of_mem _ hf, created⟩

/-- The rows of a user as the list endpoint shows them. -/
def ownRows (db : Database) (u : String) : List Relationships.RelationshipResponse :=
  (db.relationships.filter fun r => r.userId = u).map relationshipResponse

theorem ownRows_congr {db db' : Database} (same : db'.relationships = db.relationships) :
    ownRows db' u = ownRows db u := by
  unfold ownRows
  rw [same]

/-- A response repeats its request. -/
structure Created.Echoes (u : String) (x : Created) : Prop where
  owner : x.response.userId = u
  peer : x.response.peerId = x.request.peerId
  publishTopics : x.response.publishTopics = x.request.publishTopics
  subscribeTopics : x.response.subscribeTopics = x.request.subscribeTopics

theorem create_cases (authorization : Option String) (req : Relationships.CreateRequest) :
    (∃ v rel, authUser A w.clock authorization = some v ∧ rel.userId = v ∧
      Created.Echoes v ⟨req, relationshipResponse rel⟩ ∧
      ((Relationships.create authorization req).run (exec A) w).1 =
        .ok (relationshipResponse rel) ∧
      ((Relationships.create authorization req).run (exec A) w).2.db.relationships =
        w.db.relationships ++ [rel]) ∨
    ∃ e, ((Relationships.create authorization req).run (exec A) w).1 = .error e ∧
      ((Relationships.create authorization req).run (exec A) w).2.db.relationships =
        w.db.relationships := by
  unfold Relationships.create
  rw [Prog.run_bind, fromRequestParts_run]
  cases authUser A w.clock authorization with
  | none => exact Or.inr ⟨_, rfl, rfl⟩
  | some v =>
      dsimp only
      rw [Prog.run_bind]
      rcases Db.createRelationship_cases (A := A) (w := w) v req.peerId req.publishTopics
        req.subscribeTopics with ⟨rel, after, run, owner, peer, pub, sub, db⟩ | ⟨e, after, run, db⟩
      · have lists : relationshipResponse rel = ⟨rel.relationshipId, rel.userId, rel.peerId,
            req.publishTopics, req.subscribeTopics, rel.createdAt⟩ := by
          simp only [relationshipResponse, pub, sub, decodeTopics_encode]
        rw [run]
        refine Or.inl ⟨v, rel, rfl, owner, ?_, ?_, by simp only [Prog.pure_eq, Prog.run_done, db]⟩
        · rw [lists]
          exact ⟨owner, peer, rfl, rfl⟩
        · rw [lists]
          rfl
      · rw [run]
        exact Or.inr ⟨e, rfl, by simp only [db]⟩

theorem ownRows_append (db : Database) (rel : Relationship) :
    ownRows { db with relationships := db.relationships ++ [rel] } u =
      ownRows db u ++ if rel.userId = u then [relationshipResponse rel] else [] := by
  unfold ownRows
  rw [List.filter_append, List.map_append]
  by_cases own : rel.userId = u <;> simp [own]

/-- What a revocation by `v` leaves of the rows of `u`. -/
theorem ownRows_without (db : Database) (v r : String) :
    ownRows (Db.withoutRelationship db v r) u =
      if v = u then (ownRows db u).filter fun x => !(x.relationshipId = r) else ownRows db u := by
  unfold ownRows Db.withoutRelationship
  rw [List.filter_filter]
  split
  · rename_i own
    subst own
    rw [List.filter_map, List.filter_filter]
    refine congrArg _ (List.filter_congr fun x _ => ?_)
    by_cases owner : x.userId = v <;> simp [owner, relationshipResponse]
  · rename_i other
    refine congrArg _ (List.filter_congr fun x _ => ?_)
    by_cases owner : x.userId = u
    · have : ¬x.userId = v := fun same => other (same.symm.trans owner)
      simp [owner, Ne.symm other]
    · simp [owner]

/-- What a step does to the rows of a user: it removes the row he revokes in it, and
appends the one he creates. -/
structure RowsStep (A : AppState) (u : String) (e : Step) : Prop where
  echoes : ∀ x, Step.created A u e = some x → x.Echoes u
  rows : ownRows e.after.db u =
    ((ownRows e.before.db u).filter fun x => !(Step.revoked A u e = some x.relationshipId)) ++
      ((Step.created A u e).map fun x => x.response).toList

theorem RowsStep.none (created : Step.created A u e = none) (revoked : Step.revoked A u e = none)
    (same : ownRows e.after.db u = ownRows e.before.db u) : RowsStep A u e := by
  refine ⟨fun x some => ?_, ?_⟩
  · rw [created] at some
    cases some
  · rw [created, revoked, same]
    simp

/-- The step of a call made in this world. -/
abbrev callStep (A : AppState) (w : World) (c : Call) : Step := (server A).atomic.entry w (.call c)

theorem callStep_reply {α : Type} {c : Call} {p : Handler α} {f : α → Reply}
    (handled : handle A c = Prog.reply p f) :
    (callStep A w c).response = some ((p.run (exec A) w).1.map f) ∧
      (callStep A w c).after = (p.run (exec A) w).2 := by
  have run := reply_run (A := A) (w := w) p f
  rw [← handled] at run
  exact ⟨congrArg (fun r : Except Error Reply × World => some r.1) run, congrArg Prod.snd run⟩

theorem create_rowsStep (authorization : Option String) (req : Relationships.CreateRequest) :
    RowsStep A u (callStep A w (.createRelationship authorization req)) := by
  obtain ⟨response, after⟩ := callStep_reply (A := A) (w := w)
    (c := .createRelationship authorization req) rfl
  rcases create_cases (A := A) (w := w) authorization req with
    ⟨v, rel, auth, owner, echoes, result, rows⟩ | ⟨e, result, rows⟩
  · rw [result] at response
    have created : Step.created A u (callStep A w (.createRelationship authorization req)) =
        if v = u then some ⟨req, relationshipResponse rel⟩ else none := by
      unfold Step.created
      rw [response]
      simp only [Machine.entry_action, Except.map, Machine.entry_before, auth, Option.some.injEq]
    have appended : ownRows (callStep A w (.createRelationship authorization req)).after.db u =
        ownRows w.db u ++ if v = u then [relationshipResponse rel] else [] := by
      rw [after, ← owner, ← ownRows_append]
      exact ownRows_congr rows
    by_cases own : v = u
    · rw [if_pos own] at created appended
      refine ⟨fun x some => ?_, ?_⟩
      · rw [created] at some
        obtain rfl := Option.some.inj some
        exact own ▸ echoes
      · have kept : Step.revoked A u (callStep A w (.createRelationship authorization req)) =
            none := rfl
        rw [created, kept, appended]
        simp
    · rw [if_neg own] at created appended
      exact .none created rfl (by rw [appended, List.append_nil]; rfl)
  · rw [result] at response
    refine .none ?_ rfl (ownRows_congr (after ▸ rows))
    unfold Step.created
    rw [response]
    rfl

theorem revoke_rowsStep (authorization : Option String) (r : String) :
    RowsStep A u (callStep A w (.revokeRelationship authorization r)) := by
  obtain ⟨response, after⟩ := callStep_reply (A := A) (w := w)
    (c := .revokeRelationship authorization r) rfl
  rcases revoke_cases (A := A) (w := w) authorization r with ⟨v, rel, auth, row, run⟩ | ⟨e, n, run⟩
  · rw [run] at response after
    have revoked : Step.revoked A u (callStep A w (.revokeRelationship authorization r)) =
        if v = u then some r else none := by
      unfold Step.revoked
      rw [response]
      simp only [Machine.entry_action, Except.map, Machine.entry_before, auth, Option.some.injEq]
    have rows : ownRows (callStep A w (.revokeRelationship authorization r)).after.db u =
        if v = u then (ownRows w.db u).filter fun x => !(x.relationshipId = r)
        else ownRows w.db u := by
      rw [after, ← ownRows_without]
      exact ownRows_congr (by simp only [Relationships.revoked, Broker.kicked_relationships])
    by_cases own : v = u
    · rw [if_pos own] at revoked rows
      have kept : Step.created A u (callStep A w (.revokeRelationship authorization r)) = none :=
        rfl
      constructor
      · intro x made
        rw [kept] at made
        cases made
      · rw [revoked, rows, kept]
        simp [eq_comm]
    · rw [if_neg own] at revoked rows
      exact .none rfl revoked rows
  · rw [run] at response after
    refine .none rfl ?_ (by rw [after]; rfl)
    unfold Step.revoked
    rw [response]
    rfl

theorem handle_rowsStep (c : Call) : RowsStep A u (callStep A w c) := by
  have untouched (hc : c.spares .relationships) :
      ownRows (callStep A w c).after.db u = ownRows w.db u :=
    ownRows_congr (handle_relationships A w hc)
  cases c with
  | createRelationship authorization req => exact create_rowsStep authorization req
  | revokeRelationship authorization r => exact revoke_rowsStep authorization r
  | _ => exact .none rfl rfl (untouched rfl)

/-- The rows of a user are his live requests. -/
theorem rows_live (run : AtomicRun A allowed h w) :
    ownRows w.db u = (live A u h).map fun x => x.response := by
  refine run_induction (I := fun h w => ownRows w.db u = (live A u h).map fun x => x.response)
    run rfl ?_ ?_
  · intro h w x _ ih _
    have same : ownRows (environment x w).db u = ownRows w.db u := by cases x <;> rfl
    rw [same, ih, live_snoc]
    simp [Created.endsAt, Step.revoked, Step.created]
  · intro h w c _ ih _
    have step := (handle_rowsStep (A := A) (w := w) (u := u) c).rows
    rw [live_snoc, List.map_append]
    refine step.trans ?_
    rw [Machine.entry_before, ih, List.filter_map]
    cases Step.created A u (callStep A w c) <;> rfl

theorem live_echoes (run : AtomicRun A allowed h w) {x : Created} (mem : x ∈ live A u h) :
    x.Echoes u := by
  obtain ⟨e, he, created⟩ := mem_live mem
  have entry := run.entry_eq he
  cases action : e.action with
  | env x =>
      simp [Step.created, action] at created
  | call c =>
      rw [action] at entry
      rw [entry] at created
      exact (handle_rowsStep c).echoes x created

theorem topicsOf_ownRows (db : Database) (u : String) : Db.topicsOf db u =
    ((ownRows db u).flatMap fun x => x.publishTopics,
      (ownRows db u).flatMap fun x => x.subscribeTopics) := by
  simp only [Db.topicsOf, ownRows, List.flatMap_map, relationshipResponse]

theorem list_rows {authorization : Option String}
    (auth : authUser A w.clock authorization = some u)
    (answers : A.outside.fails w.statements = false) :
    ((handle A (.listRelationships authorization)).run (exec A) w).1 =
      .ok (.relationships (ownRows w.db u)) := by
  rw [handle, reply_run]
  unfold Relationships.list
  rw [Prog.run_bind, fromRequestParts_run, auth]
  dsimp only
  unfold Db.listRelationships sql
  simp only [Prog.call_bind, Prog.run_call, exec, answers, Statement.execute]
  rfl

/-- What a user's token and his listing are to show, of these live requests. -/
structure Shows (A : AppState) (w : World) (u : String) (requests : List Created) : Prop where
  token : ∀ req token v, req.userId = u →
    (handle A (.verify req)).run (exec A) w = (.ok (.token token), v) →
    ∃ claims, A.lib.jwtDecode A.jwtKeys.secret token = some claims ∧ claims.sub = u ∧
      claims.pubTopics.Perm (requests.flatMap fun x => x.request.publishTopics) ∧
      claims.subTopics.Perm
        (claims.notifyTopic :: requests.flatMap fun x => x.request.subscribeTopics) ∧
      claims.notifyTopic = A.notifyTopic u ∧ ownRows v.db u = ownRows w.db u
  listing : ∀ authorization, authUser A w.clock authorization = some u →
    A.outside.fails w.statements = false → ∃ rows,
      ((handle A (.listRelationships authorization)).run (exec A) w).1 =
        .ok (.relationships rows) ∧ rows.Perm (requests.map fun x => x.response)
  echoes : ∀ x ∈ requests, x.Echoes u

theorem live_topics (run : AtomicRun A allowed h w) (u : String) : Db.topicsOf w.db u =
    ((live A u h).flatMap fun x => x.request.publishTopics,
      (live A u h).flatMap fun x => x.request.subscribeTopics) := by
  rw [topicsOf_ownRows, rows_live run, List.flatMap_map, List.flatMap_map]
  refine Prod.ext ?_ ?_
  · exact List.flatMap_congr fun x mem => (live_echoes run mem).publishTopics
  · exact List.flatMap_congr fun x mem => (live_echoes run mem).subscribeTopics

theorem token_live (run : AtomicRun A allowed h w) {req : Auth.VerifyRequest} {token : String}
    {v : World} (ok : (handle A (.verify req)).run (exec A) w = (.ok (.token token), v)) :
    ∃ claims, A.lib.jwtDecode A.jwtKeys.secret token = some claims ∧ claims.sub = req.userId ∧
      claims.pubTopics = (live A req.userId h).flatMap (fun x => x.request.publishTopics) ∧
      claims.subTopics = (live A req.userId h).flatMap (fun x => x.request.subscribeTopics) ++
        [claims.notifyTopic] ∧
      claims.notifyTopic = A.notifyTopic req.userId ∧
      ownRows v.db req.userId = ownRows w.db req.userId := by
  have untouched := handle_relationships A w (c := .verify req) rfl
  rw [ok] at untouched
  rw [handle_verify] at ok
  obtain ⟨returned, -⟩ := Prod.mk.inj ok
  cases issued : ((Auth.verify A req).run (exec A) w).1 with
  | error e =>
      rw [issued] at returned
      cases returned
  | ok token' =>
      rw [issued] at returned
      obtain rfl := Reply.token.inj (Except.ok.inj returned)
      have decodes := jwtIssue_decodes (verify_ok (Prod.ext issued rfl)).issued
      rw [live_topics run req.userId] at decodes
      exact ⟨_, decodes, rfl, rfl, rfl, rfl, ownRows_congr untouched⟩

/-- A request others are authenticated for creates and revokes nothing of the user's. -/
theorem foreign_step {c : Call} {authorization : Option String}
    (header : c.authorization = some authorization)
    (foreign : authUser A w.clock authorization ≠ some u) :
    Step.created A u (callStep A w c) = none ∧ Step.revoked A u (callStep A w c) = none := by
  cases c <;> simp only [Call.authorization, Option.some.injEq, reduceCtorEq] at header
  all_goals subst header
  case createRelationship req =>
    refine ⟨?_, rfl⟩
    unfold Step.created
    rw [Machine.entry_action]
    split
    · rename_i action _
      cases action
      exact if_neg foreign
    · rfl
  case revokeRelationship r =>
    refine ⟨rfl, ?_⟩
    unfold Step.revoked
    rw [Machine.entry_action]
    split
    · rename_i action _
      cases action
      exact if_neg foreign
    · rfl
  all_goals exact ⟨rfl, rfl⟩

/-- Tokens and listings show the live requests of their user and nothing else, and no
request another user is authenticated for changes them. -/
theorem shows_live (run : AtomicRun A allowed h w) (u : String) :
    Shows A w u (live A u h) ∧
    ∀ e ∈ h, ∀ c authorization, e.action = .call c → c.authorization = some authorization →
      authUser A e.before.clock authorization ≠ some u →
      ownRows e.after.db u = ownRows e.before.db u ∧
        Db.topicsOf e.after.db u = Db.topicsOf e.before.db u := by
  refine ⟨⟨?_, ?_, fun x mem => live_echoes run mem⟩, ?_⟩
  · rintro req token v rfl ok
    obtain ⟨claims, decodes, sub, pub, subs, notify, rows⟩ := token_live run ok
    refine ⟨claims, decodes, sub, .of_eq pub, ?_, notify, rows⟩
    rw [subs]
    exact List.perm_append_singleton _ _
  · intro authorization auth answers
    refine ⟨_, list_rows auth answers, ?_⟩
    rw [rows_live run]
  · intro e he c authorization action header foreign
    have entry := run.entry_eq he
    rw [action] at entry
    obtain ⟨created, revoked⟩ := foreign_step (A := A) (w := e.before) header foreign
    have rows := (handle_rowsStep (A := A) (w := e.before) (u := u) c).rows
    rw [created, revoked] at rows
    have same : ownRows e.after.db u = ownRows e.before.db u := by
      rw [entry]
      simpa using rows
    exact ⟨same, by rw [topicsOf_ownRows, topicsOf_ownRows, same]⟩

theorem handle_answered {c : Call} {r : Except Error Reply}
    (answer : ((handle A c).run (exec A) w).1 = r) : ∃ v, (handle A c).run (exec A) w = (r, v) :=
  ⟨_, Prod.ext answer rfl⟩

section
open Deployment

private def login7 : Auth.VerifyRequest :=
  ⟨"0", "1", Base64Url.encode (sign (key 0) (outside.randomBytes 7))⟩

/-- Four relationships with repeated topics and one peer twice; the second is revoked. -/
def peering : List Action :=
  let t := token "0" "1" 100 [] []
  login ++ [relate t "p" ["a", "a"] ["b"], relate t "p" ["a"] ["b", "c"], relate t "q" [] ["c"],
    relate t "q" ["d"] [], revoke t "4", challenge "0"]

/-- What is left of them. -/
def remaining : List Relationships.RelationshipResponse :=
  [⟨"3", "0", "p", ["a", "a"], ["b"], 100⟩, ⟨"5", "0", "q", [], ["c"], 100⟩,
    ⟨"6", "0", "q", ["d"], [], 100⟩]

private theorem peering_facts : Honest peering ∧
    (live app "0" (history peering)).map Created.request =
      [⟨"p", ["a", "a"], ["b"]⟩, ⟨"q", [], ["c"]⟩, ⟨"q", ["d"], []⟩] ∧
    (live app "0" (history peering)).map Created.response = remaining ∧
    authUser app (reached peering).clock (bearer (token "0" "1" 100 [] [])) = some "0" ∧
    ((handle app (.verify login7)).run (exec app) (reached peering)).1 =
      .ok (.token (token "0" "1" 100 ["a", "a", "d"] ["b", "c"])) := by
  decide +kernel

/-- The next token of the user carries the topics of the three that are left, and the
listing shows them. -/
theorem shows_live_peering :
    (∃ token claims, ((handle app (.verify login7)).run (exec app) (reached peering)).1 =
        .ok (.token token) ∧
      app.lib.jwtDecode app.jwtKeys.secret token = some claims ∧
      claims.pubTopics.Perm ["a", "a", "d"] ∧
      claims.subTopics.Perm [app.notifyTopic "0", "b", "c"]) ∧
    ∃ rows, ((handle app (.listRelationships (bearer (token "0" "1" 100 [] [])))).run (exec app)
        (reached peering)).1 = .ok (.relationships rows) ∧ rows.Perm remaining := by
  obtain ⟨honest, requests, responses, auth, issued⟩ := peering_facts
  have shows := (shows_live (run_history honest) "0").1
  constructor
  · obtain ⟨v, run⟩ := handle_answered issued
    obtain ⟨claims, decodes, -, pub, sub, notify, -⟩ := shows.token login7 _ v rfl run
    have pubTopics : ((live app "0" (history peering)).flatMap fun x => x.request.publishTopics) =
        ["a", "a", "d"] := by
      rw [← List.flatMap_map Created.request, requests]
      rfl
    have subTopics : ((live app "0" (history peering)).flatMap fun x =>
        x.request.subscribeTopics) = ["b", "c"] := by
      rw [← List.flatMap_map Created.request, requests]
      rfl
    rw [pubTopics] at pub
    rw [subTopics, notify] at sub
    exact ⟨_, claims, issued, decodes, pub, sub⟩
  · obtain ⟨rows, listed, same⟩ := shows.listing _ auth (unfailing _)
    rw [responses] at same
    exact ⟨rows, listed, same⟩

end
end Smqtt
