import Smqtt.Runs.Schedules

/-!
Authenticity of logins under interleaving. All challenges share one map that is
keyed by user alone, and any number of `challenge` and `verify` handlers are in
flight. Every issued token still goes back to one challenge of its own: the last
one stored for its user, no more than a minute old, and signed by a device of
the user.

The argument follows one entry of the map. What `verify` removes was stored by
the last operation on the entry; nothing else takes it out; so two issues that
share a challenge share the removal, and with it the thread.
-/

namespace Smqtt

open AtomicSteps System

/-- The user whose entry of the challenge map an operation stores or removes. -/
def Op.challengeOf : Op → Option String
  | .challengesInsert userId _ _ => some userId
  | .challengesRemove userId => some userId
  | _ => none

/-- The positions at which a token is issued. -/
def issuePositions (h : PoolLog) : Set Nat :=
  {n | ∃ i ev token, At h n i ev ∧ issuedToken ev = some token}

/-- The random bytes of two draws differ. -/
def DistinctDraws (h : PoolLog) : Prop :=
  ∀ m n i j nonce, At h m i ⟨.fillBytes, nonce⟩ → At h n j ⟨.fillBytes, nonce⟩ → m = n

/-- The token that a thread issues at position `n` for user `u` and device `d` answers
the challenge of thread `j`. -/
structure Answers (h : PoolLog) (s : Threads) (n j : Nat) (u d : String) (nonce : List UInt8) where
  thread : Nat
  drawn : Nat
  read : Nat
  stored : Nat
  removed : Nat
  /-- the challenge's look at the clock -/
  time : Nat
  device : Device
  issued : ∃ pubTopics subTopics notifyTopic token,
    At h n thread ⟨.jwtIssue u d pubTopics subTopics notifyTopic, .ok token⟩
  request : (requests h)[j]? = some (.challenge ⟨u⟩)
  at_drawn : At h drawn j ⟨.fillBytes, nonce⟩
  at_read : At h read j ⟨.unixNow, time⟩
  at_stored : At h stored j ⟨.challengesInsert u nonce (time + Auth.challengeTtlSecs), ()⟩
  at_removed : At h removed thread
    ⟨.challengesRemove u, some (nonce, time + Auth.challengeTtlSecs)⟩
  order : drawn < read ∧ read < stored ∧ stored < removed ∧ removed < n
  latest : ∀ k i ev, stored < k → k < removed → At h k i ev → ev.op.challengeOf ≠ some u
  inTime : ∀ e, h[removed]? = some e → e.before.world.clock.secs ≤ time + 60
  registered : device ∈ s.world.db.devices ∧ device.deviceId = d ∧ device.userId = u
  signed : ∃ e ∈ h.take removed, e.action = .env (.sign device.pubkey nonce)

variable {A : AppState} {allowed : Scheduling} {h : PoolLog} {s : Threads}
  {i j m n : Nat} {u d u' d' : String} {nonce : List UInt8}

theorem exec_challengeOf {op : Op} {w : World} (other : op.challengeOf ≠ some u) :
    (exec A op w).2.challenges u = w.challenges u := by
  by_cases part : op.part = .challenges
  · cases op with
    | challengesInsert v nonce expiresAt =>
        exact Function.update_of_ne (fun eq => other (congrArg some eq.symm)) _ _
    | challengesRemove v =>
        exact Function.update_of_ne (fun eq => other (congrArg some eq.symm)) _ _
    | sql statement => cases statement <;> cases part
    | _ => cases part
  · rw [exec_challenges A op w part]

/-- A removed challenge was stored by the last operation on its entry. -/
theorem removed_stored (run : PoolRun A allowed h s) {expiresAt : Nat}
    (a : At h n i ⟨.challengesRemove u, some (nonce, expiresAt)⟩) :
    ∃ m < n, ∃ j, At h m j ⟨.challengesInsert u nonce expiresAt, ()⟩ ∧
      ∀ k l ev, m < k → k < n → At h k l ev → ev.op.challengeOf ≠ some u := by
  obtain ⟨e, he⟩ := a.entry
  have entry : some (nonce, expiresAt) = e.before.world.challenges u := (a.exec run he).1
  have prior := (run.take he).1
  have changed := last_change prior (f := fun w : World => w.challenges u)
    (T := fun op : Op => op.challengeOf = some u) (fun op w => exec_challengeOf)
    (fun x w => by cases x <;> rfl)
  rcases changed with first | ⟨m, j, ev, c, placed, at_m, touches, eq, none⟩
  · rw [first] at entry
    cases entry
  · have lt := placed.lt_of_take
    rw [List.getElem?_take_of_lt lt] at at_m
    have placed := (at_take lt).mp placed
    rw [eq, (placed.exec run at_m).2] at entry
    obtain ⟨op, answer⟩ := ev
    refine ⟨m, lt, j, ?_, fun k l ev mk kn at_k => none k l ev mk ((at_take kn).mpr at_k)⟩
    cases op with
    | challengesInsert v nonce' expiresAt' =>
        obtain rfl : v = u := Option.some.inj touches
        have stored : some (nonce, expiresAt) = some (nonce', expiresAt') :=
          entry.trans (Function.update_self ..)
        obtain ⟨rfl, rfl⟩ := Prod.mk.inj (Option.some.inj stored)
        exact placed
    | challengesRemove v =>
        obtain rfl : v = u := Option.some.inj touches
        cases entry.trans (Function.update_self ..)
    | _ => cases touches

/-- What the thread that stores a challenge has done before. -/
theorem stored_challenge (run : PoolRun A allowed h s) {expiresAt : Nat}
    (a : At h n i ⟨.challengesInsert u nonce expiresAt, ()⟩) :
    ∃ x : Challenged, (requests (h.take n))[i]? = some (.challenge ⟨u⟩) ∧
      eventsOf i (h.take n) = x.events ⟨u⟩ ∧ x.nonce = nonce ∧
      expiresAt = addU64 x.now Auth.challengeTtlSecs := by
  obtain ⟨c, request, spec⟩ := a.sat run handle_insertChallenge_sat
  obtain ⟨q, x, rfl, seen, op⟩ := spec rfl
  obtain ⟨user, drawn, expires⟩ := Op.challengesInsert.inj op
  obtain rfl : q = ⟨u⟩ := by rw [user]
  exact ⟨x, request, seen, drawn.symm, expires⟩

/-- A challenge handler stores one challenge. -/
theorem stored_once (run : PoolRun A allowed h s) {x y : Nat} {nonce' : List UInt8}
    (a : At h m j ⟨.challengesInsert u nonce x, ()⟩)
    (b : At h n j ⟨.challengesInsert u' nonce' y, ()⟩) : m = n := by
  obtain ⟨_, -, seen, -⟩ := stored_challenge run a
  obtain ⟨_, -, seen', -⟩ := stored_challenge run b
  refine a.position_eq b ?_
  rw [seen, seen']
  rfl

/-- A verify handler issues one token. -/
theorem issued_once (run : PoolRun A allowed h s) {token token' : String} {claims claims' : Claims}
    (a : IssuedAt A h m i token claims) (b : IssuedAt A h n i token' claims') : m = n := by
  obtain ⟨_, l, -, seen, -⟩ := a.login run
  obtain ⟨_, l', -, seen', -⟩ := b.login run
  refine a.issue.position_eq b.issue ?_
  rw [seen, seen']
  rfl

/-- The signature behind a passage through `verify` was made before the challenge
was removed. -/
theorem Login.signed (genuine : ∀ h s a, allowed h s a → Genuine A h s a)
    (run : PoolRun A allowed h s) {req : Auth.VerifyRequest} (l : Login A req)
    (request : (requests h)[i]? = some (.verify req)) :
    ∃ e ∈ h, e.action = .env (.sign l.device.pubkey l.nonce) := by
  obtain ⟨p, e, at_p, ok⟩ := spawned_at run request
  obtain ⟨f, hf, action⟩ := genuine _ _ _ ok l.sigBytes l.device.pubkey l.nonce l.decoded
    l.point l.verifies
  exact ⟨f, List.mem_of_mem_take hf, action⟩

theorem IssuedAt.answers (genuine : ∀ h s a, allowed h s a → Genuine A h s a)
    (run : PoolRun A allowed h s) {token : String} {claims : Claims}
    (issued : IssuedAt A h n i token claims) :
    ∃ j nonce, Nonempty (Answers h s n j claims.sub claims.dev nonce) := by
  obtain ⟨req, l, request, seen, sub, dev⟩ := issued.login run
  -- the positions of what the verify thread has done
  obtain ⟨removed, removed_lt, at_removed, before_removed⟩ :=
    at_of_eventsOf [] seen
  obtain ⟨looked, -, at_looked, before_looked⟩ := at_of_eventsOf [_] seen
  obtain ⟨selected, -, at_selected, -⟩ := at_of_eventsOf [_, _, _] seen
  have removed_looked : removed < looked :=
    lt_of_eventsOf_lt (h := h) (i := i) (by simp [before_removed, before_looked])
  -- the challenge it removed, and what the challenge thread has done
  obtain ⟨stored, stored_lt, j, at_stored, latest⟩ := removed_stored run at_removed
  obtain ⟨x, challenge, drawn_events, drawn_eq, expires⟩ := stored_challenge run at_stored
  obtain ⟨drawn, drawn_lt, at_drawn, before_drawn⟩ :=
    at_of_eventsOf [_] drawn_events
  obtain ⟨read, read_lt, at_read, before_read⟩ :=
    at_of_eventsOf [_, _] drawn_events
  have drawn_read : drawn < read :=
    lt_of_eventsOf_lt (h := h) (i := j) (by simp [before_drawn, before_read])
  obtain ⟨c, at_c⟩ := at_read.entry
  have time : x.now = c.before.world.clock.secs := (at_read.exec run at_c).1
  have expires : l.expiresAt = x.now + Auth.challengeTtlSecs := by
    rw [expires, addU64_of_lt]
    have := c.before.world.clock.inRange
    simp only [Auth.challengeTtlSecs]
    omega
  -- the device row it selected
  obtain ⟨f, at_f⟩ := at_selected.entry
  have devices := (at_selected.exec run at_f).1
  have found := List.mem_of_find?_eq_some l.found
  have owned : l.device ∈ f.before.world.db.devices ∧ l.device.userId = req.userId := by
    rcases exec_sql_cases A f.before.world (.selectDevices req.userId) with
      failed | ⟨rows, db, -, selected, answered⟩
    · have answer : some l.devices = none := devices.trans (congrArg Prod.fst failed)
      cases answer
    · have answer : some l.devices = some rows := devices.trans (congrArg Prod.fst answered)
      obtain rfl := (Prod.mk.inj (Option.some.inj selected)).1
      rw [Option.some.inj answer] at found
      simpa using List.mem_filter.mp found
  refine ⟨j, l.nonce, ⟨{
    thread := i
    drawn, read, stored, removed
    time := x.now
    device := l.device
    issued := ⟨_, _, _, _, issued.issue⟩
    request := ?_
    at_drawn := drawn_eq ▸ at_drawn
    at_read
    at_stored := ?_
    at_removed := ?_
    order := ⟨drawn_read, read_lt, stored_lt, removed_lt⟩
    latest := ?_
    inTime := ?_
    registered := ?_
    signed := ?_ }⟩⟩
  · rw [← sub]
    exact requests_of_take challenge
  · rw [← sub, ← expires]
    exact at_stored
  · rw [← sub, ← expires]
    exact at_removed
  · rw [← sub]
    exact latest
  · intro e at_e
    obtain ⟨g, at_g⟩ := at_looked.entry
    have now : l.now = g.before.world.clock.secs := (at_looked.exec run at_g).1
    have later := clock_le (run.take at_g).1 (by
      rw [List.getElem?_take_of_lt removed_looked]
      exact at_e)
    have unexpired := l.unexpired
    simp only [expires, Auth.challengeTtlSecs] at unexpired
    omega
  · refine ⟨(database_extends run at_f).devices _ owned.1, ?_, owned.2.trans sub⟩
    rw [← dev]
    simpa using List.find?_some l.found
  · obtain ⟨r, at_r⟩ := at_removed.entry
    have served := at_removed.request run (requests_of_take request)
    exact l.signed genuine (run.take at_r).1 served

/-- Two issues that answer one challenge are one. -/
theorem Answers.same_challenge (run : PoolRun A allowed h s) {nonce' : List UInt8}
    (x : Answers h s m j u d nonce) (y : Answers h s n j u' d' nonce') : m = n := by
  obtain ⟨-, -, stored, removed⟩ := x.order
  obtain ⟨-, -, stored', removed'⟩ := y.order
  have same_store := stored_once run x.at_stored y.at_stored
  have at_stored := same_store ▸ x.at_stored
  obtain ⟨-, same_event⟩ := at_stored.unique y.at_stored
  obtain ⟨rfl, -, -⟩ := Op.challengesInsert.inj (congrArg Event.op same_event)
  -- neither removal can precede the other: the entry was untouched until each
  have same_removal : x.removed = y.removed := by
    rcases Nat.lt_trichotomy x.removed y.removed with lt | eq | gt
    · exact absurd rfl (y.latest _ _ _ (by omega) lt x.at_removed)
    · exact eq
    · exact absurd rfl (x.latest _ _ _ (by omega) gt y.at_removed)
  have at_removed := same_removal ▸ x.at_removed
  obtain ⟨same_thread, -⟩ := at_removed.unique y.at_removed
  obtain ⟨_, _, _, _, issue⟩ := x.issued
  obtain ⟨_, _, _, _, issue'⟩ := y.issued
  rw [same_thread] at issue
  obtain ⟨_, issued, -, -⟩ := issuedAt_of_at run issue
  obtain ⟨_, issued', -, -⟩ := issuedAt_of_at run issue'
  exact issued_once run issued issued'

/-- A nonce yields one token. -/
theorem Answers.same_nonce (run : PoolRun A allowed h s) (distinct : DistinctDraws h) {k : Nat}
    (x : Answers h s m j u d nonce) (y : Answers h s n k u' d' nonce) : m = n := by
  have same_draw := distinct _ _ _ _ _ x.at_drawn y.at_drawn
  have at_drawn := same_draw ▸ x.at_drawn
  obtain ⟨rfl, -⟩ := at_drawn.unique y.at_drawn
  exact x.same_challenge run y

/-- A stored session is that of a token presented and verified before. -/
theorem session_verified (run : PoolRun A allowed h s) {clientId : String} {claims : Claims}
    (a : At h n i ⟨.sessionsInsert clientId claims, ()⟩) :
    clientId = claims.dev ∧ ∃ m < n, ∃ token, At h m i ⟨.jwtVerify token, .ok claims⟩ := by
  obtain ⟨c, -, spec⟩ := a.sat run handle_insertSession_sat
  obtain ⟨info, x, -, seen, op⟩ := spec rfl
  obtain ⟨rfl, rfl⟩ := Op.sessionsInsert.inj op
  obtain ⟨m, lt, verified, -⟩ := at_of_eventsOf [] seen
  exact ⟨x.device, m, lt, x.token, verified⟩

/-- Challenge-response authenticity: issued tokens map injectively to the challenges
they answer, distinct draws yield distinct nonces to them, and every identity a
bearer token or a session stands for goes back to an answered challenge. -/
theorem challenge_response (run : PoolRun A (Genuine A) h s) :
    (∃ source : Nat → Nat, Set.InjOn source (issuePositions h) ∧
      ∀ n i u d pubTopics subTopics notifyTopic token,
        At h n i ⟨.jwtIssue u d pubTopics subTopics notifyTopic, .ok token⟩ →
          ∃ nonce, Nonempty (Answers h s n (source n) u d nonce)) ∧
    (DistinctDraws h → ∀ m n j k u u' d d' nonce, Nonempty (Answers h s m j u d nonce) →
      Nonempty (Answers h s n k u' d' nonce) → m = n) ∧
    (∀ n i token claims, At h n i ⟨.jwtVerify token, .ok claims⟩ →
      ∃ m < n, ∃ j nonce, Nonempty (Answers h s m j claims.sub claims.dev nonce)) ∧
    (∀ n i clientId claims, At h n i ⟨.sessionsInsert clientId claims, ()⟩ →
      clientId = claims.dev ∧
        ∃ m < n, ∃ j nonce, Nonempty (Answers h s m j claims.sub claims.dev nonce)) := by
  have genuine : ∀ h s a, Genuine A h s a → Genuine A h s a := fun _ _ _ ok => ok
  have identity {n i token claims} (a : At h n i ⟨.jwtVerify token, .ok claims⟩) :
      ∃ m < n, ∃ j nonce, Nonempty (Answers h s m j claims.sub claims.dev nonce) := by
    obtain ⟨m, lt, l, issued⟩ := verified_issued genuine run a
    exact ⟨m, lt, issued.answers genuine run⟩
  refine ⟨?_, ?_, fun n i token claims a => identity a, ?_⟩
  · have answered (n : Nat) : ∃ j, ∀ i u d ps ss t token,
        At h n i ⟨.jwtIssue u d ps ss t, .ok token⟩ →
          ∃ nonce, Nonempty (Answers h s n j u d nonce) := by
      by_cases issue : ∃ i u d ps ss t token, At h n i ⟨.jwtIssue u d ps ss t, .ok token⟩
      · obtain ⟨i, u, d, ps, ss, t, token, a⟩ := issue
        obtain ⟨claims, issued, rfl, rfl⟩ := issuedAt_of_at run a
        obtain ⟨j, nonce, x⟩ := issued.answers genuine run
        refine ⟨j, fun i' u' d' ps' ss' t' token' a' => ?_⟩
        obtain ⟨-, same⟩ := a'.unique a
        obtain ⟨rfl, rfl, -⟩ := Op.jwtIssue.inj (congrArg Event.op same)
        exact ⟨nonce, x⟩
      · exact ⟨0, fun i u d ps ss t token a =>
          absurd ⟨i, u, d, ps, ss, t, token, a⟩ issue⟩
    choose source hsource using answered
    refine ⟨source, ?_, hsource⟩
    rintro m ⟨i, ev, token, a, issues⟩ n ⟨i', ev', token', a', issues'⟩ same
    obtain ⟨u, d, ps, ss, t, rfl⟩ := issuedToken_eq_some issues
    obtain ⟨u', d', ps', ss', t', rfl⟩ := issuedToken_eq_some issues'
    obtain ⟨nonce, ⟨x⟩⟩ := hsource m _ _ _ _ _ _ _ a
    obtain ⟨nonce', ⟨y⟩⟩ := hsource n _ _ _ _ _ _ _ a'
    rw [same] at x
    exact x.same_challenge run y
  · rintro distinct m n j k u u' d d' nonce ⟨x⟩ ⟨y⟩
    exact x.same_nonce run distinct y
  · intro n i clientId claims a
    obtain ⟨device, m, lt, token, verified⟩ := session_verified run a
    obtain ⟨m', lt', j, nonce, x⟩ := identity verified
    exact ⟨device, m', Nat.lt_trans lt' lt, j, nonce, x⟩

section
open Deployment

private theorem pool_login_facts : HonestSchedule poolLogin ∧
    ((poolLog poolLogin).any fun e => (e.response.bind issuedToken).isSome) = true := by
  decide +kernel

/-- A token is issued in this run, and answers a challenge. -/
theorem challenge_response_login : ∃ n j u d nonce, n ∈ issuePositions (poolLog poolLogin) ∧
    Nonempty (Answers (poolLog poolLogin) (poolState poolLogin) n j u d nonce) := by
  obtain ⟨honest, issues⟩ := pool_login_facts
  have run := run_poolLog honest
  obtain ⟨e, he, some_token⟩ := List.any_eq_true.mp issues
  obtain ⟨token, token_eq⟩ := Option.isSome_iff_exists.mp some_token
  obtain ⟨ev, response, issued⟩ := Option.bind_eq_some_iff.mp token_eq
  obtain ⟨i, does⟩ := does_of_response run he response
  obtain ⟨n, placed⟩ := at_of_mem he does
  obtain ⟨u, d, ps, ss, t, rfl⟩ := issuedToken_eq_some issued
  obtain ⟨⟨source, -, answered⟩, -⟩ := challenge_response run
  obtain ⟨nonce, answers⟩ := answered n i u d ps ss t token placed
  exact ⟨n, source n, u, d, nonce, ⟨i, _, token, placed, issued⟩, answers⟩

end

end Smqtt
