import Smqtt.Api.Events
import Smqtt.Library.Positions
import Smqtt.Runs.Atomic

/-!
Runs of the server with any number of handlers and hooks in flight, one atomic
operation at a time. `Genuine` makes signatures ideal in these runs: a signature
that verifies was made by the holder of the key before it was sent, and a token
that verifies was issued before.

A token names the clock at the position of its issue, and behind every issue
stands a passage through the checks of `verify`.
-/

namespace Smqtt

open AtomicSteps System

abbrev Schedule := PoolAction Call Env

abbrev Threads := Pool signature World Call Error Reply

abbrev PoolLog := PoolHistory signature World Call Env Error Reply

abbrev Scheduling := Assumption Threads Schedule (Option (Event signature))

/-- A run of the server with handlers and hooks interleaved. -/
abbrev PoolRun (A : AppState) (allowed : Scheduling) (h : PoolLog) (s : Threads) : Prop :=
  Run (server A).pool allowed h s

/-- The token an event has issued. -/
def issuedToken : Event signature → Option String
  | ⟨.jwtIssue _ _ _ _ _, .ok token⟩ => some token
  | _ => none

/-- Signatures are ideal: the holder of a key has signed what verifies under it, and
a token that verifies was issued. -/
def Genuine (A : AppState) : Scheduling := fun h s a =>
  match a with
  | .spawn (.verify req) => ∀ signature key message, b64Decode A req.signature = .ok signature →
      A.lib.ed25519Point key = true → A.lib.ed25519Verify key message signature = true →
      ∃ e ∈ h, e.action = .env (.sign key message)
  | .step i =>
      match s.threads[i]? with
      | some (_, .call (.jwtVerify token) _) =>
          (JwtKeys.verify A s.world.clock token).toOption = none ∨
            ∃ e ∈ h, e.response.bind issuedToken = some token
      | _ => True
  | _ => True

section
variable {A : AppState} {allowed : Scheduling} {h : PoolLog} {s : Threads}
  {i j m n : Nat} {ev : Event signature}

theorem issuedToken_eq_some {token : String} (h : issuedToken ev = some token) :
    ∃ u d ps ss t, ev = ⟨.jwtIssue u d ps ss t, .ok token⟩ := by
  unfold issuedToken at h
  split at h
  · obtain rfl := Option.some.inj h
    exact ⟨_, _, _, _, _, rfl⟩
  · cases h

theorem clock_le (run : PoolRun A allowed h s) {e : PoolEntry signature World Call Env Error Reply}
    (at_n : h[n]? = some e) : e.before.world.clock.secs ≤ s.world.clock.secs :=
  world_climbs run (R := fun v w => v.clock.secs ≤ w.clock.secs) (fun _ => Nat.le_refl _)
    (fun _ _ _ => Nat.le_trans) (fun op w => Nat.le_of_eq (by
      rw [show ((server A).exec op w).2.clock = w.clock from exec_clock A op w]))
    (fun e w => by
      cases e with
      | tick n => exact Clock.le_advance _ _
      | sign key m => exact Nat.le_refl _) at_n

theorem database_extends (run : PoolRun A allowed h s)
    {e : PoolEntry signature World Call Env Error Reply} (at_n : h[n]? = some e) :
    e.before.world.db.Extends s.world.db :=
  world_climbs run (R := fun v w => v.db.Extends w.db) (fun _ => .refl _)
    (fun _ _ _ => .trans) (exec_extends A) (fun e w => by cases e <;> exact .refl _) at_n

theorem pool_integrity (run : PoolRun A allowed h s) : s.world.db.Integrity :=
  pool_invariant (I := fun w => w.db.Integrity) Database.empty_integrity
    (exec_integrity A) (fun e w hw => by cases e <;> exact hw) run

theorem exec_draws_le (A : AppState) (op : Op) (w : World) :
    w.draws ≤ (exec A op w).2.draws := by
  cases op with
  | sql statement =>
      rcases exec_sql_cases A w statement with h | ⟨x, db, -, -, h⟩
      · rw [h]; exact Nat.le_refl _
      · rw [h]; exact Nat.le_refl _
  | forward session topic => simp only [exec]; split <;> exact Nat.le_refl _
  | newUuid => exact Nat.le_succ _
  | fillBytes => exact Nat.le_succ _
  | callHook url pubkey => exact Nat.le_succ _
  | _ => exact Nat.le_refl _

/-- The ids drawn never repeat. -/
def FreshIds (A : AppState) : Prop := Function.Injective A.outside.uuid

/-- An id is drawn at the position of the supply it names, which is then used up. -/
theorem uuid_drawn (run : PoolRun A allowed h s) {uuid : String} (a : At h m i ⟨.newUuid, uuid⟩) :
    ∃ d < s.world.draws, uuid = A.outside.uuid d ∧
      ∀ e, h[m]? = some e → d = e.before.world.draws := by
  obtain ⟨e, at_m⟩ := a.entry
  refine ⟨e.before.world.draws, ?_, (a.exec run at_m).1, fun f at_f => ?_⟩
  · refine a.onward run (I := fun w => e.before.world.draws < w.draws) at_m (Nat.lt_succ_self _)
      ?_ ?_
    · intro k j ev c _ _ _ before
      exact Nat.lt_of_lt_of_le before (exec_draws_le A ev.op _)
    · intro x w before
      cases x <;> exact before
  · rw [Option.some.inj (at_m.symm.trans at_f)]

private theorem uuid_later (fresh : FreshIds A) (run : PoolRun A allowed h s) {uuid : String}
    (a : At h m i ⟨.newUuid, uuid⟩) (b : At h n j ⟨.newUuid, uuid⟩) : ¬m < n := by
  intro lt
  obtain ⟨f, at_n⟩ := b.entry
  obtain ⟨d, used, drawn, -⟩ := uuid_drawn (run.take at_n).1 ((at_take lt).mpr a)
  obtain ⟨d', -, drawn', here⟩ := uuid_drawn run b
  rw [here f at_n] at drawn'
  have same := fresh (drawn.symm.trans drawn')
  omega

theorem uuid_once (fresh : FreshIds A) (run : PoolRun A allowed h s) {uuid : String}
    (a : At h m i ⟨.newUuid, uuid⟩) (b : At h n j ⟨.newUuid, uuid⟩) : m = n := by
  have := uuid_later fresh run a b
  have := uuid_later fresh run b a
  omega

/-- A statement that answers has had its effect. -/
theorem answered_by (run : PoolRun A allowed h s)
    {e : PoolEntry signature World Call Env Error Reply} {statement : Statement}
    {x : statement.Answer} (a : At h n i ⟨.sql statement, some x⟩) (at_n : h[n]? = some e) :
    ∃ db, statement.execute e.before.world.db = some (x, db) ∧
      e.after.world = { e.before.world.counted with db } := by
  obtain ⟨answer, after⟩ := a.exec run at_n
  have answer : some x = (exec A (.sql statement) e.before.world).1 := answer
  have after : e.after.world = (exec A (.sql statement) e.before.world).2 := after
  rcases exec_sql_cases A e.before.world statement with failed | ⟨y, db, -, executed, result⟩
  · rw [failed] at answer
    cases answer
  · rw [result] at answer after
    obtain rfl := Option.some.inj answer
    exact ⟨db, executed, after⟩

/-- Thread `i` issues `token` with these claims at position `n`. -/
structure IssuedAt (A : AppState) (h : PoolLog) (n i : Nat) (token : String) (claims : Claims) :
    Prop where
  issue : At h n i ⟨.jwtIssue claims.sub claims.dev claims.pubTopics claims.subTopics
    claims.notifyTopic, .ok token⟩
  decodes : A.lib.jwtDecode A.jwtKeys.secret token = some claims
  clock : ∀ e, h[n]? = some e → claims.iat = e.before.world.clock.secs

theorem issuedAt_of_at (run : PoolRun A allowed h s) {u d t token : String} {ps ss : List String}
    (a : At h n i ⟨.jwtIssue u d ps ss t, .ok token⟩) :
    ∃ claims, IssuedAt A h n i token claims ∧ claims.sub = u ∧ claims.dev = d := by
  obtain ⟨e, he⟩ := a.entry
  have answer := (a.exec run he).1.symm
  refine ⟨JwtKeys.claims A e.before.world.clock u d ps ss t, ⟨a, jwtIssue_decodes answer, ?_⟩,
    rfl, rfl⟩
  intro f hf
  obtain rfl : e = f := Option.some.inj (he.symm.trans hf)
  rfl

/-- A token that verifies was issued before, with the claims it carries. -/
theorem verified_issued (genuine : ∀ h s a, allowed h s a → Genuine A h s a)
    (run : PoolRun A allowed h s) {token : String} {claims : Claims}
    (a : At h n i ⟨.jwtVerify token, .ok claims⟩) :
    ∃ m < n, ∃ j, IssuedAt A h m j token claims := by
  obtain ⟨e, he⟩ := a.entry
  have verifies := (a.exec run he).1.symm
  obtain ⟨ok, r, next, pending⟩ := a.pending run he
  have issued := genuine _ _ _ ok
  simp only [Genuine, pending] at issued
  rcases issued with refused | ⟨f, hf, issued⟩
  · exact absurd refused (by
      rw [show JwtKeys.verify A e.before.world.clock token = .ok claims from verifies]
      simp [Except.toOption])
  · obtain ⟨ev, response, token_eq⟩ := Option.bind_eq_some_iff.mp issued
    obtain ⟨u, d, ps, ss, t, rfl⟩ := issuedToken_eq_some token_eq
    obtain ⟨m, at_m⟩ := List.getElem?_of_mem hf
    have before := run.take he
    obtain ⟨i', does⟩ := does_of_response before.1 hf response
    have placed : At (h.take n) m i' _ := ⟨f, at_m, does⟩
    have lt := placed.lt_of_take
    obtain ⟨claims', issue, -, -⟩ := issuedAt_of_at run ((at_take lt).mp placed)
    obtain rfl : claims' = claims :=
      Option.some.inj (issue.decodes.symm.trans (jwtVerify_decodes verifies).1)
    exact ⟨m, lt, i', issue⟩

/-- Behind an issue stands a passage through the checks of `verify`. -/
theorem IssuedAt.login (run : PoolRun A allowed h s) {token : String} {claims : Claims}
    (issued : IssuedAt A h n i token claims) :
    ∃ req, ∃ l : Login A req, (requests (h.take n))[i]? = some (.verify req) ∧
      eventsOf i (h.take n) = l.events ∧ req.userId = claims.sub ∧ req.deviceId = claims.dev := by
  obtain ⟨c, request, spec⟩ := issued.issue.sat run handle_issue_sat
  obtain ⟨req, l, rfl, seen, op⟩ := spec rfl
  obtain ⟨sub, dev, -, -, -⟩ := Op.jwtIssue.inj op
  exact ⟨req, l, request, seen, sub.symm, dev.symm⟩

end
end Smqtt
