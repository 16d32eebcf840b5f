import Smqtt.Runs.Cutoff
import Smqtt.Runs.Deployment

/-!
A suspended user is offline and stays so until it is unsuspended. The kick of a
suspension goes through the device rows of the user, so it reaches every live
connection because each of them sits under a client id that is such a row.
-/

namespace Smqtt

open AtomicSteps

variable {A : AppState} {h pre post : Log} {w v : World} {e : Step}
  {allowed : Assumption World Action (Option (Except Error Reply))}

/-- The step suspends the user. -/
def Suspends (e : Step) (u : String) : Prop :=
  ∃ key req, e.action = .call (.suspendUser key u req) ∧ e.response = some (.ok .noContent)

/-- The step lifts the suspension of the user. -/
def Unsuspends (e : Step) (u : String) : Prop :=
  ∃ key, e.action = .call (.unsuspendUser key u) ∧ e.response = some (.ok .noContent)

def IsSuspended (w : World) (u : String) : Prop :=
  ∃ x, w.db.user u = some x ∧ x.suspended = true

/-- No live connection authenticated with a token of the user. -/
def Offline (A : AppState) (w : World) (u : String) : Prop :=
  ∀ x ∈ w.connections, ∀ claims, A.lib.jwtDecode A.jwtKeys.secret x.token = some claims →
    claims.sub ≠ u

/-- The user of every live connection has a row and is not suspended. -/
theorem live_unsuspended (unfailing : Unfailing A) (run : AtomicRun A (Unforged A) h w)
    {x : Connection} (live : x ∈ w.connections) {claims : Claims}
    (decodes : A.lib.jwtDecode A.jwtKeys.secret x.token = some claims) :
    ∃ y, w.db.user claims.sub = some y ∧ y.suspended = false := by
  revert x claims
  refine run_induction (I := fun _ w => ∀ {x : Connection}, x ∈ w.connections →
    ∀ {claims : Claims}, A.lib.jwtDecode A.jwtKeys.secret x.token = some claims →
      ∃ y, w.db.user claims.sub = some y ∧ y.suspended = false) run ?_ ?_ ?_
  · intro x live
    cases live
  · intro h w env _ ih _ x live claims decodes
    cases env <;> exact ih live decodes
  · intro h w call run ih _ x live claims decodes
    -- the row of a connection that was live before, and why a suspension spares none
    have kept {y : Connection} (old : y ∈ w.connections) (token : y.token = x.token)
        (id : y.clientId = x.clientId) :
        ∃ z, ((handle A call).run (exec A) w).2.db.user claims.sub = some z ∧
          z.suspended = false := by
      obtain ⟨z, row, active⟩ := ih old (token ▸ decodes)
      have change := handle_user (A := A) (w := w) call claims.sub
      rw [row] at change
      generalize ((handle A call).run (exec A) w).2.db.user claims.sub = new at change
      cases change with
      | same => exact ⟨z, rfl, active⟩
      | kicked z kick => exact ⟨_, rfl, active⟩
      | unsuspended z key hc done => exact ⟨_, rfl, rfl⟩
      | suspended z cutoff key req hc kick written =>
          obtain ⟨⟨u, n⟩, mem, rfl⟩ := List.mem_map.mp kick
          obtain ⟨granted, issued, dev⟩ := connection_issued run old
          obtain rfl : granted = claims :=
            Option.some.inj (issued.decodes.symm.trans (token ▸ decodes))
          obtain ⟨d, hd, hid, owner⟩ := issued.device run
          exact absurd (hid.trans (dev.symm.trans id))
            ((handle_kick mem live).2 (unfailing _) d hd owner)
    rcases handle_connection live with
      old | ⟨session, sub, y, -, -, old, -, rfl⟩ | ⟨info, token, claims', rfl, admits, -, rfl⟩
    · exact kept old rfl rfl
    · exact kept (y := y) old rfl rfl
    · obtain rfl : claims' = claims :=
        Option.some.inj ((jwtVerify_decodes admits.verifies).1.symm.trans decodes)
      obtain ⟨y, row, active, -⟩ := admits.user
      refine ⟨y, ?_, active⟩
      unfold Database.user
      rw [handle_users A w (c := .connect info) rfl]
      exact row

theorem suspended_offline (unfailing : Unfailing A) (run : AtomicRun A (Unforged A) h w)
    {u : String} (suspended : IsSuspended w u) : Offline A w u := by
  rintro x live claims decodes rfl
  obtain ⟨y, row, active⟩ := live_unsuspended unfailing run live decodes
  obtain ⟨z, row', inactive⟩ := suspended
  rw [row] at row'
  obtain rfl := Option.some.inj row'
  simp [active] at inactive

/-- Only an unsuspension ends a suspension. -/
theorem suspended_step (run : AtomicRun A allowed h w) (he : e ∈ h) {u : String}
    (suspended : IsSuspended e.before u) (none : ¬Unsuspends e u) : IsSuspended e.after u := by
  obtain ⟨x, row, inactive⟩ := suspended
  cases action : e.action with
  | env env =>
      have after := run.after_eq he
      rw [action] at after
      refine ⟨x, ?_, inactive⟩
      rw [after]
      cases env <;> exact row
  | call c =>
      have shape := step_shape run he action
      have change := handle_user (A := A) (w := e.before) c u
      rw [row, ← shape.2] at change
      unfold IsSuspended
      generalize e.after.db.user u = new at change
      cases change with
      | same => exact ⟨x, rfl, inactive⟩
      | kicked y kick => exact ⟨_, rfl, inactive⟩
      | suspended y cutoff key req hc kick written => exact ⟨_, rfl, rfl⟩
      | unsuspended y key hc done =>
          exact absurd ⟨key, hc ▸ action, by rw [shape.1, done]⟩ none

theorem suspended_continues (first : AtomicRun A allowed pre v)
    (run : AtomicRun A allowed (pre ++ post) w) {u : String} (suspended : IsSuspended v u)
    (none : ∀ e ∈ post, ¬Unsuspends e u) : IsSuspended w u := by
  revert none
  refine run.continuation (J := fun k w => (∀ e ∈ k, ¬Unsuspends e u) → IsSuspended w u) ?_ ?_
  · intro s reached _
    rwa [← first.unique reached]
  · intro k s a _ ih _ extended none
    exact suspended_step (e := (server A).atomic.entry s a) extended (by simp)
      (ih fun e he => none e (List.mem_append_left _ he)) (none _ (by simp))

theorem Suspends.cutoff (run : AtomicRun A allowed h w) (he : e ∈ h) {u : String}
    (suspends : Suspends e u) :
    ∃ n x, (u, n) ∈ Step.cutoffs A e ∧ e.before.db.user u = some x := by
  obtain ⟨key, req, action, response⟩ := suspends
  have shape := (step_shape run he action).1
  rw [response, handle, reply_run] at shape
  rcases suspend_cases (A := A) (w := e.before) key u req with ⟨has, -, run⟩ | ⟨err, n, run⟩
  · obtain ⟨x, row⟩ := Database.user_of_hasUser has
    refine ⟨e.before.statements + 1, x, ?_, row⟩
    simp only [Step.cutoffs, action]
    rw [suspend_cutoffs run]
    exact List.mem_singleton_self _
  · rw [run] at shape
    cases shape

/-- While `u` is suspended no token is issued to it and no token of it is accepted. -/
theorem suspended_refused (run : AtomicRun A allowed h w) (he : e ∈ h) {u : String}
    (suspended : IsSuspended e.before u) :
    (∀ token, ¬IssuesTo e u token) ∧ ∀ token claims, Accepts e token →
      A.lib.jwtDecode A.jwtKeys.secret token = some claims → claims.sub ≠ u := by
  obtain ⟨x, row, inactive⟩ := suspended
  constructor
  · intro token issuesTo
    obtain ⟨-, claims, issues, rfl⟩ := issuesTo.issues run he
    obtain ⟨req, -, verified, sub, -⟩ := issues.request
    obtain ⟨y, row', active⟩ := verified.user
    rw [sub, row] at row'
    obtain rfl := Option.some.inj row'
    simp [active] at inactive
  · rintro token claims accepts decodes rfl
    obtain ⟨info, claims', -, admits⟩ := accepts.admits run he
    obtain rfl : claims' = claims :=
      Option.some.inj ((jwtVerify_decodes admits.verifies).1.symm.trans decodes)
    obtain ⟨y, row', active, -⟩ := admits.user
    rw [row] at row'
    obtain rfl := Option.some.inj row'
    simp [active] at inactive

/-- After a suspension only tokens from its time on are accepted. -/
theorem accepted_after_suspension (unfailing : Unfailing A)
    (run : AtomicRun A (Unforged A) (pre ++ e :: post) w) {u : String} (suspends : Suspends e u)
    {c : Step} (hc : c ∈ post) {token : String} {claims : Claims} (accepts : Accepts c token)
    (decodes : A.lib.jwtDecode A.jwtKeys.secret token = some claims) (sub : claims.sub = u) :
    e.before.clock.secs ≤ claims.iat := by
  have mem : c ∈ pre ++ e :: post := List.mem_append_right _ (List.mem_cons_of_mem _ hc)
  obtain ⟨n, x, kick, known⟩ := suspends.cutoff run (List.mem_append_right _ List.mem_cons_self)
  obtain ⟨info, claims', action, admits⟩ := accepts.admits run mem
  obtain rfl : claims' = claims :=
    Option.some.inj ((jwtVerify_decodes admits.verifies).1.symm.trans decodes)
  have late := accepted_after_kick run kick (unfailing n) known hc admits sub
  -- the time in an issued token is below 2^63, so the cast keeps it
  obtain ⟨k₁, k₂, split⟩ := List.append_of_mem mem
  rw [split] at run
  obtain ⟨prior, ok, -⟩ := run.cut
  rw [action] at ok
  obtain ⟨s, -, -, issues⟩ := Unforged.issues prior ok admits.presented admits.verifies
  rw [issues.asI64_iat] at late
  rw [issues.iat]
  omega

/-- A suspended user is offline in every reachable state, gets no token and no
connection until it is unsuspended, and afterwards only with a token from the time of
its last suspension on. -/
theorem suspended_user_offline (unfailing : Unfailing A) (run : AtomicRun A (Unforged A) h w)
    (u : String) :
    (IsSuspended w u → Offline A w u) ∧
    (∀ pre post v, h = pre ++ post → AtomicRun A (Unforged A) pre v → IsSuspended v u →
      (∀ e ∈ post, ¬Unsuspends e u) → ∀ e ∈ post, (∀ token, ¬IssuesTo e u token) ∧
        ∀ token claims, Accepts e token →
          A.lib.jwtDecode A.jwtKeys.secret token = some claims → claims.sub ≠ u) ∧
    (∀ pre s post, h = pre ++ s :: post → Suspends s u → ∀ e ∈ post, ∀ token claims,
      Accepts e token → A.lib.jwtDecode A.jwtKeys.secret token = some claims →
        claims.sub = u → s.before.clock.secs ≤ claims.iat) := by
  refine ⟨suspended_offline unfailing run, ?_, ?_⟩
  · rintro pre post v rfl first suspended none e he
    obtain ⟨k₁, k₂, rfl⟩ := List.append_of_mem he
    have split : AtomicRun A (Unforged A) ((pre ++ k₁) ++ e :: k₂) w := by
      simpa [List.append_assoc] using run
    refine suspended_refused run (List.mem_append_right _ he) ?_
    exact suspended_continues first split.cut.1 suspended fun e he =>
      none e (List.mem_append_left _ he)
  · rintro pre s post rfl suspends e he token claims accepts decodes sub
    exact accepted_after_suspension unfailing run suspends he accepts decodes sub

section
open Deployment

/-- User 0 logs in, connects and is suspended. -/
def suspension : List Action := login ++ [suspend "0"]

/-- It tries to get another token, and to connect with the old one. -/
def retries : List Action :=
  [challenge "0", verify "0" "1" 0 3, connect "1" (token "0" "1" 100 [] [])]

/-- A second later it is unsuspended, logs in and connects. -/
def comeback : List Action :=
  [.env (.tick 1), .call (.unsuspendUser (some "admin") "0"), challenge "0", verify "0" "1" 0 4,
    connect "1" (token "0" "1" 101 [] [])]

/-- The last step of the comeback. -/
def reconnection : Step :=
  machine.entry (machine.final (stepAfter login (suspend "0")).after
    (retries ++ comeback.dropLast)) (connect "1" (token "0" "1" 101 [] []))

private theorem suspension_facts :
    Honest (suspension ++ retries ++ comeback) ∧
    (reached login).connections.map Connection.clientId = ["1"] ∧
    (reached suspension).db.user "0" = some ⟨"0", 100, true, none, 100⟩ ∧
    (stepAfter login (suspend "0")).response = some (.ok .noContent) ∧
    reconnection.response = some (.ok (.connected (some 1))) := by
  decide +kernel

private theorem reconnection_mem :
    reconnection ∈ machine.trace (stepAfter login (suspend "0")).after (retries ++ comeback) := by
  have split : retries ++ comeback = (retries ++ comeback.dropLast) ++
    [connect "1" (token "0" "1" 101 [] [])] := rfl
  rw [split, machine.trace_append, Machine.trace]
  exact List.mem_append_right _ List.mem_cons_self

/-- The connected user is offline once it is suspended, its retries fail, and it comes back
with a token from after the suspension. -/
theorem suspended_user_offline_login :
    ((reached login).connections.map Connection.clientId = ["1"] ∧
      IsSuspended (reached suspension) "0" ∧ Offline app (reached suspension) "0") ∧
    (∀ e ∈ machine.trace (reached suspension) retries, (∀ token, ¬IssuesTo e "0" token) ∧
      ∀ token claims, Accepts e token →
        app.lib.jwtDecode app.jwtKeys.secret token = some claims → claims.sub ≠ "0") ∧
    Accepts reconnection (token "0" "1" 101 [] []) ∧
    ∀ claims, app.lib.jwtDecode app.jwtKeys.secret (token "0" "1" 101 [] []) = some claims →
      claims.sub = "0" → (reached login).clock.secs ≤ claims.iat := by
  obtain ⟨honest, online, row, suspends, admitted⟩ := suspension_facts
  have whole : suspension ++ retries ++ comeback =
      login ++ suspend "0" :: (retries ++ comeback) := by
    rw [List.append_cons, List.append_assoc]
    rfl
  have returned : Honest (login ++ suspend "0" :: (retries ++ comeback)) := whole ▸ honest
  have first := run_history honest.left.left
  have suspended : IsSuspended (reached suspension) "0" := ⟨_, row, rfl⟩
  have action : reconnection.action = connect "1" (token "0" "1" 101 [] []) :=
    machine.entry_action _ _
  have accepts : Accepts reconnection (token "0" "1" 101 [] []) := ⟨_, 1, action, rfl, admitted⟩
  refine ⟨⟨online, suspended,
    (suspended_user_offline unfailing first "0").1 suspended⟩, ?_, accepts, ?_⟩
  · refine (suspended_user_offline unfailing (run_history honest.left) "0").2.1 (history suspension)
      _ (reached suspension) (machine.trace_append _ _ _) first suspended ?_
    rintro e he ⟨key, action, -⟩
    have mem := action ▸ machine.action_mem he
    simp [retries, challenge, verify, connect] at mem
  · intro claims decodes sub
    have done : Suspends (stepAfter login (suspend "0")) "0" :=
      ⟨some "admin", ⟨none⟩, machine.entry_action _ _, suspends⟩
    have late := (suspended_user_offline unfailing (run_history returned) "0").2.2 (history login)
      (stepAfter login (suspend "0")) _ (history_split login (suspend "0") (retries ++ comeback))
      done reconnection reconnection_mem _ _ accepts decodes sub
    rwa [stepAfter_before] at late

end

end Smqtt
