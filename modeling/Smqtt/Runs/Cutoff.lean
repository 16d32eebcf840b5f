import Smqtt.Runs.Provenance

/-!
The cutoff of a user along a run. It only grows, a kick moves it to the time of
the kick, without a kick it stays, and `authenticate` compares with it the time
at which a token was issued.
-/

namespace Smqtt

open AtomicSteps

variable {A : AppState} {h k pre post : Log} {w v : World} {e : Step}
  {allowed : Assumption World Action (Option (Except Error Reply))}

/-- The users a step kicks, each with the number of the statement that writes the cutoff. -/
def Step.cutoffs (A : AppState) (e : Step) : List (String × Nat) :=
  match e.action with
  | .call c => c.cutoffs A e.before
  | .env _ => []

/-- The step runs `kick_user(u)`. -/
def Kicks (A : AppState) (e : Step) (u : String) : Prop := u ∈ (Step.cutoffs A e).map Prod.fst

/-- The step is a CONNECT with this token that the broker admits. -/
def Accepts (e : Step) (token : String) : Prop :=
  ∃ info n, e.action = .call (.connect info) ∧ info.password = some (.text token) ∧
    e.response = some (.ok (.connected (some n)))

/-- The step is a `verify` that issues this token to the user. -/
def IssuesTo (e : Step) (u token : String) : Prop :=
  ∃ req, e.action = .call (.verify req) ∧ req.userId = u ∧
    e.response = some (.ok (.token token))

theorem IssuesTo.issues (run : AtomicRun A allowed h w) (he : e ∈ h) {u token : String}
    (i : IssuesTo e u token) :
    Step.issued e = some token ∧ ∃ claims, Issues A e token claims ∧ claims.sub = u := by
  obtain ⟨req, action, rfl, response⟩ := i
  have issued : Step.issued e = some token := by simp only [Step.issued, action, response]
  obtain ⟨claims, issues⟩ := issued_issues run he issued
  obtain ⟨req', action', -, sub, -⟩ := issues.request
  rw [action] at action'
  cases action'
  exact ⟨issued, claims, issues, sub.symm⟩

theorem Accepts.admits (run : AtomicRun A allowed h w) (he : e ∈ h) {token : String}
    (accepts : Accepts e token) :
    ∃ info claims, e.action = .call (.connect info) ∧
      Broker.Admits A e.before info token claims := by
  obtain ⟨info, n, action, password, response⟩ := accepts
  rw [(step_shape run he action).1, handle_connect] at response
  rcases Broker.connect_cases (A := A) (w := e.before) info with
    ⟨token', claims, admits, -⟩ | ⟨-, v, -, run⟩
  · obtain rfl : token' = token := by simpa [password] using admits.password.symm
    exact ⟨info, claims, action, admits⟩
  · rw [run] at response
    cases response

/-- The row of a user after one step, and whether the step moved its cutoff. -/
theorem cutoff_step (run : AtomicRun A allowed h w) (he : e ∈ h) {u : String} {x : User}
    (row : e.before.db.user u = some x) : ∃ y, e.after.db.user u = some y ∧
      x.tokensValidFrom ≤ y.tokensValidFrom ∧
      (¬Kicks A e u → y.tokensValidFrom = x.tokensValidFrom) := by
  cases action : e.action with
  | env env =>
      have after := run.after_eq he
      rw [action] at after
      refine ⟨x, ?_, Int.le_refl _, fun _ => rfl⟩
      rw [after]
      cases env <;> exact row
  | call c =>
      have bound : x.tokensValidFrom ≤ e.before.clock.secs := by
        obtain ⟨h₁, h₂, rfl⟩ := List.append_of_mem he
        exact run_cutoff run.cut.1 row
      have kicks (kick : u ∈ c.kicked A e.before) : Kicks A e u := by
        simpa only [Kicks, Step.cutoffs, action, Call.kicked] using kick
      have change := handle_user (A := A) (w := e.before) c u
      rw [row, ← (step_shape run he action).2] at change
      generalize hnew : e.after.db.user u = new at change
      cases change with
      | same => exact ⟨x, rfl, Int.le_refl _, fun _ => rfl⟩
      | kicked y kick => exact ⟨_, rfl, bound, fun no => absurd (kicks kick) no⟩
      | suspended y cutoff key req hc kick written =>
          refine ⟨_, rfl, ?_, fun no => absurd (kicks kick) no⟩
          rcases written with rfl | rfl
          · exact bound
          · exact Int.le_refl _
      | unsuspended y key hc done => exact ⟨_, rfl, Int.le_refl _, fun _ => rfl⟩

/-- A user keeps its row, the cutoff never decreases and only kicks move it. -/
theorem cutoff_continues (first : AtomicRun A allowed h v)
    (run : AtomicRun A allowed (h ++ k) w) {u : String} {x : User}
    (row : v.db.user u = some x) : ∃ y, w.db.user u = some y ∧
      x.tokensValidFrom ≤ y.tokensValidFrom ∧
      ((∀ e ∈ k, ¬Kicks A e u) → y.tokensValidFrom = x.tokensValidFrom) := by
  refine run.continuation (J := fun k w => ∃ y, w.db.user u = some y ∧
    x.tokensValidFrom ≤ y.tokensValidFrom ∧
    ((∀ e ∈ k, ¬Kicks A e u) → y.tokensValidFrom = x.tokensValidFrom)) ?_ ?_
  · intro s reached
    rw [← first.unique reached]
    exact ⟨x, row, Int.le_refl _, fun _ => rfl⟩
  · rintro k s a - ⟨y, hy, grown, kept⟩ - extended
    obtain ⟨z, hz, grown', kept'⟩ := cutoff_step (e := (server A).atomic.entry s a) extended
      (by simp) hy
    refine ⟨z, hz, grown.trans grown', fun none => ?_⟩
    rw [kept' (none _ (by simp)), kept fun e he => none e (List.mem_append_left _ he)]

/-- A kick whose first statement is executed moves the cutoff to its time. -/
theorem cutoff_of_kick (run : AtomicRun A allowed h w) (he : e ∈ h) {u : String} {n : Nat}
    (kick : (u, n) ∈ Step.cutoffs A e) (ok : A.outside.fails n = false) {x : User}
    (row : e.after.db.user u = some x) : x.tokensValidFrom = e.before.clock.secs := by
  cases action : e.action with
  | env env => simp [Step.cutoffs, action] at kick
  | call c =>
      rw [(step_shape run he action).2] at row
      exact handle_cutoff (by simpa only [Step.cutoffs, action] using kick) ok row

/-- A kick whose second statement is executed closes every connection of the user's devices. -/
theorem closed_by_kick (run : AtomicRun A allowed h w) (he : e ∈ h) {u : String} {n : Nat}
    (kick : (u, n) ∈ Step.cutoffs A e) (ok : A.outside.fails (n + 1) = false) {x : Connection}
    (hx : x ∈ e.after.connections) {d : Device} (hd : d ∈ e.before.db.devices)
    (owner : d.userId = u) : d.deviceId ≠ x.clientId := by
  cases action : e.action with
  | env env => simp [Step.cutoffs, action] at kick
  | call c =>
      rw [(step_shape run he action).2] at hx
      exact (handle_kick (by simpa only [Step.cutoffs, action] using kick) hx).2 ok d hd owner

/-- After a kick with a cutoff every admitted token of the user carries its time or a later one. -/
theorem accepted_after_kick (run : AtomicRun A allowed (pre ++ e :: post) w) {u : String}
    {n : Nat} (kick : (u, n) ∈ Step.cutoffs A e) (ok : A.outside.fails n = false) {x : User}
    (known : e.before.db.user u = some x) {c : Step} (hc : c ∈ post) {info : ConnectInfo}
    {token : String} {claims : Claims} (admits : Broker.Admits A c.before info token claims)
    (sub : claims.sub = u) : (e.before.clock.secs : Int) ≤ asI64 claims.iat := by
  obtain ⟨y, row, -, valid⟩ := admits.user
  obtain ⟨k₁, k₂, rfl⟩ := List.append_of_mem hc
  have kicked := run.cut.2.2.2
  have reached : AtomicRun A allowed ((pre ++ [e]) ++ k₁) c.before := by
    have all : AtomicRun A allowed ((pre ++ e :: k₁) ++ c :: k₂) w := by
      simpa [List.append_assoc] using run
    simpa [List.append_assoc] using all.cut.1
  have he : e ∈ pre ++ [e] := List.mem_append_right _ (List.mem_singleton_self e)
  obtain ⟨x', hx', -, -⟩ := cutoff_step kicked he known
  obtain ⟨z, hz, grown, -⟩ := cutoff_continues kicked reached hx'
  rw [sub, hz] at row
  obtain rfl := Option.some.inj row
  rw [cutoff_of_kick kicked he kick ok hx'] at grown
  exact grown.trans valid

end Smqtt
