import Smqtt.Runs.Cutoff
import Smqtt.Runs.Deployment

/-!
What a kick does to the tokens issued before it. The cutoff and the time in a token
are whole seconds and a token issued at the cutoff passes, so a kick cuts off the
tokens of earlier seconds and spares those of its own.
-/

namespace Smqtt

open AtomicSteps

variable {A : AppState} {h pre post : Log} {w : World} {v k : Step}
  {allowed : Assumption World Action (Option (Except Error Reply))}

/-- After a kick of `u`, no token that a step `v` issued to it before is accepted
again, as far as `holds` is true of `v` and the kick. -/
def CutOffWhen (A : AppState) (holds : Step → Step → Prop) (h : Log) (u : String) : Prop :=
  ∀ pre k post, h = pre ++ k :: post → Kicks A k u →
    ∀ v ∈ pre, ∀ token, IssuesTo v u token → holds v k → ∀ c ∈ post, ¬Accepts c token

/-- No token issued to `u` since its last kick lies below the cutoff. -/
def Spared (A : AppState) (h : Log) (w : World) (u : String) : Prop :=
  ∀ pre v post token claims, h = pre ++ v :: post → IssuesTo v u token →
    A.lib.jwtDecode A.jwtKeys.secret token = some claims → (∀ k ∈ post, ¬Kicks A k u) →
      ∀ x, w.db.user u = some x → ¬asI64 claims.iat < x.tokensValidFrom

/-- The token was issued in an earlier second than the kick, whose cutoff was written. -/
def Outdated (A : AppState) (u : String) (v k : Step) : Prop :=
  v.before.clock.secs < k.before.clock.secs ∧
    ∃ n, (u, n) ∈ Step.cutoffs A k ∧ A.outside.fails n = false

/-- The user of an issued token has a row from then on. -/
theorem Issues.known (run : AtomicRun A allowed h w) (hv : v ∈ h) {token : String}
    {claims : Claims} (i : Issues A v token claims) : ∃ x, w.db.user claims.sub = some x := by
  obtain ⟨req, -, verified, sub, -⟩ := i.request
  obtain ⟨x, row, -⟩ := verified.user
  obtain ⟨h₁, h₂, rfl⟩ := List.append_of_mem hv
  obtain ⟨y, hy, -⟩ := cutoff_continues run.cut.1 run row
  exact ⟨y, sub ▸ hy⟩

theorem outdated_cut_off (run : AtomicRun A allowed h w) (u : String) :
    CutOffWhen A (Outdated A u) h u := by
  rintro pre k post rfl - v hv token issuesTo ⟨earlier, n, kick, ok⟩ c hc accepts
  have before := run.cut.1
  obtain ⟨-, claims, issues, rfl⟩ := issuesTo.issues before hv
  obtain ⟨x, known⟩ := issues.known before hv
  obtain ⟨info, claims', action, admits⟩ := accepts.admits run
    (List.mem_append_right _ (List.mem_cons_of_mem _ hc))
  obtain rfl : claims = claims' :=
    Option.some.inj (issues.decodes.symm.trans (jwtVerify_decodes admits.verifies).1)
  have late := accepted_after_kick run kick ok known hc admits rfl
  rw [issues.asI64_iat] at late
  omega

theorem later_spared (run : AtomicRun A allowed h w) (u : String) : Spared A h w u := by
  rintro pre v post token claims rfl issuesTo decodes unkicked x row
  have shape := run.cut
  obtain ⟨-, claims', issues, rfl⟩ := issuesTo.issues shape.2.2.2
    (List.mem_append_right _ (List.mem_singleton_self v))
  obtain rfl := Option.some.inj (decodes.symm.trans issues.decodes)
  have whole : AtomicRun A allowed ((pre ++ [v]) ++ post) w := by
    simpa [List.append_assoc] using run
  obtain ⟨req, -, verified, sub, -⟩ := issues.request
  obtain ⟨y, hy, -⟩ := verified.user
  rw [sub] at hy
  have bound := run_cutoff shape.1 hy
  have quiet : ¬Kicks A v claims.sub := by
    obtain ⟨req', action, -, -⟩ := issuesTo
    simp [Kicks, Step.cutoffs, action, Call.cutoffs]
  obtain ⟨z, hz, -, same⟩ := cutoff_step shape.2.2.2
    (List.mem_append_right _ (List.mem_singleton_self v)) hy
  obtain ⟨z', hz', -, same'⟩ := cutoff_continues shape.2.2.2 whole hz
  rw [hz'] at row
  obtain rfl := Option.some.inj row
  rw [issues.asI64_iat, same' unkicked, same quiet]
  omega

/-- A kick cuts off the tokens of earlier seconds, and no token issued after the
last kick is ever below the cutoff. -/
theorem token_cutoff (run : AtomicRun A allowed h w) (u : String) :
    CutOffWhen A (Outdated A u) h u ∧ Spared A h w u :=
  ⟨outdated_cut_off run u, later_spared run u⟩

section
open Deployment

/-- User 0 creates a relationship; `seconds` after its token was issued it will revoke it. -/
def related (seconds : Nat) : List Action :=
  [register 0, challenge "0"] ++ verify "0" "1" 0 2 ::
    [relate (token "0" "1" 100 [] []) "9" [] [], .env (.tick seconds)]

def revokeIt : Action := revoke (token "0" "1" 100 [] []) "3"

def reconnect : Action := connect "1" (token "0" "1" 100 [] [])

/-- The step in which the device connects after the kick. -/
def reconnected (seconds : Nat) : Step :=
  machine.entry (stepAfter (related seconds) revokeIt).after reconnect

private theorem related_split (seconds : Nat) :
    history (related seconds ++ revokeIt :: [reconnect]) =
      history (related seconds) ++ stepAfter (related seconds) revokeIt ::
        [reconnected seconds] :=
  history_split _ _ _

private theorem related_facts :
    (∀ seconds ∈ [0, 1], Honest (related seconds ++ revokeIt :: [reconnect]) ∧
      ("0", 9) ∈ Step.cutoffs app (stepAfter (related seconds) revokeIt)) ∧
    (stepAfter [register 0, challenge "0"] (verify "0" "1" 0 2)).before.clock.secs = 100 ∧
    (stepAfter [register 0, challenge "0"] (verify "0" "1" 0 2)).response =
      some (.ok (.token (token "0" "1" 100 [] []))) ∧
    100 < (stepAfter (related 1) revokeIt).before.clock.secs ∧
    (reconnected 0).response = some (.ok (.connected (some 0))) := by
  decide +kernel

private theorem related_issues (seconds : Nat) :
    ∃ v ∈ history (related seconds), IssuesTo v "0" (token "0" "1" 100 [] []) ∧
      v.before.clock.secs = 100 := by
  refine ⟨stepAfter [register 0, challenge "0"] (verify "0" "1" 0 2), ?_,
    ⟨_, rfl, rfl, related_facts.2.2.1⟩, related_facts.2.1⟩
  rw [related, history_split]
  exact List.mem_append_right _ List.mem_cons_self

/-- A token issued in the second of the kick still connects. -/
theorem not_cut_off : ¬∀ h w, AtomicRun app (Unforged app) h w → ∀ u,
    CutOffWhen app (fun _ _ => True) h u ∧ Spared app h w u := by
  intro cutOff
  obtain ⟨v, hv, issuesTo, -⟩ := related_issues 0
  obtain ⟨honest, kick⟩ := related_facts.1 0 (by simp)
  exact (cutOff _ _ (run_history honest) "0").1 _ _ _ (related_split 0)
    (List.mem_map.mpr ⟨_, kick, rfl⟩) v hv _ issuesTo trivial _ (List.mem_singleton_self _)
    ⟨_, 0, rfl, rfl, related_facts.2.2.2.2⟩

theorem token_cutoff_reconnect : ¬Accepts (reconnected 1) (token "0" "1" 100 [] []) := by
  obtain ⟨v, hv, issuesTo, time⟩ := related_issues 1
  obtain ⟨honest, kick⟩ := related_facts.1 1 (by simp)
  have later := time.trans_lt related_facts.2.2.2.1
  exact (token_cutoff (run_history honest) "0").1 _ _ _ (related_split 1)
    (List.mem_map.mpr ⟨_, kick, rfl⟩) v hv _ issuesTo ⟨later, 9, kick, rfl⟩ _
    (List.mem_singleton_self _)

end

end Smqtt
