import Smqtt.Metatheory.SuspendedOffline

/-!
The two places that accept tokens. The broker's hook looks at the row of the user,
the extractor of the REST API only at the token itself, so a dead token that has not
expired is refused by the one and accepted by the other.
-/

namespace Smqtt

open AtomicSteps

variable {A : AppState} {h : Log} {w : World}

/-- The broker denies the token for its own device because its user is suspended or
because it is below the cutoff. -/
def Dead (A : AppState) (w : World) (token : String) : Prop :=
  ∃ claims x, JwtKeys.verify A w.clock token = .ok claims ∧ w.db.user claims.sub = some x ∧
    (x.suspended = true ∨ asI64 claims.iat < x.tokensValidFrom)

/-- The extractor rejects every request that carries the token. -/
def Rejected (A : AppState) (w : World) (token : String) : Prop :=
  ∀ authorization, bearerToken authorization = some token →
    (AuthUser.fromRequestParts authorization).run (exec A) w = (.error .unauthorized, w)

/-- What the broker treats as dead the REST API rejects. -/
def Agrees (A : AppState) (w : World) (token : String) : Prop :=
  Dead A w token → Rejected A w token

/-- The token is expired, or its user has no row or one that does not forbid it. -/
def Harmless (A : AppState) (w : World) (token : String) : Prop :=
  ∀ claims x, A.lib.jwtDecode A.jwtKeys.secret token = some claims →
    w.db.user claims.sub = some x → claims.exp + jwtLeeway < w.clock.secs ∨
      x.suspended = false ∧ x.tokensValidFrom ≤ asI64 claims.iat

/-- `Dead` is what `authenticate` computes, called with the client id of the token. -/
theorem Dead.denied {token : String} {claims : Claims}
    (verifies : JwtKeys.verify A w.clock token = .ok claims) (dead : Dead A w token) :
    ((AuthHook.authenticate ⟨claims.dev, some (.text token)⟩).run (exec A) w).1 = .ok deny := by
  obtain ⟨claims', x, verifies', row, reason⟩ := dead
  obtain rfl : claims = claims' := Except.ok.inj (verifies.symm.trans verifies')
  rw [Broker.authenticate_text rfl, verifies]
  simp only [ne_eq, not_true_eq_false, if_false]
  rw [Db.getUser_run, row]
  cases A.outside.fails w.statements with
  | true => rfl
  | false =>
      simp only [Bool.false_eq_true, if_false]
      rcases reason with suspended | below
      · rw [if_pos suspended]
      · rw [if_pos below, ite_self]

/-- The extractor looks at nothing but signature and expiry. -/
theorem rejected_iff (token : String) :
    Rejected A w token ↔ (JwtKeys.verify A w.clock token).toOption = none := by
  constructor
  · intro rejected
    have run := rejected _ (bearerToken_bearer token)
    rw [fromRequestParts_run] at run
    simp only [authUser, bearerToken_bearer] at run
    cases hv : JwtKeys.verify A w.clock token with
    | error e => rfl
    | ok claims => rw [hv] at run; cases run
  · intro invalid authorization presented
    rw [fromRequestParts_run]
    simp only [authUser, presented]
    cases hv : JwtKeys.verify A w.clock token with
    | error e => rfl
    | ok claims => rw [hv] at invalid; cases invalid

theorem dead_iff (token : String) : Dead A w token ↔ ¬Harmless A w token := by
  constructor
  · rintro ⟨claims, x, verifies, row, reason⟩ harmless
    obtain ⟨decodes, fresh⟩ := jwtVerify_decodes verifies
    rcases harmless claims x decodes row with expired | ⟨active, valid⟩
    · omega
    · rcases reason with suspended | below
      · simp [active] at suspended
      · omega
  · intro harmful
    simp only [Harmless, not_forall, not_or, not_and, Int.not_le] at harmful
    obtain ⟨claims, x, decodes, row, fresh, reason⟩ := harmful
    refine ⟨claims, x, jwtVerify_ok decodes (Nat.le_of_not_lt fresh), row, ?_⟩
    cases hs : x.suspended with
    | true => exact Or.inl rfl
    | false => exact Or.inr (reason hs)

/-- The two agree on a token exactly when the broker has nothing against it. -/
theorem agrees_iff_harmless (A : AppState) (w : World) (token : String) :
    Agrees A w token ↔ Harmless A w token := by
  constructor
  · intro agrees
    by_contra harmful
    have dead := (dead_iff token).mpr harmful
    obtain ⟨claims, x, verifies, -⟩ := id dead
    have invalid := (rejected_iff token).mp (agrees dead)
    rw [verifies] at invalid
    cases invalid
  · intro harmless dead
    exact absurd harmless ((dead_iff token).mp dead)

/-- After a suspension no relationship is created under a token issued before it. -/
def NoneCreated (h : Log) : Prop :=
  ∀ pre s post u, h = pre ++ s :: post → Suspends s u →
    ∀ v ∈ pre, ∀ token, IssuesTo v u token → ∀ e ∈ post, ∀ authorization req,
      e.action = .call (.createRelationship authorization req) →
        bearerToken authorization = some token →
          ∀ response, e.response ≠ some (.ok (.relationship response))

section
open Deployment

/-- The suspended user creates a relationship with the token it had before. -/
def relateAnyway : Action := relate (token "0" "1" 100 [] []) "9" [] []

def suspendedRelates : List Action := login ++ suspend "0" :: [relateAnyway]

/-- The step in which it does. -/
def relatedAnyway : Step := machine.entry (stepAfter login (suspend "0")).after relateAnyway

private theorem suspendedRelates_split : history suspendedRelates =
    history login ++ stepAfter login (suspend "0") :: [relatedAnyway] :=
  history_split login (suspend "0") [relateAnyway]

private theorem suspendedRelates_facts :
    Honest suspendedRelates ∧
    (stepAfter [register 0, challenge "0"] (verify "0" "1" 0 2)).response =
      some (.ok (.token (token "0" "1" 100 [] []))) ∧
    app.lib.jwtDecode app.jwtKeys.secret (token "0" "1" 100 [] []) =
      some ⟨"0", "1", 105, 100, [], [app.notifyTopic "0"], app.notifyTopic "0"⟩ ∧
    (reached suspendedRelates).db.user "0" = some ⟨"0", 100, true, none, 100⟩ ∧
    (¬105 + jwtLeeway < (reached suspendedRelates).clock.secs) ∧
    (stepAfter login (suspend "0")).response = some (.ok .noContent) ∧
    relatedAnyway.response = some (.ok (.relationship ⟨"3", "0", "9", [], [], 100⟩)) := by
  decide +kernel

private theorem login_issues : ∃ v ∈ history login, IssuesTo v "0" (token "0" "1" 100 [] []) := by
  refine ⟨stepAfter [register 0, challenge "0"] (verify "0" "1" 0 2), ?_,
    ⟨_, rfl, rfl, suspendedRelates_facts.2.1⟩⟩
  have split := history_split [register 0, challenge "0"] (verify "0" "1" 0 2)
    [connect "1" (token "0" "1" 100 [] [])]
  exact split ▸ List.mem_append_right _ List.mem_cons_self

/-- The suspended user of a live token is refused by the broker and served by the API. -/
theorem not_agreed :
    (¬∀ h w, AtomicRun app (Unforged app) h w → ∀ token, Agrees app w token) ∧
    ¬∀ h w, AtomicRun app (Unforged app) h w → NoneCreated h := by
  obtain ⟨honest, -, decodes, row, fresh, suspended, created⟩ := suspendedRelates_facts
  constructor
  · intro agrees
    have harmless := (agrees_iff_harmless _ _ _).mp
      (agrees _ _ (run_history honest) (token "0" "1" 100 [] []))
    rcases harmless _ _ decodes row with expired | ⟨active, -⟩
    · exact fresh expired
    · cases active
  · intro noneCreated
    obtain ⟨v, hv, issuesTo⟩ := login_issues
    exact noneCreated _ _ (run_history honest) _ _ _ "0" suspendedRelates_split
      ⟨_, _, rfl, suspended⟩ v hv _ issuesTo relatedAnyway (List.mem_singleton_self _) _ _ rfl
      (bearerToken_bearer _) _ created

end

end Smqtt
