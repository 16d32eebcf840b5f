import Smqtt.Runs.Cutoff
import Smqtt.Runs.Deployment

/-!
How long a token opens doors. Whoever checks the token itself accepts it until its
expiry and the leeway of the validation; claims that a connection has brought into
the sessions map are not checked again and serve it for as long as it lasts.
-/

namespace Smqtt

open AtomicSteps

variable {A : AppState} {h : Log} {w : World} {e : Step} {token : String} {claims : Claims}
  {allowed : Assumption World Action (Option (Except Error Reply))}

/-- `AuthUser` accepts the token in this step. -/
def Authorizes (A : AppState) (e : Step) (token : String) : Prop :=
  ∃ c authorization, e.action = .call c ∧ c.authorization = some authorization ∧
    bearerToken authorization = some token ∧
    (authUser A e.before.clock authorization).isSome = true

/-- The step grants a subscription because the entry of the client id holds these claims. -/
def GrantsOn (e : Step) (clientId : String) (claims : Claims) : Prop :=
  ∃ session sub, e.action = .call (.subscribe session sub) ∧ session.clientId = clientId ∧
    e.response = some (.ok (.subscribed true)) ∧ e.before.sessions clientId = some claims

/-- `authenticate` brings these claims into the entry of a client id. -/
def Enters (A : AppState) (e : Step) (clientId : String) (claims : Claims) : Prop :=
  ∃ info token, e.action = .call (.connect info) ∧ info.clientId = clientId ∧
    Broker.Admits A e.before info token claims

/-- No step accepts the token after this time. -/
structure AcceptedUntil (A : AppState) (h : Log) (token : String) (last : Nat) : Prop where
  extractor : ∀ e ∈ h, Authorizes A e token → e.before.clock.secs ≤ last
  broker : ∀ e ∈ h, Accepts e token → e.before.clock.secs ≤ last

/-- No step grants a subscription on the claims after this time. -/
def GrantedUntil (h : Log) (claims : Claims) (last : Nat) : Prop :=
  ∀ e ∈ h, ∀ clientId, GrantsOn e clientId claims → e.before.clock.secs ≤ last

/-- A subscription is granted on the claims only where `authenticate` has brought them
in by this time. -/
def EnteredUntil (A : AppState) (h : Log) (claims : Claims) (last : Nat) : Prop :=
  ∀ pre e post, h = pre ++ e :: post → ∀ clientId, GrantsOn e clientId claims →
    ∃ e' ∈ pre, Enters A e' clientId claims ∧ e'.before.clock.secs ≤ last

/-- Without overflow a token expires `ttl_seconds` after its issue. -/
theorem Issues.exp {s : Step} (i : Issues A s token claims)
    (fits : s.before.clock.secs + A.config.jwtTtlSeconds.toNat < 2 ^ 64) :
    claims.exp = s.before.clock.secs + A.config.jwtTtlSeconds.toNat := by
  rw [i.claims]
  exact addU64_of_lt fits

theorem verifies_until {now : Clock} {claims' : Claims}
    (decodes : A.lib.jwtDecode A.jwtKeys.secret token = some claims)
    (verifies : JwtKeys.verify A now token = .ok claims') :
    now.secs ≤ claims.exp + jwtLeeway := by
  obtain ⟨decodes', fresh⟩ := jwtVerify_decodes verifies
  rwa [Option.some.inj (decodes.symm.trans decodes')]

theorem authorizes_until (decodes : A.lib.jwtDecode A.jwtKeys.secret token = some claims)
    (accepted : Authorizes A e token) : e.before.clock.secs ≤ claims.exp + jwtLeeway := by
  obtain ⟨c, authorization, -, -, presented, some⟩ := accepted
  obtain ⟨u, auth⟩ := Option.isSome_iff_exists.mp some
  obtain ⟨token', claims', presented', verifies, -⟩ := authUser_some auth
  obtain rfl := Option.some.inj (presented.symm.trans presented')
  exact verifies_until decodes verifies

/-- Every entry of the sessions map was brought in by an earlier CONNECT. -/
theorem session_entered (run : AtomicRun A allowed h w) {clientId : String}
    (entry : w.sessions clientId = some claims) : ∃ e ∈ h, Enters A e clientId claims := by
  revert clientId claims
  refine run_induction (I := fun h w => ∀ {claims : Claims} {clientId : String},
    w.sessions clientId = some claims → ∃ e ∈ h, Enters A e clientId claims) run ?_ ?_ ?_
  · intro claims clientId entry
    cases entry
  · intro h w x _ ih _ claims clientId entry
    have old : w.sessions clientId = some claims := by cases x <;> exact entry
    obtain ⟨e, he, enters⟩ := ih old
    exact ⟨e, List.mem_append_left _ he, enters⟩
  · intro h w call _ ih _ claims clientId entry
    have kept (old : w.sessions clientId = some claims) :
        ∃ e ∈ h ++ [(server A).atomic.entry w (.call call)], Enters A e clientId claims := by
      obtain ⟨e, he, enters⟩ := ih old
      exact ⟨e, List.mem_append_left _ he, enters⟩
    rcases handle_session (A := A) (w := w) call with
      same | ⟨info, token, granted, rfl, admits, update⟩ | ⟨session, rfl, update⟩
    · rw [same] at entry
      exact kept entry
    · rw [update] at entry
      by_cases id : clientId = info.clientId
      · subst id
        rw [Function.update_self] at entry
        obtain rfl := Option.some.inj entry
        exact ⟨_, List.mem_append_right _ (List.mem_singleton_self _), info, token, rfl, rfl,
          admits⟩
      · rw [Function.update_of_ne id] at entry
        exact kept entry
    · rw [update] at entry
      by_cases id : clientId = session.clientId
      · subst id
        rw [Function.update_self] at entry
        cases entry
      · rw [Function.update_of_ne id] at entry
        exact kept entry

/-- An issued token is accepted until `ttl_seconds` and the leeway after its issue,
and its claims serve only connections that were authenticated by then. -/
theorem token_lifetime (run : AtomicRun A allowed h w) {s : Step} (hs : s ∈ h)
    (issued : Step.issued s = some token)
    (fits : s.before.clock.secs + A.config.jwtTtlSeconds.toNat < 2 ^ 64) :
    ∃ claims, Issues A s token claims ∧
      AcceptedUntil A h token
        (s.before.clock.secs + A.config.jwtTtlSeconds.toNat + jwtLeeway) ∧
      EnteredUntil A h claims
        (s.before.clock.secs + A.config.jwtTtlSeconds.toNat + jwtLeeway) := by
  obtain ⟨claims, issues⟩ := issued_issues run hs issued
  rw [← issues.exp fits]
  refine ⟨claims, issues, ⟨?_, ?_⟩, ?_⟩
  · exact fun e _ accepted => authorizes_until issues.decodes accepted
  · intro e he accepts
    obtain ⟨info, claims', -, admits⟩ := accepts.admits run he
    exact verifies_until issues.decodes admits.verifies
  · rintro pre e post rfl clientId ⟨session, sub, -, -, -, entry⟩
    obtain ⟨e', he', enters⟩ := session_entered run.cut.1 entry
    obtain ⟨info, token', -, -, admits⟩ := id enters
    exact ⟨e', he', enters, (jwtVerify_decodes admits.verifies).2⟩

section
open Deployment

/-- A token issued for five seconds at second 100. -/
def shortLived : String := Deployment.token "0" "1" 100 [] []

/-- The user has registered and asked for a challenge. -/
def challenged : List Action := [register 0, challenge "0"]

def issueStep : Step := stepAfter challenged (verify "0" "1" 0 2)

/-- Thirty seconds after the issue. -/
def late : List Action := challenged ++ [verify "0" "1" 0 2, .env (.tick 30)]

def lateConnect : Step := stepAfter late (connect "1" shortLived)

/-- A thousand seconds after that. -/
def later : List Action := late ++ [connect "1" shortLived, .env (.tick 1000)]

def laterSubscribe : Step := stepAfter later (subscribe 0 "1" (app.notifyTopic "0"))

/-- The broker still admits the token late, and grants on its claims later. -/
def overstay : List Action := later ++ [subscribe 0 "1" (app.notifyTopic "0")]

private theorem overstay_facts :
    Honest overstay ∧
    Step.issued issueStep = some shortLived ∧
    issueStep.before.clock.secs + app.config.jwtTtlSeconds.toNat = 105 ∧
    app.lib.jwtDecode app.jwtKeys.secret shortLived =
      some ⟨"0", "1", 105, 100, [], [app.notifyTopic "0"], app.notifyTopic "0"⟩ ∧
    lateConnect.response = some (.ok (.connected (some 0))) ∧
    lateConnect.before.clock.secs = 130 ∧
    laterSubscribe.response = some (.ok (.subscribed true)) ∧
    laterSubscribe.before.clock.secs = 1130 ∧
    laterSubscribe.before.sessions "1" =
      some ⟨"0", "1", 105, 100, [], [app.notifyTopic "0"], app.notifyTopic "0"⟩ := by
  decide +kernel

private theorem issueStep_mem : issueStep ∈ history overstay := by
  have split := history_split challenged (verify "0" "1" 0 2) (.env (.tick 30) ::
    connect "1" shortLived :: .env (.tick 1000) :: [subscribe 0 "1" (app.notifyTopic "0")])
  exact split ▸ List.mem_append_right _ List.mem_cons_self

private theorem lateConnect_mem : lateConnect ∈ history overstay := by
  have split := history_split late (connect "1" shortLived)
    [.env (.tick 1000), subscribe 0 "1" (app.notifyTopic "0")]
  exact split ▸ List.mem_append_right _ List.mem_cons_self

private theorem laterSubscribe_mem : laterSubscribe ∈ history overstay := by
  have split := history_split later (subscribe 0 "1" (app.notifyTopic "0")) []
  exact split ▸ List.mem_append_right _ List.mem_cons_self

theorem token_lifetime_overstay : ∃ claims, Issues app issueStep shortLived claims ∧
    AcceptedUntil app (history overstay) shortLived 165 ∧
    EnteredUntil app (history overstay) claims 165 := by
  obtain ⟨honest, issued, last, -⟩ := overstay_facts
  have bounded := token_lifetime (run_history honest) issueStep_mem issued (by rw [last]; decide)
  rwa [last] at bounded

/-- Neither the token nor its claims stop at the expiry. -/
theorem not_token_lifetime :
    (¬∀ h w, AtomicRun app (Unforged app) h w → ∀ s ∈ h, ∀ token, Step.issued s = some token →
      AcceptedUntil app h token (s.before.clock.secs + app.config.jwtTtlSeconds.toNat)) ∧
    ¬∀ h w, AtomicRun app (Unforged app) h w → ∀ s ∈ h, ∀ token claims,
      Step.issued s = some token → Issues app s token claims →
        GrantedUntil h claims (s.before.clock.secs + app.config.jwtTtlSeconds.toNat) := by
  obtain ⟨honest, issued, last, decodes, admitted, now, granted, time, entry⟩ := overstay_facts
  constructor
  · intro bounded
    have accepted := bounded _ _ (run_history honest) issueStep issueStep_mem _ issued
    have bound := accepted.broker _ lateConnect_mem
      ⟨⟨"1", some (.text shortLived)⟩, 0, rfl, rfl, admitted⟩
    rw [last, now] at bound
    omega
  · intro bounded
    obtain ⟨claims, issues⟩ := issued_issues (run_history honest) issueStep_mem issued
    obtain rfl := Option.some.inj (decodes.symm.trans issues.decodes)
    have bound := bounded _ _ (run_history honest) issueStep issueStep_mem _ _ issued issues
      _ laterSubscribe_mem "1" ⟨⟨0, "1"⟩, _, rfl, rfl, granted, entry⟩
    rw [last, time] at bound
    omega

end

end Smqtt
