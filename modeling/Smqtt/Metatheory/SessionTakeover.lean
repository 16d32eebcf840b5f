import Smqtt.Runs.Deployment

/-!
Sessions across takeovers. The map is keyed by client id alone, so the end of a
connection removes whatever entry its client id has. That entry is the connection's
own when no other connection of the client id is open, and only then.
-/

namespace Smqtt

open AtomicSteps

variable {A : AppState} {h k pre post : Log} {w : World} {e : Step}
  {allowed : Assumption World Action (Option (Except Error Reply))}

/-- A connection with the token it was admitted on. -/
structure Opening where
  session : Session
  token : String
  deriving DecidableEq

/-- The connection a step opens: a CONNECT that `authenticate` has allowed. -/
def Step.opening (e : Step) : Option Opening :=
  match e.action, e.response with
  | .call (.connect info), some (.ok (.connected (some n))) =>
      match info.password with
      | some (.text token) => some ⟨⟨n, info.clientId⟩, token⟩
      | _ => none
  | _, _ => none

/-- The connection whose end a step reports. -/
def Step.closing (e : Step) : Option Session :=
  match e.action with
  | .call (.disconnected session) => some session
  | _ => none

def openAfter (openings : List Opening) (e : Step) : List Opening :=
  (openings.filter fun o => !(Step.closing e = some o.session)) ++ (Step.opening e).toList

/-- The connections authenticated and not yet reported disconnected, oldest first. -/
def opened (h : Log) : List Opening := h.foldl openAfter []

/-- The most recent of them with this client id. -/
def newest (h : Log) (clientId : String) : Option Opening :=
  ((opened h).filter fun o => o.session.clientId = clientId).getLast?

/-- What `check_subscribe_acl` answers is decided by these claims. -/
def JudgedBy (A : AppState) (w : World) (session : Session) (claims : Claims) : Prop :=
  ∀ sub, ((handle A (.subscribe session sub)).run (exec A) w).1 = .ok (.subscribed true) ↔
    sub.topicFilter ∈ claims.subTopics

/-- The newest open connection of every client id is judged by its own token, and a
client id without one has no entry. -/
structure SessionsFollow (A : AppState) (h : Log) (w : World) : Prop where
  own : ∀ clientId o, newest h clientId = some o → ∃ claims,
    A.lib.jwtDecode A.jwtKeys.secret o.token = some claims ∧
      w.sessions clientId = some claims ∧ JudgedBy A w o.session claims
  none : ∀ clientId, newest h clientId = none → w.sessions clientId = none

/-- The broker reports the end of a connection it has opened, and once. -/
def Reported : Assumption World Action (Option (Except Error Reply)) :=
  fun h _ a =>
    match a with
    | .call (.disconnected session) => ∃ o ∈ opened h, o.session = session
    | _ => True

instance (h : Log) (w : World) (a : Action) : Decidable (Reported h w a) := by
  unfold Reported
  split <;> infer_instance

/-- No disconnect is reported while another connection of the client id is open. -/
def LastToLeave (h : Log) : Prop :=
  ∀ pre e post, h = pre ++ e :: post → ∀ session, Step.closing e = some session →
    ∀ o ∈ opened pre, o.session.clientId = session.clientId → o.session = session

theorem opened_snoc : opened (h ++ [e]) = openAfter (opened h) e := by
  unfold opened
  rw [List.foldl_append]
  rfl

theorem judgedBy_of_session {session : Session} {claims : Claims}
    (entry : w.sessions session.clientId = some claims) : JudgedBy A w session claims := by
  intro sub
  rw [handle_subscribe]
  rcases Broker.subscribe_cases (A := A) (w := w) session sub with ⟨granted, run⟩ | ⟨denied, run⟩
  · obtain ⟨claims', entry', mem⟩ := granted
    obtain rfl := Option.some.inj (entry.symm.trans entry')
    rw [run]
    exact ⟨fun _ => mem, fun _ => rfl⟩
  · rw [run]
    exact ⟨nofun, fun mem => absurd ⟨claims, entry, mem⟩ denied⟩

/-- What a step does to the connections and to the map of sessions. -/
theorem session_step (run : AtomicRun A allowed h w) (he : e ∈ h) :
    (∃ o claims, Step.opening e = some o ∧ Step.closing e = none ∧
      A.lib.jwtDecode A.jwtKeys.secret o.token = some claims ∧
      e.after.sessions = Function.update e.before.sessions o.session.clientId (some claims)) ∨
    (∃ session, Step.opening e = none ∧ Step.closing e = some session ∧
      e.after.sessions = Function.update e.before.sessions session.clientId none) ∨
    (Step.opening e = none ∧ Step.closing e = none ∧ e.after.sessions = e.before.sessions) := by
  cases action : e.action with
  | env x =>
      have after := run.after_eq he
      rw [action] at after
      refine Or.inr (Or.inr ⟨by simp only [Step.opening, action],
        by simp only [Step.closing, action], ?_⟩)
      rw [after]
      cases x <;> rfl
  | call c =>
      obtain ⟨response, after⟩ := step_shape run he action
      rw [after]
      cases c with
      | connect info =>
          have closing : Step.closing e = none := by simp only [Step.closing, action]
          rw [handle_connect] at response ⊢
          rcases Broker.connect_cases (A := A) (w := e.before) info with
            ⟨token, claims, admits, connected⟩ | ⟨-, v, rfl | rfl, refused⟩
          · rw [connected] at response ⊢
            refine Or.inl ⟨⟨⟨e.before.admitted, info.clientId⟩, token⟩, claims, ?_, closing,
              (jwtVerify_decodes admits.verifies).1, rfl⟩
            simp only [Step.opening, action, response, Except.map, admits.password]
          · rw [refused] at response ⊢
            refine Or.inr (Or.inr ⟨?_, closing, rfl⟩)
            simp only [Step.opening, action, response, Except.map]
          · rw [refused] at response ⊢
            refine Or.inr (Or.inr ⟨?_, closing, rfl⟩)
            simp only [Step.opening, action, response, Except.map]
      | disconnected session =>
          refine Or.inr (Or.inl ⟨session, ?_, ?_, rfl⟩)
          · simp only [Step.opening, action]
          · simp only [Step.closing, action]
      | _ =>
          refine Or.inr (Or.inr ⟨?_, ?_, handle_sessions A _ rfl⟩)
          · simp only [Step.opening, action]
          · simp only [Step.closing, action]

theorem newest_opening {o : Opening} (opening : Step.opening e = some o)
    (closing : Step.closing e = none) (clientId : String) :
    newest (h ++ [e]) clientId =
      if o.session.clientId = clientId then some o else newest h clientId := by
  have kept : openAfter (opened h) e = opened h ++ [o] := by
    simp [openAfter, opening, closing]
  unfold newest
  rw [opened_snoc, kept, List.filter_append]
  by_cases same : o.session.clientId = clientId
  · simp [same]
  · simp [same]

theorem newest_quiet (opening : Step.opening e = none) (closing : Step.closing e = none)
    (clientId : String) : newest (h ++ [e]) clientId = newest h clientId := by
  have kept : openAfter (opened h) e = opened h := by simp [openAfter, opening, closing]
  unfold newest
  rw [opened_snoc, kept]

/-- The last connection of a client id leaves none, and those of others are not touched. -/
theorem newest_closing {session : Session} (opening : Step.opening e = none)
    (closing : Step.closing e = some session)
    (last : ∀ o ∈ opened h, o.session.clientId = session.clientId → o.session = session)
    (clientId : String) : newest (h ++ [e]) clientId =
      if session.clientId = clientId then none else newest h clientId := by
  unfold newest
  rw [opened_snoc, openAfter, opening, closing, Option.toList_none, List.append_nil,
    List.filter_filter]
  split
  · rename_i own
    rw [List.getLast?_eq_none_iff, List.filter_eq_nil_iff]
    intro o mem both
    simp only [Bool.and_eq_true, decide_eq_true_eq, Bool.not_eq_true', decide_eq_false_iff_not,
      Option.some.injEq] at both
    exact both.2 (last o mem (both.1.trans own.symm)).symm
  · rename_i other
    refine congrArg List.getLast? (List.filter_congr fun o mem => ?_)
    by_cases of : o.session.clientId = clientId
    · have differ : session ≠ o.session := fun same => other (same ▸ of)
      simp [of, differ]
    · simp [of]

theorem LastToLeave.before (last : LastToLeave (h ++ k)) : LastToLeave h := by
  rintro pre e post rfl
  exact last pre e (post ++ k) (by simp)

theorem newest_clientId {clientId : String} {o : Opening} (latest : newest h clientId = some o) :
    o.session.clientId = clientId := by
  have mem := List.mem_of_getLast? latest
  simpa using (List.mem_filter.mp mem).2

/-- The claims a client id should be judged by. -/
def due (A : AppState) (h : Log) (clientId : String) : Option Claims :=
  (newest h clientId).bind fun o => A.lib.jwtDecode A.jwtKeys.secret o.token

/-- Only tokens that decode open connections. -/
def Decodable (A : AppState) (h : Log) : Prop :=
  ∀ clientId o, newest h clientId = some o →
    ∃ claims, A.lib.jwtDecode A.jwtKeys.secret o.token = some claims

theorem sessionsFollow_of_due (decodable : Decodable A h)
    (entries : ∀ clientId, w.sessions clientId = due A h clientId) : SessionsFollow A h w := by
  constructor
  · intro clientId o latest
    obtain ⟨claims, decodes⟩ := decodable clientId o latest
    have entry := entries clientId
    rw [due, latest, Option.bind_some, decodes] at entry
    refine ⟨claims, decodes, entry, judgedBy_of_session ?_⟩
    rwa [newest_clientId latest]
  · intro clientId latest
    have entry := entries clientId
    rwa [due, latest] at entry

/-- The entries that are due stay so, unless a step reports the end of a connection
that is not the last of its client id. -/
theorem due_step (run : AtomicRun A allowed (h ++ [e]) w) (last : LastToLeave (h ++ [e]))
    (decodable : Decodable A h)
    (entries : ∀ clientId, e.before.sessions clientId = due A h clientId) :
    Decodable A (h ++ [e]) ∧ ∀ clientId, e.after.sessions clientId = due A (h ++ [e]) clientId := by
  rcases session_step run (List.mem_append_right _ (List.mem_singleton_self e)) with
    ⟨o, claims, opening, closing, decodes, after⟩ | ⟨session, opening, closing, after⟩ |
      ⟨opening, closing, after⟩
  · have latest (clientId : String) := newest_opening (h := h) opening closing clientId
    constructor
    · intro clientId o' found
      rw [latest] at found
      split at found
      · obtain rfl := Option.some.inj found
        exact ⟨claims, decodes⟩
      · exact decodable clientId o' found
    · intro clientId
      rw [after, due, latest]
      split
      · rename_i own
        rw [own, Function.update_self, Option.bind_some, decodes]
      · rename_i other
        rw [Function.update_of_ne (Ne.symm other)]
        exact entries clientId
  · have latest (clientId : String) :=
      newest_closing opening closing (last h e [] rfl session closing) clientId
    constructor
    · intro clientId o' found
      rw [latest] at found
      split at found
      · cases found
      · exact decodable clientId o' found
    · intro clientId
      rw [after, due, latest]
      split
      · rename_i own
        rw [own, Function.update_self, Option.bind_none]
      · rename_i other
        rw [Function.update_of_ne (Ne.symm other)]
        exact entries clientId
  · have latest (clientId : String) := newest_quiet (h := h) opening closing clientId
    constructor
    · intro clientId o' found
      rw [latest] at found
      exact decodable clientId o' found
    · intro clientId
      rw [after, due, latest]
      exact entries clientId

theorem due_run (run : AtomicRun A allowed h w) (last : LastToLeave h) :
    Decodable A h ∧ ∀ clientId, w.sessions clientId = due A h clientId := by
  induction run with
  | start => exact ⟨nofun, fun _ => rfl⟩
  | step prior a ok ih =>
      obtain ⟨decodable, entries⟩ := ih last.before
      exact due_step (prior.step a ok) last decodable entries

/-- The sessions follow the connections in every state of a run exactly when a
disconnect is only ever reported of the last open connection of its client id. -/
theorem sessions_follow_iff (run : AtomicRun A allowed h w) :
    (∀ pre v, pre <+: h → AtomicRun A allowed pre v → SessionsFollow A pre v) ↔
      LastToLeave h := by
  constructor
  · rintro follow pre e post rfl session closing o mem same
    by_contra other
    have passed := run.cut.2.2.2
    have after := follow (pre ++ [e]) e.after (by simp) passed
    have opening : Step.opening e = none := by
      unfold Step.closing at closing
      split at closing
      · rename_i action
        simp only [Step.opening, action]
      · cases closing
    have gone : e.after.sessions session.clientId = none := by
      rcases session_step passed (List.mem_append_right _ (List.mem_singleton_self e)) with
        ⟨o', claims, opening', -⟩ | ⟨session', -, closing', after⟩ | ⟨-, closing', -⟩
      · rw [opening] at opening'
        cases opening'
      · obtain rfl := Option.some.inj (closing.symm.trans closing')
        rw [after, Function.update_self]
      · rw [closing] at closing'
        cases closing'
    cases latest : newest (pre ++ [e]) session.clientId with
    | some o' =>
        obtain ⟨claims, -, entry, -⟩ := after.own _ _ latest
        rw [gone] at entry
        cases entry
    | none =>
        unfold newest at latest
        rw [List.getLast?_eq_none_iff, List.filter_eq_nil_iff] at latest
        refine latest o ?_ (by simpa using same)
        rw [opened_snoc, openAfter]
        refine List.mem_append_left _ (List.mem_filter.mpr ⟨mem, ?_⟩)
        simpa [closing] using Ne.symm other
  · rintro last pre v ⟨rest, rfl⟩ reached
    obtain ⟨decodable, entries⟩ := due_run reached last.before
    exact sessionsFollow_of_due decodable entries

section
open Deployment

/-- Every reported end is that of the only open connection of its client id. -/
def leavesLast (h : Log) : Bool :=
  h.zipIdx.all fun (e, n) => (Step.closing e).all fun session => (opened (h.take n)).all fun o =>
    o.session.clientId ≠ session.clientId || o.session = session

theorem lastToLeave_of_leavesLast (checked : leavesLast h = true) : LastToLeave h := by
  rintro pre e post rfl session closing o mem same
  have at_e : (pre ++ e :: post)[pre.length]? = some e := by simp
  have here := List.all_eq_true.mp checked (e, pre.length) (List.mem_zipIdx_iff_getElem?.mpr at_e)
  dsimp only at here
  rw [closing, List.take_left] at here
  simpa [same] using List.all_eq_true.mp here o mem

/-- The device disconnects, -/
def visit : List Action := login ++ [.call (.disconnected ⟨0, "1"⟩)]

/-- and connects again. -/
def visits : List Action := visit ++ [connect "1" (token "0" "1" 100 [] [])]

private theorem visits_facts : Honest visits ∧ leavesLast (history visits) = true ∧
    newest (history visit) "1" = none ∧
    newest (history visits) "1" = some ⟨⟨1, "1"⟩, token "0" "1" 100 [] []⟩ := by
  decide +kernel

/-- After the end of the first connection the sessions are empty, after the second CONNECT
its token judges it. -/
theorem sessions_follow_iff_login :
    LastToLeave (history visits) ∧ (reached visit).sessions "1" = none ∧
    ∃ claims, app.lib.jwtDecode app.jwtKeys.secret (token "0" "1" 100 [] []) = some claims ∧
      (reached visits).sessions "1" = some claims ∧
      JudgedBy app (reached visits) ⟨1, "1"⟩ claims := by
  obtain ⟨honest, checked, left, latest⟩ := visits_facts
  have last := lastToLeave_of_leavesLast checked
  have run := run_history honest
  have first : AtomicRun app (Unforged app) (history visit) (reached visit) :=
    run_history honest.left
  have earlier : history visit <+: history visits := by
    rw [visits, history_split]
    exact List.prefix_append _ _
  have follow := (sessions_follow_iff run).mpr last
  obtain ⟨claims, decodes, entry, judged⟩ :=
    (follow (history visits) (reached visits) (List.prefix_refl _) run).own "1" _ latest
  exact ⟨last, (follow _ _ earlier first).none "1" left, claims, decodes, entry, judged⟩

/-- The device connects again before the end of its first connection is reported. -/
def takeover : List Action :=
  login ++ [connect "1" (token "0" "1" 100 [] []), .call (.disconnected ⟨0, "1"⟩)]

private theorem takeover_facts :
    machine.AllowedFrom (fun h w a => Unforged app h w a ∧ Reported h w a) [] machine.start
      takeover ∧
    newest (history takeover) "1" = some ⟨⟨1, "1"⟩, token "0" "1" 100 [] []⟩ ∧
    (reached takeover).sessions "1" = none := by
  decide +kernel

/-- The end of the old connection removes the entry of the new one. -/
theorem not_sessions_follow :
    ¬∀ h w, AtomicRun app (fun h w a => Unforged app h w a ∧ Reported h w a) h w →
      SessionsFollow app h w := by
  intro follow
  obtain ⟨allowed, latest, gone⟩ := takeover_facts
  obtain ⟨claims, -, entry, -⟩ :=
    (follow _ _ (machine.run_trace takeover allowed)).own "1" _ latest
  exact nomatch gone.symm.trans entry

end

end Smqtt
