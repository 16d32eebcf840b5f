import Smqtt.Api.RelationshipEvents
import Smqtt.Runs.Schedules
import Smqtt.Runs.Users

/-!
The order of cutoffs under interleaving. A kick reads the clock before it waits for its
UPDATE, and the UPDATE writes what was read whatever the row holds by then. A kick that
is overtaken by a later one takes the cutoff back, and tokens that were rejected in
between are good again. Without such a pair of kicks the cutoff never falls.
-/

namespace Smqtt

open AtomicSteps System

/-- Thread `i` kicks `u`: it reads the clock at position `m`, and at position `n` writes
what it has read to the row of `u`. -/
structure Moves (h : PoolLog) (u : String) (m n i now : Nat) : Prop where
  looked : At h m i ⟨.unixNow, now⟩
  wrote : ∃ rows, rows ≠ 0 ∧ At h n i ⟨.sql (.updateTokensValidFrom now u), some rows⟩
  last : eventsOf i (h.take n) = eventsOf i (h.take m) ++ [⟨.unixNow, now⟩]

/-- Between a kick's look at the clock and its UPDATE, another kick of the same user has
read a later second and written it. -/
def Overtaken (h : PoolLog) (u : String) : Prop :=
  ∃ m n i now m' n' i' now', Moves h u m n i now ∧ Moves h u m' n' i' now' ∧
    m < m' ∧ n' < n ∧ now < now'

/-- Thread `i` serves a CONNECT: it has verified the token, and at position `n` it asks for
the row of its user. -/
structure Judges (h : PoolLog) (n i : Nat) (token : String) (claims : Claims)
    (row : Option (Option User)) : Prop where
  request : ∃ info, (requests h)[i]? = some (.connect info)
  verified : eventsOf i (h.take n) = [⟨.jwtVerify token, .ok claims⟩]
  selected : At h n i ⟨.sql (.selectUser claims.sub), row⟩

/-- Thread `i` has allowed a connection. -/
def Allows (h : PoolLog) (i : Nat) : Prop :=
  ∃ n clientId claims, At h n i ⟨.sessionsInsert clientId claims, ()⟩

/-- The cutoff of `u` never falls, and no token that it has once rejected gets through
afterwards. -/
structure Steady (h : PoolLog) (u : String) : Prop where
  climbs : ∀ (m n : Nat) e f, m ≤ n → h[m]? = some e → h[n]? = some f →
    ∀ x, e.after.world.db.user u = some x → ∃ y, f.after.world.db.user u = some y ∧
      x.tokensValidFrom ≤ y.tokensValidFrom
  rejected : ∀ m n i j token claims x row, claims.sub = u →
    Judges h m i token claims (some (some x)) → asI64 claims.iat < x.tokensValidFrom →
      Judges h n j token claims row → m < n → ¬Allows h j

variable {A : AppState} {allowed : Scheduling} {h : PoolLog} {s : Threads} {u : String}
  {i j m n : Nat}

/-- A cutoff is written right after a look at the clock, and is what it showed. -/
theorem KickStep.looked {v : String} {start seen : List (Event signature)} {t : Int}
    {rows : Option Nat} (step : KickStep v start seen ⟨.sql (.updateTokensValidFrom t u), rows⟩) :
    ∃ now, t = asI64 now ∧ seen = start ++ [⟨.unixNow, now⟩] := by
  obtain ⟨part, now, rows', devices, rfl, pre⟩ := step
  rcases part with _ | ⟨a, _ | ⟨b, _ | ⟨c, done⟩⟩⟩
  · simp [kickEvents] at pre
  · simp only [kickEvents, List.cons_append, List.nil_append, List.cons_prefix_cons] at pre
    obtain ⟨rfl, update, -⟩ := pre
    obtain ⟨written, -⟩ :=
      Statement.updateTokensValidFrom.inj (Op.sql.inj (congrArg Event.op update))
    exact ⟨now, written, rfl⟩
  · simp [kickEvents] at pre
  · simp only [kickEvents, List.cons_append, List.nil_append, List.cons_prefix_cons] at pre
    have mem := pre.2.2.2.subset (List.mem_append_right done (List.mem_singleton_self _))
    obtain ⟨d, -, same⟩ := List.mem_map.mp mem
    cases congrArg Event.op same

theorem moves_of_update (run : PoolRun A allowed h s) {t : Int} {rows : Nat} (found : rows ≠ 0)
    (a : At h n i ⟨.sql (.updateTokensValidFrom t u), some rows⟩) :
    ∃ (m now : Nat), t = now ∧ Moves h u m n i now := by
  obtain ⟨c, -, spec⟩ := a.sat run handle_kicks_sat
  obtain ⟨v, start, -, step⟩ := spec (Or.inl rfl)
  obtain ⟨now, written, seen⟩ := step.looked
  obtain ⟨m, -, looked, before⟩ := at_of_eventsOf start seen
  obtain ⟨e, at_m⟩ := looked.entry
  have time : now = e.before.world.clock.secs := (looked.exec run at_m).1
  have same : t = now := by rw [written, time, Clock.asI64_secs]
  subst same
  exact ⟨m, now, rfl, looked, ⟨rows, found, a⟩, by rw [before, seen]⟩

theorem Moves.time (run : PoolRun A allowed h s) {now : Nat} (x : Moves h u m n i now)
    {e : PoolEntry signature World Call Env Error Reply} (at_m : h[m]? = some e) :
    now = e.before.world.clock.secs :=
  (x.looked.exec run at_m).1

/-- Of two kicks, the one that read a later second looked later. -/
theorem Moves.lt (run : PoolRun A allowed h s) {now now' m' n' : Nat} (x : Moves h u m n i now)
    (y : Moves h u m' n' j now') (later : now < now') : m < m' := by
  obtain ⟨e, at_m⟩ := x.looked.entry
  obtain ⟨f, at_m'⟩ := y.looked.entry
  have time := x.time run at_m
  have time' := y.time run at_m'
  by_contra order
  rcases Nat.lt_or_eq_of_le (Nat.le_of_not_lt order) with lt | rfl
  · have := clock_le (run.take at_m).1
      (show (h.take m)[m']? = some f by rw [List.getElem?_take_of_lt lt]; exact at_m')
    omega
  · obtain rfl := Option.some.inj (at_m.symm.trans at_m')
    omega

/-- A kick leaves the time at which it looked. -/
theorem Moves.after (run : PoolRun A allowed h s) {now : Nat} (x : Moves h u m n i now)
    {e : PoolEntry signature World Call Env Error Reply} (at_n : h[n]? = some e) :
    ∃ y, e.after.world.db.user u = some y ∧ y.tokensValidFrom = now := by
  obtain ⟨rows, found, wrote⟩ := x.wrote
  obtain ⟨db, executed, after⟩ := answered_by run wrote at_n
  obtain ⟨rfl, rfl⟩ := Prod.mk.inj (Option.some.inj executed)
  obtain ⟨old, mem, id⟩ := List.countP_pos_iff.mp (Nat.pos_of_ne_zero found)
  have known : e.before.world.db.hasUser u = true := List.any_eq_true.mpr ⟨old, mem, id⟩
  obtain ⟨old, row⟩ := Database.user_of_hasUser known
  refine ⟨{ old with tokensValidFrom := now }, ?_, rfl⟩
  rw [after]
  simp only [Database.user_updateUser, implies_true, row, if_true, Option.map_some]

/-- One operation lowers no cutoff, unless it is the UPDATE of a kick that was overtaken. -/
theorem climbs_step (run : PoolRun A allowed h s) (inTurn : ¬Overtaken h u)
    {e : PoolEntry signature World Call Env Error Reply} (at_n : h[n]? = some e) {x : User}
    (row : e.before.world.db.user u = some x) : ∃ y, e.after.world.db.user u = some y ∧
      x.tokensValidFrom ≤ y.tokensValidFrom := by
  rcases world_cases run (List.mem_of_getElem? at_n) with
    ⟨i, ev, does, after⟩ | ⟨env, -, after⟩ | ⟨-, after⟩
  · have placed : At h n i ev := ⟨e, at_n, does⟩
    obtain ⟨y, row', cutoff⟩ := exec_cutoff (placed.exec run at_n).1 row
    refine ⟨y, by rw [after]; exact row', ?_⟩
    rcases cutoff with kept | ⟨rows, found, rfl⟩
    · exact kept.ge
    · by_contra falls
      rw [Int.not_le] at falls
      -- the kick that writes now, and the one that wrote what it finds
      obtain ⟨m, now, eq, mine⟩ := moves_of_update run found placed
      obtain ⟨n', i', rows', found', wrote⟩ := cutoff_written (run.take at_n).1 row (by omega)
      have before := wrote.lt_of_take
      obtain ⟨m', now', eq', other⟩ := moves_of_update run found' ((at_take before).mp wrote)
      have later : now < now' := by omega
      exact inTurn ⟨m, n, i, now, m', n', i', now', mine, other, mine.lt run other later,
        before, later⟩
  · refine ⟨x, ?_, Int.le_refl _⟩
    rw [after]
    cases env <;> exact row
  · exact ⟨x, by rw [after]; exact row, Int.le_refl _⟩

theorem climbs_between (run : PoolRun A allowed h s) (inTurn : ¬Overtaken h u)
    {e f : PoolEntry signature World Call Env Error Reply} (lt : m < n) (at_m : h[m]? = some e)
    (at_n : h[n]? = some f) {x : User} (row : e.after.world.db.user u = some x) :
    ∃ y, f.before.world.db.user u = some y ∧ x.tokensValidFrom ≤ y.tokensValidFrom := by
  refine (run.take at_n).1.onward (I := fun t => ∃ y, t.world.db.user u = some y ∧
    x.tokensValidFrom ≤ y.tokensValidFrom) (m := m) (a := e) ?_ ⟨x, row, Int.le_refl _⟩ ?_
  · rw [List.getElem?_take_of_lt lt]
    exact at_m
  · rintro k c - at_k ⟨y, row, grown⟩
    have short : k < n := by
      have := (List.getElem?_eq_some_iff.mp at_k).1
      simp only [List.length_take] at this
      omega
    rw [List.getElem?_take_of_lt short] at at_k
    obtain ⟨z, row, grown'⟩ := climbs_step run inTurn at_k row
    exact ⟨z, row, grown.trans grown'⟩

/-- A connection is allowed on a row whose cutoff the token has reached. -/
theorem Judges.current (run : PoolRun A allowed h s) {token : String} {claims : Claims}
    {row : Option (Option User)} (judges : Judges h n j token claims row) (allows : Allows h j) :
    ∃ y, row = some (some y) ∧ y.tokensValidFrom ≤ asI64 claims.iat := by
  obtain ⟨k, clientId, granted, insert⟩ := allows
  obtain ⟨c, -, spec⟩ := insert.sat run handle_insertSession_sat
  obtain ⟨info, x, -, seen, -⟩ := spec rfl
  -- the thread has verified one token and asked for one row
  obtain ⟨l, -, at_l, before⟩ := at_of_eventsOf [] seen
  obtain ⟨l', -, at_l', before'⟩ := at_of_eventsOf [] judges.verified
  obtain rfl := at_l.position_eq at_l' (by rw [before, before'])
  obtain ⟨-, verified⟩ := at_l.unique at_l'
  obtain ⟨p, -, at_p, before⟩ := at_of_eventsOf [_] seen
  obtain rfl := at_p.position_eq judges.selected (by rw [before, judges.verified]; rfl)
  obtain ⟨-, selected⟩ := at_p.unique judges.selected
  obtain ⟨-, rfl⟩ : x.token = token ∧ x.claims = claims := by simpa using verified
  obtain rfl : some (some x.user) = row := by simpa using selected
  exact ⟨x.user, rfl, x.current⟩

/-- The cutoff of a user never falls, and rejected tokens stay rejected, exactly in the runs
in which no kick of the user is overtaken by another one. -/
theorem steady_iff_in_turn (run : PoolRun A allowed h s) (u : String) :
    Steady h u ↔ ¬Overtaken h u := by
  constructor
  · rintro steady ⟨m, n, i, now, m', n', i', now', x, y, -, before, later⟩
    obtain ⟨_, -, wrote⟩ := x.wrote
    obtain ⟨_, -, wrote'⟩ := y.wrote
    obtain ⟨e, at_n⟩ := wrote.entry
    obtain ⟨e', at_n'⟩ := wrote'.entry
    obtain ⟨v, row, written⟩ := x.after run at_n
    obtain ⟨v', row', written'⟩ := y.after run at_n'
    obtain ⟨z, row'', grown⟩ := steady.climbs n' n e' e (Nat.le_of_lt before) at_n' at_n v' row'
    obtain rfl := Option.some.inj (row.symm.trans row'')
    omega
  · intro inTurn
    refine ⟨?_, ?_⟩
    · intro m n e f le at_m at_n x row
      rcases Nat.lt_or_eq_of_le le with lt | rfl
      · obtain ⟨y, row, grown⟩ := climbs_between run inTurn lt at_m at_n row
        obtain ⟨z, row, grown'⟩ := climbs_step run inTurn at_n row
        exact ⟨z, row, grown.trans grown'⟩
      · obtain rfl := Option.some.inj (at_m.symm.trans at_n)
        exact ⟨x, row, Int.le_refl _⟩
    · rintro m n i j token claims x row rfl judges below judged lt allows
      obtain ⟨y, rfl, current⟩ := judged.current run allows
      obtain ⟨e, at_m⟩ := judges.selected.entry
      obtain ⟨f, at_n⟩ := judged.selected.entry
      obtain ⟨db, executed, after⟩ := answered_by run judges.selected at_m
      obtain ⟨found, rfl⟩ := Prod.mk.inj (Option.some.inj executed)
      obtain ⟨z, row, grown⟩ := climbs_between run inTurn lt at_m at_n
        (show e.after.world.db.user claims.sub = some x by rw [after]; exact found)
      obtain ⟨db, executed, -⟩ := answered_by run judged.selected at_n
      obtain ⟨found', -⟩ := Prod.mk.inj (Option.some.inj executed)
      obtain rfl := Option.some.inj (row.symm.trans found')
      omega

section
open Deployment

private def suspendFirst : Call := .suspendUser (some "admin") "0" ⟨none⟩

/-- The cutoff an event writes. -/
private def movedTo : Event signature → Option Int
  | ⟨.sql (.updateTokensValidFrom t _), _⟩ => some t
  | _ => none

/-- Two suspensions of one user, a second apart. -/
def inTurn : List Schedule :=
  poolLogin ++ serve 3 5 suspendFirst ++ .env (.tick 1) :: serve 4 5 suspendFirst

private theorem inTurn_facts : HonestSchedule inTurn ∧
    (∀ e ∈ poolLog inTurn, ∀ t, e.response.bind movedTo = some t →
      t = (e.before.world.clock.secs : Int)) ∧
    ((poolState inTurn).world.db.user "0").map User.tokensValidFrom = some 101 := by
  refine ⟨by decide +kernel, ?_, by decide +kernel⟩
  have all : ((poolLog inTurn).all fun e => (e.response.bind movedTo).all fun t =>
      t = (e.before.world.clock.secs : Int)) = true := by decide +kernel
  intro e he t moved
  have checked := List.all_eq_true.mp all e he
  rw [moved] at checked
  exact of_decide_eq_true checked

theorem steady_iff_in_turn_twice : Steady (poolLog inTurn) "0" ∧
    ((poolState inTurn).world.db.user "0").map User.tokensValidFrom = some 101 := by
  obtain ⟨honest, atOnce, cutoff⟩ := inTurn_facts
  have run := run_poolLog honest
  refine ⟨(steady_iff_in_turn run "0").mpr ?_, cutoff⟩
  rintro ⟨m, n, i, now, m', n', i', now', x, y, -, before, later⟩
  obtain ⟨_, -, e, at_n, action, response⟩ := x.wrote
  obtain ⟨_, -, e', at_n', action', response'⟩ := y.wrote
  have time := atOnce e (List.mem_of_getElem? at_n) now (by rw [response]; rfl)
  have time' := atOnce e' (List.mem_of_getElem? at_n') now' (by rw [response']; rfl)
  have := clock_le (run.take at_n).1
    (show ((poolLog inTurn).take n)[n']? = some e' by
      rw [List.getElem?_take_of_lt before]; exact at_n')
  omega

/-- A CONNECT with the token of the first second. -/
private def firstToken : Call := .connect ⟨"1", some (.text (token "0" "1" 100 [] []))⟩

/-- A suspension has read the clock when a second passes; another one runs, and is lifted.
Then the first one writes. The user's token is tried before and after. -/
def overtaking : List Schedule :=
  poolLogin ++ serve 3 2 suspendFirst ++ .env (.tick 1) :: serve 4 5 suspendFirst ++
    serve 5 1 (.unsuspendUser (some "admin") "0") ++ serve 6 2 firstToken ++
    [.step 3, .step 3, .step 3] ++ serve 7 4 firstToken

/-- What the CONNECT of a thread was answered. -/
private def admission (s : Threads) (i : Nat) : Option (Option Nat) :=
  match s.threads[i]? with
  | some (.connect _, .done (.connected connection)) => some connection
  | _ => none

private theorem overtaking_facts : HonestSchedule overtaking ∧
    ((poolLog overtaking)[27]?.bind fun e => e.after.world.db.user "0").map
      User.tokensValidFrom = some 101 ∧
    ((poolLog overtaking)[35]?.bind fun e => e.after.world.db.user "0").map
      User.tokensValidFrom = some 100 ∧
    admission (poolState overtaking) 6 = some none ∧
    admission (poolState overtaking) 7 = some (some 0) := by
  decide +kernel

/-- The cutoff falls from 101 to 100, and the token refused to thread 6 is good for thread 7. -/
theorem not_steady : PoolRun app (Genuine app) (poolLog overtaking) (poolState overtaking) ∧
    ¬Steady (poolLog overtaking) "0" ∧
    admission (poolState overtaking) 6 = some none ∧
    admission (poolState overtaking) 7 = some (some 0) := by
  obtain ⟨honest, high, low, refused, admitted⟩ := overtaking_facts
  refine ⟨run_poolLog honest, fun steady => ?_, refused, admitted⟩
  obtain ⟨x, found, high⟩ := Option.map_eq_some_iff.mp high
  obtain ⟨e, at_m, row⟩ := Option.bind_eq_some_iff.mp found
  obtain ⟨y, found, low⟩ := Option.map_eq_some_iff.mp low
  obtain ⟨f, at_n, row'⟩ := Option.bind_eq_some_iff.mp found
  obtain ⟨z, row'', grown⟩ := steady.climbs 27 35 e f (by decide) at_m at_n x row
  obtain rfl := Option.some.inj (row'.symm.trans row'')
  omega

end

end Smqtt
