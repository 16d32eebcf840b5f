import Smqtt.Api.ExchangeOutcomes
import Smqtt.Runs.Schedules
import Smqtt.Runs.Exchanges
import Mathlib.Data.List.Find

/-!
When the sweep runs, and what can be seen of it. A row that has expired is deleted by
the next sweep and until then served like any other: neither `get` nor `respond` looks
at `expires_at`. Two runs whose sweeps come at different times therefore answer alike
as long as nobody authenticated asks for a row that has expired.
-/

namespace Smqtt

open AtomicSteps System

variable {A : AppState} {f : Nat → Bool} {w w' : World} {α : Type}

/-- The same server with other statements failing. -/
def AppState.failing (A : AppState) (fails : Nat → Bool) : AppState :=
  { A with outside := { A.outside with fails } }

theorem exec_statements_le (op : Op) : w.statements ≤ (exec A op w).2.statements := by
  cases op with
  | sql s =>
      rcases exec_sql_cases A w s with h | ⟨x, db, -, -, h⟩ <;> rw [h] <;> exact Nat.le_succ _
  | forward session topic => simp only [exec]; split <;> exact Nat.le_refl _
  | _ => exact Nat.le_refl _

theorem run_statements_le (p : Handler α) : w.statements ≤ (p.run (exec A) w).2.statements :=
  (Prog.uses_all p).run_preserves (I := fun v : World => w.statements ≤ v.statements)
    (fun op _ _ le => Nat.le_trans le (exec_statements_le op)) (Nat.le_refl _)

/-- An operation looks at the failure of the next statement only. -/
theorem exec_failing {op : Op}
    (next : w.statements < (exec A op w).2.statements →
      f w.statements = A.outside.fails w.statements) :
    exec (A.failing f) op w = exec A op w := by
  cases op with
  | sql s =>
      have counts : w.statements < (exec A (.sql s) w).2.statements := by
        rcases exec_sql_cases A w s with h | ⟨x, db, -, -, h⟩ <;> rw [h] <;>
          exact Nat.lt_succ_self _
      simp only [exec, AppState.failing, next counts]
  | _ => rfl

/-- A run looks at the failures of its own statements only. -/
theorem run_failing {p : Handler α}
    (agree : ∀ n, w.statements ≤ n → n < (p.run (exec A) w).2.statements →
      f n = A.outside.fails n) : p.run (exec (A.failing f)) w = p.run (exec A) w := by
  induction p generalizing w with
  | done a => rfl
  | fail e => rfl
  | call op next ih =>
      rw [Prog.run_call] at agree
      have later := run_statements_le (A := A) (w := (exec A op w).2) (next (exec A op w).1)
      have same : exec (A.failing f) op w = exec A op w :=
        exec_failing fun counts => agree _ (Nat.le_refl _) (Nat.lt_of_lt_of_le counts later)
      rw [Prog.run_call, Prog.run_call, same]
      exact ih _ fun n le lt => agree n (Nat.le_trans (exec_statements_le op) le) lt

def PendingExchange.expired (row : PendingExchange) (now : Clock) : Bool := row.expiresAt < now.secs

/-- The rows that have not expired. -/
def liveRows (now : Clock) (rows : List PendingExchange) : List PendingExchange :=
  rows.filter fun row => !row.expired now

/-- The databases differ in expired exchanges only. -/
structure Database.Unpurged (now : Clock) (db db' : Database) : Prop where
  live : liveRows now db'.pendingExchanges = liveRows now db.pendingExchanges
  rest : db' = { db with pendingExchanges := db'.pendingExchanges }

/-- The worlds differ in expired exchanges and in the number of statements so far. -/
structure World.Unpurged (w w' : World) : Prop where
  db : w.db.Unpurged w.clock w'.db
  rest : w' = { w with db := w'.db, statements := w'.statements }

theorem Database.Unpurged.refl (now : Clock) (db : Database) : db.Unpurged now db := ⟨rfl, rfl⟩

theorem Database.Unpurged.symm {now : Clock} {db db' : Database} (same : db.Unpurged now db') :
    db'.Unpurged now db where
  live := same.live.symm
  rest := by rw [same.rest]

theorem World.Unpurged.clock (same : w.Unpurged w') : w'.clock = w.clock := by rw [same.rest]

theorem World.Unpurged.symm (same : w.Unpurged w') : w'.Unpurged w where
  db := same.clock ▸ same.db.symm
  rest := by rw [same.rest]

/-- No row with this id has expired. -/
def Database.Timely (db : Database) (now : Clock) (e : String) : Prop :=
  ∀ row ∈ db.pendingExchanges, row.exchangeId = e → row.expired now = false

/-- The statements of a call that names no exchange, and those it makes for exchange `e`. -/
def Statement.Spares (s : Statement) : Prop :=
  s.kind.part ≠ .exchanges ∧ (Op.sql s).looksUp = false

def Statement.Names (e : String) : Statement → Prop
  | .selectExchange x | .updateResponderPubkey _ x | .deleteExchange x => x = e
  | _ => False

abbrev Statement.Agree (now : Clock) {β : Type} :
    Option (β × Database) → Option (β × Database) → Prop :=
  Option.Rel fun a b => a.1 = b.1 ∧ a.2.Unpurged now b.2

theorem Statement.Agree.insert {now : Clock} {β : Type} {a b : β × Database} (c : Bool)
    (same : a.1 = b.1 ∧ a.2.Unpurged now b.2) :
    Statement.Agree now (if c then none else some a) (if c then none else some b) := by
  cases c with
  | true => exact .none
  | false => exact .some same

theorem Statement.execute_spares {s : Statement} (spares : s.Spares) {now : Clock}
    {db db' : Database} (same : db.Unpurged now db') :
    Statement.Agree now (s.execute db) (s.execute db') := by
  obtain ⟨live, rest⟩ := same
  rw [rest]
  cases s with
  | insertUser row | insertDevice row | insertRelationship row | insertRegistrationToken row =>
      exact Agree.insert _ ⟨rfl, live, rfl⟩
  | insertExchange _ | updateResponderPubkey _ _ | deleteExchange _ | purgeExchanges _ =>
      exact absurd rfl spares.1
  | selectExchange e => cases spares.2
  | _ => exact .some ⟨rfl, live, rfl⟩

namespace Database

variable {now : Clock} {db db' : Database} {e : String}

/-- Rows of an id that has not expired are found among the live ones. -/
theorem Timely.exchange (timely : db.Timely now e) :
    db.exchange e = (liveRows now db.pendingExchanges).find? fun row => row.exchangeId = e := by
  rw [liveRows, List.find?_filter]
  refine List.find?_congr fun row mem => ?_
  by_cases named : row.exchangeId = e
  · simp [named, timely row mem named]
  · simp [named]

theorem Timely.count (timely : db.Timely now e) :
    (db.pendingExchanges.countP fun row => row.exchangeId = e) =
      (liveRows now db.pendingExchanges).countP fun row => row.exchangeId = e := by
  rw [liveRows, List.countP_filter]
  refine List.countP_congr fun row mem => ?_
  by_cases named : row.exchangeId = e
  · simp [named, timely row mem named]
  · simp [named]

theorem Timely.respond (timely : db.Timely now e) (key : List UInt8) :
    (db.updateExchange e fun row => { row with responderPubkey := some key }).Timely now e := by
  intro row mem named
  obtain ⟨old, stored, rfl⟩ := mem_updateWhere.mp mem
  split at named
  · rename_i here
    rw [if_pos here]
    exact timely old stored named
  · rename_i here
    rw [if_neg here]
    exact timely old stored named

theorem Timely.discard (timely : db.Timely now e) : (Db.withoutExchange db e).Timely now e :=
  fun row mem named => timely row (List.mem_filter.mp mem).1 named

theorem live_respond (db : Database) (key : List UInt8) :
    liveRows now (db.updateExchange e fun row =>
      { row with responderPubkey := some key }).pendingExchanges =
      updateWhere (fun row => row.exchangeId = e)
        (fun row => { row with responderPubkey := some key })
        (liveRows now db.pendingExchanges) := by
  unfold liveRows
  rw [updateWhere, updateExchange, updateWhere, List.filter_map]
  congr 1
  refine List.filter_congr fun row _ => ?_
  simp only [Function.comp_apply]
  split <;> rfl

theorem live_discard (db : Database) :
    liveRows now (Db.withoutExchange db e).pendingExchanges =
      (liveRows now db.pendingExchanges).filter fun row => !(row.exchangeId = e) := by
  unfold liveRows
  rw [Db.withoutExchange, List.filter_filter, List.filter_filter]
  exact List.filter_congr fun _ _ => Bool.and_comm _ _

end Database

/-- What is done for an exchange that has not expired does not see those that have. -/
theorem Statement.execute_names {s : Statement} {e : String} (names : s.Names e) {now : Clock}
    {db db' : Database} (same : db.Unpurged now db') (timely : db.Timely now e)
    (timely' : db'.Timely now e) :
    Option.Rel (fun a b => a.1 = b.1 ∧ a.2.Unpurged now b.2 ∧ a.2.Timely now e ∧ b.2.Timely now e)
      (s.execute db) (s.execute db') := by
  cases s with
  | selectExchange x =>
      obtain rfl : x = e := names
      refine .some ⟨?_, same, timely, timely'⟩
      change db.exchange x = db'.exchange x
      rw [timely.exchange, timely'.exchange, same.live]
  | updateResponderPubkey key x =>
      obtain rfl : x = e := names
      refine .some ⟨?_, ⟨?_, ?_⟩, timely.respond key, timely'.respond key⟩
      · change List.countP _ _ = List.countP _ _
        rw [timely.count, timely'.count, same.live]
      · dsimp only
        rw [Database.live_respond, Database.live_respond, same.live]
      · rw [same.rest]
        rfl
  | deleteExchange x =>
      obtain rfl : x = e := names
      refine .some ⟨?_, ⟨?_, ?_⟩, timely.discard, timely'.discard⟩
      · change List.countP _ _ = List.countP _ _
        rw [timely.count, timely'.count, same.live]
      · exact (db'.live_discard).trans ((congrArg _ same.live).trans (db.live_discard).symm)
      · rw [same.rest]
  | _ => exact absurd names id

/-- The worlds differ as above, and the statements to come fail alike. -/
structure InStep (A : AppState) (f : Nat → Bool) (w w' : World) : Prop where
  same : w.Unpurged w'
  fails : ∀ k, A.outside.fails (w.statements + k) = f (w'.statements + k)

theorem InStep.counted (step : InStep A f w w') {db db' : Database}
    (same : db.Unpurged w.clock db') :
    InStep A f { w.counted with db } { w'.counted with db := db' } where
  same := ⟨same, by rw [step.same.rest]; rfl⟩
  fails k := by
    have next := step.fails (k + 1)
    rwa [← Nat.add_assoc, ← Nat.add_assoc, Nat.add_right_comm, Nat.add_right_comm _ k] at next

theorem exec_sql_inStep (step : InStep A f w w') {s : Statement} {R : Database → Database → Prop}
    (unpurged : ∀ db db', R db db' → db.Unpurged w.clock db') (before : R w.db w'.db)
    (agree : Option.Rel (fun a b => a.1 = b.1 ∧ R a.2 b.2) (s.execute w.db) (s.execute w'.db)) :
    (exec A (.sql s) w).1 = (exec (A.failing f) (.sql s) w').1 ∧
      InStep A f (exec A (.sql s) w).2 (exec (A.failing f) (.sql s) w').2 ∧
      R (exec A (.sql s) w).2.db (exec (A.failing f) (.sql s) w').2.db := by
  have next : A.outside.fails w.statements = (A.failing f).outside.fails w'.statements :=
    step.fails 0
  simp only [exec, ← next]
  split
  · exact ⟨rfl, step.counted (unpurged _ _ before), before⟩
  · revert agree
    generalize s.execute w.db = after
    generalize s.execute w'.db = after'
    rintro (⟨answer, related⟩ | -)
    · exact ⟨congrArg some answer, step.counted (unpurged _ _ related), related⟩
    · exact ⟨rfl, step.counted (unpurged _ _ before), before⟩

/-- An operation that has nothing to do with exchanges does the same in both. -/
theorem exec_inStep (step : InStep A f w w') (op : Op) (part : op.part ≠ .exchanges)
    (quiet : op.looksUp = false) :
    (exec A op w).1 = (exec (A.failing f) op w').1 ∧
      InStep A f (exec A op w).2 (exec (A.failing f) op w').2 := by
  cases op with
  | sql s =>
      obtain ⟨answer, after, -⟩ := exec_sql_inStep step (fun _ _ h => h) step.same.db
        (s.execute_spares ⟨part, quiet⟩ step.same.db)
      exact ⟨answer, after⟩
  | forward session topic =>
      obtain ⟨⟨db, rest⟩, fails⟩ := step
      have alive : w'.live session = w.live session := by
        rw [rest]
        rfl
      cases lives : w.live session with
      | true =>
          simp only [exec, alive, lives, if_true]
          exact ⟨trivial, ⟨db, by rw [rest]⟩, fails⟩
      | false =>
          simp only [exec, alive, lives, Bool.false_eq_true, if_false]
          exact ⟨trivial, ⟨db, rest⟩, fails⟩
  | _ =>
      obtain ⟨⟨db, rest⟩, fails⟩ := step
      rw [rest]
      exact ⟨rfl, ⟨db, rfl⟩, fails⟩

abbrev AlikeRun (A : AppState) (f : Nat → Bool) (p : Handler α) (w w' : World) : Prop :=
  Prog.Coupled (exec A) (exec (A.failing f)) (InStep A f) p p w w'

theorem quiet_alikeRun {K : List Kind} {p : Handler α} (quiet : p.Uses (Quiet K))
    (spares : ∀ k ∈ K, k.part ≠ .exchanges) (step : InStep A f w w') : AlikeRun A f p w w' := by
  refine quiet.coupled (fun op quiet v v' step => exec_inStep step op ?_ quiet.2) step
  rcases quiet.1 with read | mem
  · unfold Op.part
    rw [read]
    decide
  · exact spares _ mem

theorem authorized_alikeRun {authorization : Option String} {g : String → Handler α}
    (step : InStep A f w w')
    (body : ∀ u, authUser A w.clock authorization = some u → AlikeRun A f (g u) w w') :
    AlikeRun A f (AuthUser.fromRequestParts authorization >>= g) w w' := by
  have keys : authUser (A.failing f) w.clock authorization = authUser A w.clock authorization := rfl
  unfold AlikeRun Prog.Coupled
  rw [Prog.run_bind, Prog.run_bind, fromRequestParts_run, fromRequestParts_run,
    step.same.clock, keys]
  cases auth : authUser A w.clock authorization with
  | none => exact ⟨rfl, step⟩
  | some u => exact body u auth

/-- The worlds are in step, and no row of exchange `e` has expired. -/
structure InStepOn (A : AppState) (f : Nat → Bool) (e : String) (w w' : World) : Prop where
  step : InStep A f w w'
  timely : w.db.Timely w.clock e
  timely' : w'.db.Timely w'.clock e

/-- An operation that has to do with no exchange but `e`. -/
def Op.On (e : String) (op : Op) : Prop :=
  (∃ s : Statement, op = .sql s ∧ s.Names e) ∨ ∃ topic message, op = .publishSystem topic message

theorem exec_on {e : String} {op : Op} (on : op.On e) (step : InStepOn A f e w w') :
    (exec A op w).1 = (exec (A.failing f) op w').1 ∧
      InStepOn A f e (exec A op w).2 (exec (A.failing f) op w').2 := by
  rcases on with ⟨s, rfl, names⟩ | ⟨topic, message, rfl⟩
  · have timely' : w'.db.Timely w.clock e := step.step.same.clock ▸ step.timely'
    obtain ⟨answer, after, -, timely, timely'⟩ := exec_sql_inStep step.step
      (R := fun db db' => db.Unpurged w.clock db' ∧ db.Timely w.clock e ∧ db'.Timely w.clock e)
      (fun _ _ h => h.1) ⟨step.step.same.db, step.timely, timely'⟩
      (s.execute_names names step.step.same.db step.timely timely')
    refine ⟨answer, after, ?_, ?_⟩
    · rw [exec_clock]
      exact timely
    · rw [exec_clock, step.step.same.clock]
      exact timely'
  · obtain ⟨answer, after⟩ := exec_inStep step.step (.publishSystem topic message) nofun rfl
    exact ⟨answer, after, step.timely, step.timely'⟩

theorem sql_on {e : String} {s : Statement} (names : s.Names e) : (sql s).Uses (Op.On e) := by
  refine ⟨Or.inl ⟨s, rfl, names⟩, fun x => ?_⟩
  cases x <;> trivial

/-- What is done for `e` after its row has been read does the same in both, if the row
has been found unexpired or not at all. -/
theorem getExchange_alikeRun {e : String} {g : PendingExchange → Handler α}
    (uses : ∀ row, (g row).Uses (Op.On e)) (step : InStep A f w w')
    (timely : A.outside.fails w.statements = false →
      w.db.Timely w.clock e ∧ w'.db.Timely w'.clock e) :
    AlikeRun A f (Db.getExchange e >>= g) w w' := by
  have next : A.outside.fails w.statements = (A.failing f).outside.fails w'.statements :=
    step.fails 0
  cases failed : A.outside.fails w.statements with
  | true =>
      unfold AlikeRun Prog.Coupled
      rw [Prog.run_bind, Prog.run_bind, Db.getExchange_run, Db.getExchange_run, ← next, failed]
      exact ⟨rfl, step.counted step.same.db⟩
  | false =>
      obtain ⟨timely, timely'⟩ := timely failed
      have whole : (Db.getExchange e >>= g).Uses (Op.On e) := by
        refine .bind (.bind (sql_on (s := .selectExchange e) rfl) fun row => ?_) uses
        cases row <;> trivial
      have ran : Prog.Coupled (exec A) (exec (A.failing f)) (InStepOn A f e)
          (Db.getExchange e >>= g) (Db.getExchange e >>= g) w w' :=
        whole.coupled (fun _ on _ _ step => exec_on on step) ⟨step, timely, timely'⟩
      exact ⟨ran.1, ran.2.step⟩

/-- The next id names no stored exchange. -/
def ExchangeIdFree (A : AppState) (w : World) : Prop :=
  ∀ e ∈ w.db.pendingExchanges, e.exchangeId ≠ A.outside.uuid w.draws

theorem createExchange_alikeRun (initiatorId responderId : String) (key : List UInt8)
    (step : InStep A f w w') (free : ExchangeIdFree A w) (free' : ExchangeIdFree A w') :
    AlikeRun A f (Db.createExchange initiatorId responderId key) w w' := by
  have draws : w'.draws = w.draws := by rw [step.same.rest]
  let rowIn (B : AppState) (v : World) : PendingExchange := ⟨B.outside.uuid v.draws, initiatorId,
    responderId, key, none, asI64 v.clock.secs, asI64 (addU64 v.clock.secs Db.exchangeTtlSecs)⟩
  have stored (B : AppState) (v : World) :
      (Db.createExchange initiatorId responderId key).run (exec B) v =
        (sql (.insertExchange (rowIn B v)) >>= fun _ =>
          (pure (rowIn B v) : Handler PendingExchange)).run
            (exec B) { v with draws := v.draws + 1 } := rfl
  have sameRow : rowIn (A.failing f) w' = rowIn A w := by
    simp only [rowIn, draws, step.same.clock]
    rfl
  have unused {rows : List PendingExchange}
      (free : ∀ e ∈ rows, e.exchangeId ≠ A.outside.uuid w.draws) :
      (rows.any fun e => e.exchangeId = (rowIn A w).exchangeId) = false :=
    List.any_eq_false.mpr fun e mem => by simpa using free e mem
  have drawn : InStep A f { w with draws := w.draws + 1 } { w' with draws := w'.draws + 1 } :=
    ⟨⟨step.same.db, by rw [step.same.rest]⟩, step.fails⟩
  have users : w'.db.hasUser (rowIn A w).initiatorId = w.db.hasUser (rowIn A w).initiatorId := by
    rw [step.same.db.rest]
    rfl
  have appended : ({ w.db with pendingExchanges := w.db.pendingExchanges ++ [rowIn A w] } :
      Database).Unpurged w.clock
        { w'.db with pendingExchanges := w'.db.pendingExchanges ++ [rowIn A w] } := by
    refine ⟨?_, by rw [step.same.db.rest]⟩
    simp only [liveRows, List.filter_append]
    exact congrArg (· ++ _) step.same.db.live
  have agree : Statement.Agree w.clock ((Statement.insertExchange (rowIn A w)).execute w.db)
      ((Statement.insertExchange (rowIn A w)).execute w'.db) := by
    simp only [Statement.execute, unused free, unused fun e mem => draws ▸ free' e mem, users,
      Bool.false_or]
    exact .insert _ ⟨rfl, appended⟩
  obtain ⟨answer, after, -⟩ := exec_sql_inStep drawn (fun _ _ h => h) drawn.same.db agree
  unfold AlikeRun Prog.Coupled
  rw [stored, stored, sameRow]
  refine Prog.Coupled.bind (R := InStep A f) ?_ fun _ _ _ step => ⟨rfl, step⟩
  unfold sql Prog.Coupled
  rw [Prog.run_call, Prog.run_call, ← answer]
  cases (exec A (.sql (.insertExchange (rowIn A w))) { w with draws := w.draws + 1 }).1 <;>
    exact ⟨rfl, after⟩

/-- The header and the exchange of a call that reads an exchange. -/
def Call.lookup : Call → Option (Option String × String)
  | .getExchange authorization e => some (authorization, e)
  | .respondExchange authorization e _ => some (authorization, e)
  | _ => none

/-- An authenticated call asks for a stored exchange that has expired, and is answered. -/
def ReadsExpired (A : AppState) (w : World) (c : Call) : Prop :=
  ∃ authorization e row, c.lookup = some (authorization, e) ∧
    (authUser A w.clock authorization).isSome = true ∧ A.outside.fails w.statements = false ∧
      w.db.exchange e = some row ∧ row.expired w.clock = true

theorem handle_alikeRun {c : Call} (other : c ≠ .purge) (step : InStep A f w w')
    (free : ExchangeIdFree A w) (free' : ExchangeIdFree A w')
    (timely : ∀ authorization e, c.lookup = some (authorization, e) →
      (authUser A w.clock authorization).isSome = true → A.outside.fails w.statements = false →
        w.db.Timely w.clock e ∧ w'.db.Timely w'.clock e) :
    AlikeRun A f (handle A c) w w' := by
  have reply {α : Type} {p : Handler α} (g : α → Reply) (body : AlikeRun A f p w w') :
      AlikeRun A f (Prog.reply p g) w w' := body.bind fun _ _ _ step => ⟨rfl, step⟩
  have quiet (looks : c.looksUp = false) (spares : ∀ k ∈ c.footprint, k.part ≠ .exchanges) :
      AlikeRun A f (handle A c) w w' := quiet_alikeRun (handle_quiet A c looks) spares step
  cases c with
  | purge => exact absurd rfl other
  | initiateExchange authorization req =>
      refine reply _ (authorized_alikeRun step fun u _ => ?_)
      have looked : Prog.Coupled (exec A) (exec (A.failing f))
          (fun v v' => InStep A f v v' ∧ ExchangeIdFree A v ∧ ExchangeIdFree A v')
          (Db.getUser req.peerId) (Db.getUser req.peerId) w w' := by
        obtain ⟨same, after⟩ := quiet_alikeRun (Db.getUser_quiet (K := []) req.peerId) (by decide)
          step
        refine ⟨same, after, ?_, ?_⟩
        · rw [Db.getUser_run]
          exact free
        · rw [Db.getUser_run]
          exact free'
      refine looked.seq (fun _ _ h => h.1) fun _ v v' ⟨step, free, free'⟩ => ?_
      cases Exchange.decodePubkey A req.ephemeralPubkey with
      | error e => exact ⟨rfl, step⟩
      | ok key =>
          refine (createExchange_alikeRun u req.peerId key step free free').bind
            fun row v v' step => ?_
          exact quiet_alikeRun (.bind (Broker.publishSystem_quiet (K := [.publishSystem])
            List.mem_cons_self _ _) fun _ => trivial) (by decide) step
  | getExchange authorization e =>
      refine reply _ (authorized_alikeRun step fun u auth => ?_)
      refine getExchange_alikeRun (fun row => ?_) step
        (timely authorization e rfl (by rw [auth]; rfl))
      split
      · trivial
      · dsimp only
        split
        · exact .bind (.attempt (.bind (sql_on (s := .deleteExchange e) rfl) fun _ => trivial))
            fun _ => trivial
        · trivial
  | respondExchange authorization e req =>
      refine reply _ (authorized_alikeRun step fun u auth => ?_)
      refine getExchange_alikeRun (fun row => ?_) step
        (timely authorization e rfl (by rw [auth]; rfl))
      split
      · trivial
      · split
        · trivial
        · refine .bind ?_ fun pubkey => .bind (.bind (sql_on
            (s := .updateResponderPubkey pubkey e) rfl) fun rows => ?_) fun _ => ?_
          · cases Exchange.decodePubkey A req.ephemeralPubkey <;> trivial
          · split <;> trivial
          · exact ⟨Or.inr ⟨_, _, rfl⟩, fun _ => trivial⟩
  | _ => exact quiet rfl (by simp [Call.footprint, Kind.part])

theorem World.Unpurged.trans {v : World} (first : w.Unpurged v) (second : v.Unpurged w') :
    w.Unpurged w' where
  db := ⟨(first.clock ▸ second.db.live).trans first.db.live, by
    rw [second.db.rest, first.db.rest]⟩
  rest := by rw [second.rest, first.rest]

/-- A sweep removes nothing but what has expired. -/
theorem purge_unpurged (A : AppState) (w : World) :
    w.Unpurged ((handle A .purge).run (exec A) w).2 := by
  have swept : ((handle A .purge).run (exec A) w).2 =
      (exec A (.sql (.purgeExchanges w.clock.secs)) w).2 := by
    have look : Db.purgeExpiredExchanges.run (exec A) w =
        (sql (.purgeExchanges (asI64 w.clock.secs))).run (exec A) w := rfl
    rw [handle, reply_run, look, Clock.asI64_secs]
    unfold sql
    rw [Prog.run_call]
    cases (exec A (.sql (.purgeExchanges w.clock.secs)) w).1 <;> rfl
  rw [swept]
  rcases exec_sql_cases A w (.purgeExchanges w.clock.secs) with h | ⟨x, db, -, executed, h⟩
  · rw [h]
    exact ⟨.refl _ _, rfl⟩
  · rw [h]
    obtain ⟨-, rfl⟩ := Prod.mk.inj (Option.some.inj executed)
    refine ⟨⟨?_, rfl⟩, rfl⟩
    simp only [liveRows, List.filter_filter, PendingExchange.expired, Bool.and_self]

/-- What has expired stays so. -/
theorem live_later {now later : Clock} (le : now.secs ≤ later.secs) (rows : List PendingExchange) :
    liveRows later (liveRows now rows) = liveRows later rows := by
  rw [liveRows, liveRows, liveRows, List.filter_filter]
  refine List.filter_congr fun row _ => ?_
  have still : row.expired now = true → row.expired later = true := by
    simp only [PendingExchange.expired, decide_eq_true_eq]
    omega
  cases expired : row.expired now with
  | true => simp [still expired]
  | false => simp

theorem World.Unpurged.environment (same : w.Unpurged w') (x : Env) :
    (environment x w).Unpurged (environment x w') := by
  cases x with
  | sign key message => exact same
  | tick seconds =>
      refine ⟨⟨?_, same.db.rest⟩, ?_⟩
      · have le := w.clock.le_advance seconds
        change liveRows (w.clock.advance seconds) w'.db.pendingExchanges =
          liveRows (w.clock.advance seconds) w.db.pendingExchanges
        rw [← live_later le, same.db.live, live_later le]
      · rw [same.rest]
        rfl

def Step.isPurge (e : Step) : Bool := e.action = .call .purge

/-- The steps of a run other than its sweeps. -/
def unswept (h : Log) : Log := h.filter fun e => !Step.isPurge e

/-- Which of the statements of a step have failed. -/
def Step.failures (A : AppState) (e : Step) : List Bool :=
  (List.range (e.after.statements - e.before.statements)).map fun k =>
    A.outside.fails (e.before.statements + k)

/-- The same request, with the same failures, or the same step of the environment. -/
structure SameStep (A A' : AppState) (e e' : Step) : Prop where
  action : e'.action = e.action
  failures : Step.failures A' e' = Step.failures A e

/-- The step asks for a stored exchange that has expired. -/
def Step.ReadsExpired (A : AppState) (e : Step) : Prop :=
  ∃ c, e.action = .call c ∧ Smqtt.ReadsExpired A e.before c

/-- What the step returns of an exchange has not expired. -/
def Step.ServesUnexpired (e : Step) : Prop :=
  ∀ c x, e.action = .call c → c.lookup.isSome = true → e.response = some (.ok (.exchange x)) →
    ∀ row ∈ e.before.db.pendingExchanges, row.exchangeId = x.exchangeId →
      (e.before.clock.secs : Int) ≤ row.expiresAt

section
variable {h h' : Log} {allowed allowed' : Assumption World Action (Option (Except Error Reply))}

theorem run_exchangeIdFree (fresh : FreshIds A) (run : AtomicRun A allowed h w) :
    ExchangeIdFree A w := by
  obtain ⟨k, s, pool, rfl⟩ := (server A).atomic_simulated (run.weaken fun _ _ _ _ => trivial)
  exact fun row mem => next_exchange_id_free fresh pool mem

theorem timely_of_found {db : Database} (sound : db.Integrity) {now : Clock} {e : String}
    (unexpired : ∀ row, db.exchange e = some row → row.expired now = false) : db.Timely now e := by
  intro row mem named
  cases found : db.exchange e with
  | none => exact absurd named (by simpa using List.find?_eq_none.mp found row mem)
  | some row' =>
      obtain ⟨mem', named'⟩ := find_exchange found
      rw [sound.exchange_eq mem mem' (named.trans named'.symm)]
      exact unexpired row' found

/-- An authenticated call that reads an exchange makes a statement. -/
theorem lookup_counts {c : Call} {authorization : Option String} {e : String}
    (lookup : c.lookup = some (authorization, e))
    (auth : (authUser A w.clock authorization).isSome = true) :
    w.statements < ((handle A c).run (exec A) w).2.statements := by
  obtain ⟨u, auth⟩ := Option.isSome_iff_exists.mp auth
  have counts {α : Type} (g : PendingExchange → Handler α) :
      w.statements < ((Db.getExchange e >>= g).run (exec A) w).2.statements := by
    obtain ⟨r, run⟩ : ∃ r, (Db.getExchange e).run (exec A) w = (r, w.counted) :=
      ⟨_, Db.getExchange_run e⟩
    rw [Prog.run_bind, run]
    cases r with
    | error err => exact Nat.lt_succ_self _
    | ok row => exact run_statements_le (A := A) (w := w.counted) (g row)
  cases c with
  | getExchange a x =>
      obtain ⟨rfl, rfl⟩ := Prod.mk.inj (Option.some.inj lookup)
      rw [handle, reply_run]
      unfold Exchange.get
      rw [Prog.run_bind, fromRequestParts_run, auth]
      exact counts _
  | respondExchange a x req =>
      obtain ⟨rfl, rfl⟩ := Prod.mk.inj (Option.some.inj lookup)
      rw [handle, reply_run]
      unfold Exchange.respond
      rw [Prog.run_bind, fromRequestParts_run, auth]
      exact counts _
  | _ => cases lookup

/-- The same call in both runs answers alike and keeps the worlds alike. -/
theorem call_unpurged {c : Call} (other : c ≠ .purge) (same : w.Unpurged w')
    (sound : w.db.Integrity) (sound' : w'.db.Integrity) (free : ExchangeIdFree A w)
    (free' : ExchangeIdFree A w')
    (step : SameStep A (A.failing f) ((server A).atomic.entry w (.call c))
      ((server (A.failing f)).atomic.entry w' (.call c)))
    (timely : ¬ReadsExpired A w c) (timely' : ¬ReadsExpired (A.failing f) w' c) :
    ((handle A c).run (exec A) w).1 = ((handle A c).run (exec (A.failing f)) w').1 ∧
      ((handle A c).run (exec A) w).2.Unpurged ((handle A c).run (exec (A.failing f)) w').2 := by
  -- the failures that `A` would give to the statements of the second run
  let g : Nat → Bool := fun n => A.outside.fails (w.statements + (n - w'.statements))
  have failures : Step.failures (A.failing f) _ = Step.failures A _ := step.failures
  have alike (k : Nat) (lt : w'.statements + k <
      ((handle A c).run (exec (A.failing f)) w').2.statements) :
      f (w'.statements + k) = A.outside.fails (w.statements + k) := by
    have lengths := congrArg List.length failures
    simp only [Step.failures, List.length_map, List.length_range] at lengths
    have at_k := congrArg (fun l => l[k]?) failures
    simp only [Step.failures, List.getElem?_map] at at_k
    rw [List.getElem?_range (Nat.lt_sub_of_add_lt (by rwa [Nat.add_comm] at lt)),
      List.getElem?_range (lengths ▸ Nat.lt_sub_of_add_lt (by rwa [Nat.add_comm] at lt))] at at_k
    exact Option.some.inj at_k
  have window : (handle A c).run (exec (A.failing g)) w' =
      (handle A c).run (exec (A.failing f)) w' := by
    refine run_failing (A := A.failing f) (f := g) fun n le lt => ?_
    have inside := alike (n - w'.statements) (by omega)
    rw [Nat.add_sub_cancel' le] at inside
    exact inside.symm
  have inStep : InStep A g w w' :=
    ⟨same, fun k => by simp only [g, Nat.add_sub_cancel_left]⟩
  have ran := handle_alikeRun other inStep free free' ?_
  · unfold AlikeRun Prog.Coupled at ran
    rw [window] at ran
    exact ⟨ran.1, ran.2.same⟩
  · intro authorization e lookup auth answered
    have auth' : (authUser (A.failing f) w'.clock authorization).isSome = true := by
      rw [same.clock]
      exact auth
    have answered' : f w'.statements = false := by
      have first := alike 0 (lookup_counts (A := A.failing f) lookup auth')
      exact first.trans answered
    refine ⟨timely_of_found sound fun row found => ?_, timely_of_found sound' fun row found => ?_⟩
    · exact Bool.eq_false_of_not_eq_true fun expired =>
        timely ⟨authorization, e, row, lookup, auth, answered, found, expired⟩
    · exact Bool.eq_false_of_not_eq_true fun expired =>
        timely' ⟨authorization, e, row, lookup, auth', answered', found, expired⟩

theorem unswept_purge : unswept (h ++ [(server A).atomic.entry w (.call .purge)]) = unswept h := by
  simp [unswept, Step.isPurge]

theorem unswept_other {a : Action} (other : a ≠ .call .purge) :
    unswept (h ++ [(server A).atomic.entry w a]) =
      unswept h ++ [(server A).atomic.entry w a] := by
  simp [unswept, Step.isPurge, other]

theorem forall₂_snoc {β γ : Type} {R : β → γ → Prop} {l : List β} {l' : List γ} {a : β} {b : γ} :
    List.Forall₂ R (l ++ [a]) (l' ++ [b]) ↔ List.Forall₂ R l l' ∧ R a b := by
  rw [← List.forall₂_reverse_iff, List.reverse_append, List.reverse_append,
    List.reverse_singleton, List.reverse_singleton, List.singleton_append, List.singleton_append,
    List.forall₂_cons, List.forall₂_reverse_iff, and_comm]

/-- The worlds that the two runs reach, and what has been answered on the way. -/
structure Matched (h h' : Log) (w w' : World) : Prop where
  worlds : w.Unpurged w'
  responses : List.Forall₂ (fun e e' : Step => e'.response = e.response) (unswept h) (unswept h')

theorem Matched.purge_left (matched : Matched h h' w w') :
    Matched (h ++ [(server A).atomic.entry w (.call .purge)]) h'
      ((handle A .purge).run (exec A) w).2 w' where
  worlds := (purge_unpurged A w).symm.trans matched.worlds
  responses := by
    rw [unswept_purge]
    exact matched.responses

theorem Matched.purge_right (matched : Matched h h' w w') :
    Matched h (h' ++ [(server A).atomic.entry w' (.call .purge)]) w
      ((handle A .purge).run (exec A) w').2 where
  worlds := matched.worlds.trans (purge_unpurged A w')
  responses := by
    rw [unswept_purge]
    exact matched.responses

/-- A step that is no sweep, taken in both runs. -/
theorem Matched.step (fresh : FreshIds A) (matched : Matched h h' w w')
    (run : AtomicRun A allowed h w) (run' : AtomicRun (A.failing f) allowed' h' w') {a a' : Action}
    (other : a ≠ .call .purge)
    (same : SameStep A (A.failing f) ((server A).atomic.entry w a)
      ((server (A.failing f)).atomic.entry w' a'))
    (timely : ¬Step.ReadsExpired A ((server A).atomic.entry w a))
    (timely' : ¬Step.ReadsExpired (A.failing f) ((server (A.failing f)).atomic.entry w' a')) :
    Matched (h ++ [(server A).atomic.entry w a]) (h' ++ [(server (A.failing f)).atomic.entry w' a'])
      ((server A).atomic.entry w a).after ((server (A.failing f)).atomic.entry w' a').after := by
  obtain rfl : a' = a := same.action
  have answers : ((server (A.failing f)).atomic.entry w' a').response =
      ((server A).atomic.entry w a').response ∧
      ((server A).atomic.entry w a').after.Unpurged
        ((server (A.failing f)).atomic.entry w' a').after := by
    cases a' with
    | env x => exact ⟨rfl, matched.worlds.environment x⟩
    | call c =>
        obtain ⟨response, worlds⟩ := call_unpurged (fun purge => other (congrArg _ purge))
          matched.worlds (run_integrity run) (run_integrity run') (run_exchangeIdFree fresh run)
          (run_exchangeIdFree (A := A.failing f) fresh run') same
          (fun reads => timely ⟨c, rfl, reads⟩) (fun reads => timely' ⟨c, rfl, reads⟩)
        exact ⟨congrArg some response.symm, worlds⟩
  refine ⟨answers.2, ?_⟩
  rw [unswept_other other, unswept_other other]
  exact forall₂_snoc.mpr ⟨matched.responses, answers.1⟩

theorem last_step (run : AtomicRun A allowed h w) :
    (h = [] ∧ w = World.boot A) ∨ ∃ k v a, h = k ++ [(server A).atomic.entry v a] ∧
      AtomicRun A allowed k v ∧ w = ((server A).atomic.entry v a).after := by
  rcases List.eq_nil_or_concat' h with rfl | ⟨k, e, rfl⟩
  · exact Or.inl ⟨rfl, run.nil_inv⟩
  · obtain ⟨prior, -, shape, rfl⟩ := run.snoc_inv
    exact Or.inr ⟨k, e.before, e.action, by rw [← shape], prior, by rw [← shape]⟩

/-- Induction on the length of both runs, by their last steps: a sweep is a step of one
run only, and every other step has its partner in the other run. -/
theorem matched (fresh : FreshIds A) (run : AtomicRun A allowed h w)
    (run' : AtomicRun (A.failing f) allowed' h' w')
    (same : List.Forall₂ (SameStep A (A.failing f)) (unswept h) (unswept h'))
    (timely : ∀ e ∈ h, ¬Step.ReadsExpired A e)
    (timely' : ∀ e ∈ h', ¬Step.ReadsExpired (A.failing f) e) : Matched h h' w w' := by
  generalize steps : h.length + h'.length = n
  induction n using Nat.strong_induction_on generalizing h h' w w' with
  | _ n ih =>
      subst steps
      have right {k' : Log} {v' : World} (prior' : AtomicRun (A.failing f) allowed' k' v')
          (last : h' = k' ++ [(server (A.failing f)).atomic.entry v' (.call .purge)])
          (after : w' = ((server (A.failing f)).atomic.entry v' (.call .purge)).after) :
          Matched h h' w w' := by
        subst last after
        rw [unswept_purge] at same
        exact (ih _ (by simp) run prior' same timely
          (fun e he => timely' e (List.mem_append_left _ he)) rfl).purge_right
      rcases last_step run with ⟨rfl, rfl⟩ | ⟨k, v, a, rfl, prior, rfl⟩
      · rcases last_step run' with ⟨rfl, rfl⟩ | ⟨k', v', a', rfl, prior', rfl⟩
        · exact ⟨⟨.refl _ _, rfl⟩, .nil⟩
        · by_cases purge' : a' = .call .purge
          · subst purge'
            exact right prior' rfl rfl
          · rw [unswept_other purge'] at same
            exact absurd (List.forall₂_nil_left_iff.mp same) (by simp)
      · by_cases purge : a = .call .purge
        · subst purge
          rw [unswept_purge] at same
          exact (ih _ (by simp) prior run' same
            (fun e he => timely e (List.mem_append_left _ he)) timely' rfl).purge_left
        · rcases last_step run' with ⟨rfl, rfl⟩ | ⟨k', v', a', rfl, prior', rfl⟩
          · rw [unswept_other purge] at same
            exact absurd (List.forall₂_nil_right_iff.mp same) (by simp)
          · by_cases purge' : a' = .call .purge
            · subst purge'
              exact right prior' rfl rfl
            · rw [unswept_other purge, unswept_other purge'] at same
              obtain ⟨before, here⟩ := forall₂_snoc.mp same
              have prior_matched := ih _ (by simp; omega) prior prior' before
                (fun e he => timely e (List.mem_append_left _ he))
                (fun e he => timely' e (List.mem_append_left _ he)) rfl
              exact prior_matched.step fresh prior prior' purge here
                (timely _ (List.mem_append_right _ (List.mem_singleton_self _)))
                (timely' _ (List.mem_append_right _ (List.mem_singleton_self _)))

/-- What a step returns of an exchange, it has read. -/
theorem serves_unexpired (run : AtomicRun A allowed h w) {e : Step} (he : e ∈ h)
    (timely : ¬Step.ReadsExpired A e) : Step.ServesUnexpired e := by
  intro c x action lookup response row mem named
  obtain ⟨answer, -⟩ := step_shape run he action
  rw [response] at answer
  have answer := Option.some.inj answer
  have sound : e.before.db.Integrity := by
    obtain ⟨h₁, h₂, rfl⟩ := List.append_of_mem he
    exact run_integrity run.cut.1
  -- the row that the call has found
  have unexpired {authorization : Option String} {id : String} {found : PendingExchange}
      (lookup : c.lookup = some (authorization, id))
      (auth : (authUser A e.before.clock authorization).isSome = true)
      (answered : A.outside.fails e.before.statements = false)
      (stored : e.before.db.exchange id = some found) (same : x.exchangeId = found.exchangeId) :
      (e.before.clock.secs : Int) ≤ row.expiresAt := by
    rw [sound.exchange_eq mem (find_exchange stored).1 (named.trans same)]
    by_contra late
    refine timely ⟨c, action, authorization, id, found, lookup, auth, answered, stored, ?_⟩
    exact decide_eq_true (Int.not_le.mp late)
  have authorized {authorization : Option String} (header : c.authorization = some authorization) :
      ∃ u, authUser A e.before.clock authorization = some u := by
    cases auth : authUser A e.before.clock authorization with
    | some u => exact ⟨u, rfl⟩
    | none =>
        rw [handle_unauthorized header auth] at answer
        cases answer
  cases c with
  | getExchange authorization id =>
      obtain ⟨u, auth⟩ := authorized rfl
      rw [handle, reply_run] at answer
      rcases Exchange.get_cases (A := A) auth id with
        ⟨found, v, ran, answered, stored, -⟩ | ⟨err, v, ran, -⟩
      · rw [ran] at answer
        obtain rfl := Reply.exchange.inj (Except.ok.inj answer)
        exact unexpired rfl (by rw [auth]; rfl) answered stored rfl
      · rw [ran] at answer
        cases answer
  | respondExchange authorization id req =>
      obtain ⟨u, auth⟩ := authorized rfl
      rw [handle, reply_run] at answer
      rcases Exchange.respond_cases (A := A) auth id req with
        ⟨found, key, v, ran, answered, stored, -⟩ | ⟨err, v, ran, -⟩
      · rw [ran] at answer
        obtain rfl := Reply.exchange.inj (Except.ok.inj answer)
        exact unexpired rfl (by rw [auth]; rfl) answered stored rfl
      · rw [ran] at answer
        cases answer
  | _ => cases lookup

/-- While nobody authenticated asks for an expired row, the schedule of the sweep cannot
be told from the answers, and no answer is of an expired row. -/
theorem purge_unobservable (fresh : FreshIds A) (run : AtomicRun A allowed h w)
    (run' : AtomicRun (A.failing f) allowed' h' w')
    (same : List.Forall₂ (SameStep A (A.failing f)) (unswept h) (unswept h'))
    (timely : ∀ e ∈ h, ¬Step.ReadsExpired A e)
    (timely' : ∀ e ∈ h', ¬Step.ReadsExpired (A.failing f) e) :
    List.Forall₂ (fun e e' : Step => e'.response = e.response) (unswept h) (unswept h') ∧
      ∀ e ∈ h, Step.ServesUnexpired e :=
  ⟨(matched fresh run run' same timely timely').responses,
    fun _ he => serves_unexpired run he (timely _ he)⟩

end

section
open Deployment

/-- The statuses of the answers, in order. -/
def statuses (h : Log) : List (Option Nat) :=
  h.map fun e => e.response.map fun
    | .ok _ => 200
    | .error e => e.intoResponse.1

theorem sameSteps_of_map {A' : AppState} {h h' : Log}
    (eq : (h.map fun e => (e.action, Step.failures A e)) =
      h'.map fun e => (e.action, Step.failures A' e)) : List.Forall₂ (SameStep A A') h h' := by
  have pairs := List.forall₂_map_right_iff.mp (List.forall₂_map_left_iff.mp
    (List.forall₂_eq_eq_eq ▸ eq))
  refine pairs.imp fun e e' same => ?_
  obtain ⟨action, failures⟩ := Prod.mk.inj same
  exact ⟨action.symm, failures.symm⟩

/-- The first user has asked the second for an exchange, some time passes and the second
logs in. -/
def awaited (seconds : Nat) : List Action :=
  [register 0, register 1, challenge "0", verify "0" "1" 0 4,
    .call (.initiateExchange (bearer (token "0" "1" 100 [] []))
      ⟨"2", Base64Url.encode (Deployment.key 8)⟩),
    .env (.tick seconds), challenge "2", verify "2" "3" 1 6]

/-- The second user asks for the row, without and with a sweep before. -/
def lookedAt (seconds : Nat) (sweeps : List Action) : List Action :=
  awaited seconds ++ sweeps ++
    [.call (.getExchange (bearer (token "2" "3" (100 + seconds) [] [])) "5")]

private theorem week_facts : Honest (lookedAt 604801 []) ∧
    Honest (lookedAt 604801 [.call .purge]) ∧
    ((unswept (history (lookedAt 604801 []))).map fun e => (e.action, Step.failures app e)) =
      ((unswept (history (lookedAt 604801 [.call .purge]))).map fun e =>
        (e.action, Step.failures app e)) ∧
    statuses (unswept (history (lookedAt 604801 []))) ≠
      statuses (unswept (history (lookedAt 604801 [.call .purge]))) ∧
    ((history (lookedAt 604801 [])).any fun e =>
      match e.action, e.response with
      | .call (.getExchange _ _), some (.ok (.exchange x)) => e.before.db.pendingExchanges.any
          fun row => row.exchangeId = x.exchangeId && row.expiresAt < e.before.clock.secs
      | _, _ => false) = true := by
  decide +kernel

private theorem hour_facts : Honest (lookedAt 3600 []) ∧ Honest (lookedAt 3600 [.call .purge]) ∧
    ((unswept (history (lookedAt 3600 []))).map fun e => (e.action, Step.failures app e)) =
      ((unswept (history (lookedAt 3600 [.call .purge]))).map fun e =>
        (e.action, Step.failures app e)) ∧
    (∀ e ∈ history (lookedAt 3600 []), ∀ row ∈ e.before.db.pendingExchanges,
      row.expired e.before.clock = false) ∧
    ∀ e ∈ history (lookedAt 3600 [.call .purge]), ∀ row ∈ e.before.db.pendingExchanges,
      row.expired e.before.clock = false := by
  decide +kernel

theorem not_readsExpired {e : Step}
    (unexpired : ∀ row ∈ e.before.db.pendingExchanges, row.expired e.before.clock = false) :
    ¬Step.ReadsExpired A e := by
  rintro ⟨c, -, authorization, id, row, -, -, -, found, expired⟩
  rw [unexpired row (find_exchange found).1] at expired
  cases expired

/-- Within the hour a sweep changes nothing. -/
theorem purge_unobservable_hour :
    List.Forall₂ (fun e e' : Step => e'.response = e.response)
      (unswept (history (lookedAt 3600 []))) (unswept (history (lookedAt 3600 [.call .purge]))) ∧
    ∀ e ∈ history (lookedAt 3600 []), Step.ServesUnexpired e := by
  obtain ⟨honest, honest', same, unexpired, unexpired'⟩ := hour_facts
  exact purge_unobservable (f := fun _ => false) freshIds (run_history honest)
    (run_history honest') (sameSteps_of_map same)
    (fun e he => not_readsExpired (unexpired e he)) fun e he => not_readsExpired (unexpired' e he)

/-- After a week a sweep decides whether the second user finds the row, and without one
he is shown the key that has expired. -/
theorem not_purge_unobservable :
    (¬∀ A f h h' w w', FreshIds A → AtomicRun A (Unforged A) h w →
      AtomicRun (A.failing f) (Unforged (A.failing f)) h' w' →
        List.Forall₂ (SameStep A (A.failing f)) (unswept h) (unswept h') →
          List.Forall₂ (fun e e' : Step => e'.response = e.response) (unswept h) (unswept h')) ∧
    ¬∀ A h w, FreshIds A → AtomicRun A (Unforged A) h w → ∀ e ∈ h, Step.ServesUnexpired e := by
  obtain ⟨honest, honest', same, differ, serves⟩ := week_facts
  constructor
  · intro unobservable
    have answers := unobservable app (fun _ => false) _ _ _ _ freshIds (run_history honest)
      (run_history honest') (sameSteps_of_map same)
    refine differ ?_
    unfold statuses
    rw [← List.forall₂_eq_eq_eq, List.forall₂_map_left_iff, List.forall₂_map_right_iff]
    exact answers.imp fun e e' answer => by rw [answer]
  · intro unexpired
    obtain ⟨e, he, shown⟩ := List.any_eq_true.mp serves
    split at shown
    · rename_i authorization id x action response
      obtain ⟨row, mem, holds⟩ := List.any_eq_true.mp shown
      obtain ⟨named, late⟩ := (Bool.and_eq_true _ _).mp holds
      have early := unexpired app _ _ freshIds (run_history honest) e he _ x action rfl response row
        mem (of_decide_eq_true named)
      have late := of_decide_eq_true late
      omega
    · cases shown

end

end Smqtt
