import Smqtt.Runs.Exchanges
import Smqtt.Runs.Schedules

/-!
Agreement of the two parties of a key exchange. `respond` reads the row, decides
that it is still unanswered and only then writes, so two responds that overlap
both succeed and the second overwrites the key of the first. In runs in which no
write finds a key already there, a respond that succeeded is the only one, and
every key the initiator gets is the one it returned.
-/

namespace Smqtt

open AtomicSteps System

/-- Thread `i` has returned success to a respond. -/
def Responded (s : Threads) (i : Nat) (e : String) (response : Exchange.ExchangeResponse) : Prop :=
  ∃ authorization req,
    s.threads[i]? = some (.respondExchange authorization e req, .done (.exchange response))

/-- Thread `i` has returned success to a get. -/
def Got (s : Threads) (i : Nat) (e : String) (response : Exchange.ExchangeResponse) : Prop :=
  ∃ authorization, s.threads[i]? = some (.getExchange authorization e, .done (.exchange response))

/-- Key agreement: one respond succeeds, what a get returns agrees with it, and a
key once there never changes. -/
structure Agreement (h : PoolLog) (s : Threads) : Prop where
  once : ∀ i j e x y, Responded s i e x → Responded s j e y → i = j
  same : ∀ i j e x y, Responded s i e x → Got s j e y → y.responderPubkey ≠ none →
    y.responderPubkey = x.responderPubkey ∧ y.initiatorPubkey = x.initiatorPubkey
  settled : ∀ entry ∈ h, ∀ row ∈ entry.before.world.db.pendingExchanges,
    ∀ row' ∈ s.world.db.pendingExchanges, row.exchangeId = row'.exchangeId →
      row.responderPubkey ≠ none → row'.responderPubkey = row.responderPubkey

/-- No key is written over another. -/
def Uncontested (A : AppState) : Scheduling := fun _ s a =>
  match a with
  | .step i =>
      match s.threads[i]? with
      | some (_, .call (.sql (.updateResponderPubkey _ e)) _) =>
          A.outside.fails s.world.statements = true ∨
            ∀ row ∈ s.world.db.pendingExchanges, row.exchangeId = e → row.responderPubkey = none
      | _ => True
  | _ => True

variable {A : AppState} {h : PoolLog} {s : Threads} {i j m n : Nat} {e : String}
  {key key' : List UInt8}

/-- All rows with this id have this key. -/
def Keyed (e : String) (key : List UInt8) (w : World) : Prop :=
  ∀ row ∈ w.db.pendingExchanges, row.exchangeId = e → row.responderPubkey = some key

theorem uncontested_unanswered (run : PoolRun A (Uncontested A) h s) {x : Option Nat}
    (a : At h n i ⟨.sql (.updateResponderPubkey key e), x⟩)
    {c : PoolEntry signature World Call Env Error Reply} (at_n : h[n]? = some c)
    (answers : A.outside.fails c.before.world.statements = false) {row : PendingExchange}
    (mem : row ∈ c.before.world.db.pendingExchanges) (id : row.exchangeId = e) :
    row.responderPubkey = none := by
  obtain ⟨ok, r, next, pending⟩ := a.pending run at_n
  simp only [Uncontested, pending, answers, Bool.false_eq_true, false_or] at ok
  exact ok row mem id

/-- One operation keeps the key of an exchange that was inserted before. -/
theorem keyed_step (fresh : FreshIds A) (run : PoolRun A (Uncontested A) h s)
    {x : Option Unit} {row : PendingExchange} (inserted : At h m i ⟨.sql (.insertExchange row), x⟩)
    {ev : Event signature} {c : PoolEntry signature World Call Env Error Reply} (lt : m < n)
    (a : At h n j ev) (at_n : h[n]? = some c) (keyed : Keyed row.exchangeId key c.before.world) :
    Keyed row.exchangeId key (exec A ev.op c.before.world).2 := by
  intro r mem id
  rcases exec_exchange_origin mem with old | ⟨y, inserts⟩ | ⟨key', old, op, answers, before, rfl⟩
  · exact keyed r old id
  · -- the id was inserted before and is fresh
    have event : ev = ⟨.sql (.insertExchange r), some y⟩ := by
      obtain ⟨op, response⟩ := ev
      have answer : response = (exec A op c.before.world).1 := (a.exec run at_n).1
      subst answer
      exact inserts
    rw [event] at a
    have := inserted_once fresh run inserted a id.symm
    omega
  · -- a key is there, so the write is excluded
    obtain ⟨op', response⟩ := ev
    obtain rfl : op' = _ := op
    have none := uncontested_unanswered run a at_n answers before rfl
    rw [keyed old before id] at none
    cases none

/-- A key that a row has, every later row with this id has. -/
theorem keyed_onward (fresh : FreshIds A) (run : PoolRun A (Uncontested A) h s)
    {c : PoolEntry signature World Call Env Error Reply} (at_n : h[n]? = some c)
    {row : PendingExchange} (mem : row ∈ c.before.world.db.pendingExchanges)
    (has : row.responderPubkey = some key) : Keyed row.exchangeId key s.world := by
  obtain ⟨m, lt, i, x, inserted⟩ := row_inserted_before run at_n mem
  refine onward_from run (I := Keyed row.exchangeId key) at_n ?_ ?_ ?_
  · intro r mem' id
    rw [(pool_integrity (run.take at_n).1).exchange_eq mem' mem id]
    exact has
  · intro k j ev c' le a at_k keyed
    exact keyed_step fresh run inserted (by omega) a at_k keyed
  · intro x w keyed
    cases x <;> exact keyed

/-- A write that found a row found it without a key, and from then on its key stands. -/
theorem written_onward (fresh : FreshIds A) (run : PoolRun A (Uncontested A) h s) {rows : Nat}
    (a : At h n i ⟨.sql (.updateResponderPubkey key e), some rows⟩) (found : rows ≠ 0)
    {c : PoolEntry signature World Call Env Error Reply} (at_n : h[n]? = some c) :
    (∃ row ∈ c.before.world.db.pendingExchanges,
      row.exchangeId = e ∧ row.responderPubkey = none) ∧ Keyed e key s.world := by
  have answer : some rows = (exec A (.sql (.updateResponderPubkey key e)) c.before.world).1 :=
    (a.exec run at_n).1
  rcases exec_sql_cases A c.before.world (.updateResponderPubkey key e) with
    failed | ⟨y, db, answers, executed, result⟩
  · rw [failed] at answer
    cases answer
  · rw [result] at answer
    obtain rfl := Option.some.inj answer
    obtain ⟨count, rfl⟩ := Prod.mk.inj (Option.some.inj executed)
    obtain ⟨row, mem, id⟩ := List.countP_pos_iff.mp (Nat.pos_of_ne_zero (count ▸ found))
    obtain rfl : row.exchangeId = e := of_decide_eq_true id
    refine ⟨⟨row, mem, rfl, uncontested_unanswered run a at_n answers mem rfl⟩, ?_⟩
    obtain ⟨m, lt, j, x, inserted⟩ := row_inserted_before run at_n mem
    refine a.onward run (I := Keyed row.exchangeId key) at_n ?_ ?_ ?_
    · change Keyed row.exchangeId key (exec A _ c.before.world).2
      rw [result]
      intro r mem' id'
      obtain ⟨old, -, rfl⟩ := mem_updateWhere.mp mem'
      split at id'
      · rename_i same
        rw [if_pos same]
      · rename_i other
        exact absurd (decide_eq_true id') other
    · intro k l ev c' gt b at_k keyed
      exact keyed_step fresh run inserted (by omega) b at_k keyed
    · intro x w keyed
      cases x <;> exact keyed

theorem responded_write {allowed : Scheduling} (run : PoolRun A allowed h s)
    {x : Exchange.ExchangeResponse} (responded : Responded s i e x) :
    ∃ m n row key rows, At h m i ⟨.sql (.selectExchange e), some (some row)⟩ ∧
      At h n i ⟨.sql (.updateResponderPubkey key e), some rows⟩ ∧ rows ≠ 0 ∧
      x.initiatorPubkey = Base64Url.encode row.initiatorPubkey ∧
      x.responderPubkey = some (Base64Url.encode key) := by
  obtain ⟨authorization, req, thread⟩ := responded
  obtain ⟨y, rows, published, seen, found, ⟨⟩⟩ :=
    returned_sat handle_respondExchange_sat run thread _ _ _ _ rfl rfl
  obtain ⟨m, read, -⟩ := at_of_eventsOf_end [_] seen
  obtain ⟨n, write, -⟩ := at_of_eventsOf_end [_, _] seen
  exact ⟨m, n, y.row, y.key, rows, read, write, found, rfl, rfl⟩

theorem got_read {allowed : Scheduling} (run : PoolRun A allowed h s)
    {y : Exchange.ExchangeResponse} (got : Got s i e y) :
    ∃ n row, At h n i ⟨.sql (.selectExchange e), some (some row)⟩ ∧
      y.initiatorPubkey = Base64Url.encode row.initiatorPubkey ∧
      y.responderPubkey = row.responderPubkey.map Base64Url.encode := by
  obtain ⟨authorization, thread⟩ := got
  obtain ⟨x, ⟨rest, seen⟩, rfl⟩ :=
    returned_sat handle_deleteExchange_sat run thread _ _ _ rfl rfl
  obtain ⟨n, read, -⟩ := at_of_eventsOf_end [_] seen.symm
  exact ⟨n, x.row, read, rfl, rfl⟩

/-- Of two writes that find a row, the later one finds the key of the earlier. -/
theorem write_once (fresh : FreshIds A) (run : PoolRun A (Uncontested A) h s) {rows rows' : Nat}
    (a : At h m i ⟨.sql (.updateResponderPubkey key e), some rows⟩) (found : rows ≠ 0)
    (b : At h n j ⟨.sql (.updateResponderPubkey key' e), some rows'⟩) (found' : rows' ≠ 0) :
    ¬m < n := by
  intro lt
  obtain ⟨c, at_m⟩ := a.entry
  obtain ⟨d, at_n⟩ := b.entry
  obtain ⟨row, mem, id, none⟩ := (written_onward fresh run b found' at_n).1
  have keyed := (written_onward fresh (run.take at_n).1 ((at_take lt).mpr a) found
    (by rw [List.getElem?_take_of_lt lt]; exact at_m)).2 row mem id
  rw [none] at keyed
  cases keyed

/-- Key-exchange agreement, for runs in which no key is written over another. -/
theorem exchange_agreement (fresh : FreshIds A) (run : PoolRun A (Uncontested A) h s) :
    Agreement h s := by
  refine ⟨?_, ?_, ?_⟩
  · intro i j e x y first second
    obtain ⟨-, m, -, key, rows, -, a, found, -⟩ := responded_write run first
    obtain ⟨-, n, -, key', rows', -, b, found', -⟩ := responded_write run second
    have := write_once fresh run a found b found'
    have := write_once fresh run b found' a found
    obtain rfl : m = n := by omega
    exact (a.unique b).1
  · intro i j e x y responded got answered
    obtain ⟨r, n, old, key, rows, read, write, found, initiator, responder⟩ :=
      responded_write run responded
    obtain ⟨q, row, select, initiator', responder'⟩ := got_read run got
    obtain ⟨c, at_n⟩ := write.entry
    obtain ⟨d, at_q⟩ := select.entry
    obtain ⟨mem, id⟩ := selected_row run select at_q
    refine ⟨?_, ?_⟩
    · rcases Nat.lt_trichotomy n q with lt | rfl | gt
      · have keyed := (written_onward fresh (run.take at_q).1 ((at_take lt).mpr write) found
          (by rw [List.getElem?_take_of_lt lt]; exact at_n)).2 row mem id
        rw [responder, responder', keyed]
        rfl
      · cases (write.unique select).2
      · -- a key read before the write would still be there
        obtain ⟨unanswered, before, id', none⟩ := (written_onward fresh run write found at_n).1
        cases has : row.responderPubkey with
        | none =>
            rw [responder', has] at answered
            exact absurd rfl answered
        | some key' =>
            have keyed := keyed_onward fresh (run.take at_n).1
              (by rw [List.getElem?_take_of_lt gt]; exact at_q) mem has unanswered before
              (id'.trans id.symm)
            rw [none] at keyed
            cases keyed
    · obtain ⟨f, at_r⟩ := read.entry
      obtain ⟨mem', id'⟩ := selected_row run read at_r
      have same := same_exchange fresh run at_q mem at_r mem' (id.trans id'.symm)
      rw [initiator, initiator']
      exact congrArg (fun r => Base64Url.encode r.initiatorPubkey) same
  · intro entry he row mem row' mem' id answered
    obtain ⟨n, at_n⟩ := List.getElem?_of_mem he
    cases has : row.responderPubkey with
    | none => exact absurd has answered
    | some key => exact keyed_onward fresh run at_n mem has row' mem' id.symm

section
open Deployment

/-- Whether a thread has responded to this exchange. -/
def responds (s : Threads) (i : Nat) (e : String) : Bool :=
  match s.threads[i]? with
  | some (.respondExchange _ e' _, .done (.exchange _)) => e' = e
  | _ => false

theorem responded_of_responds (h : responds s i e = true) : ∃ x, Responded s i e x := by
  unfold responds at h
  split at h
  · rename_i authorization e' req x thread
    obtain rfl := of_decide_eq_true h
    exact ⟨x, authorization, req, thread⟩
  · cases h

/-- One respond, and then the initiator's get. -/
def answered : List Schedule :=
  poolExchange ++ serve 7 4 (respond 9) ++
    serve 8 3 (.getExchange (bearer (token "0" "1" 100 [] [])) "6")

/-- The thread is about to write a key over another. -/
def overwrites (s : Threads) (i : Nat) : Bool :=
  match s.threads[i]? with
  | some (_, .call (.sql (.updateResponderPubkey _ e)) _) =>
      !app.outside.fails s.world.statements && s.world.db.pendingExchanges.any fun row =>
        row.exchangeId = e && row.responderPubkey.isSome
  | _ => false

theorem uncontested_step {i : Nat} :
    overwrites s i = false ↔ Uncontested app h s (.step i) := by
  unfold overwrites Uncontested
  dsimp only
  split <;> simp [imp_iff_not_or]

instance (h : PoolLog) (s : Threads) (a : Schedule) : Decidable (Uncontested app h s a) :=
  match a with
  | .step i => decidable_of_iff (overwrites s i = false) uncontested_step
  | .spawn _ | .env _ => instDecidableTrue

private theorem answered_facts :
    poolMachine.AllowedFrom (Uncontested app) [] poolMachine.start answered ∧
    responds (poolState answered) 7 "6" = true := by
  decide +kernel

theorem exchange_agreement_answered :
    (∃ x, Responded (poolState answered) 7 "6" x) ∧
      Agreement (poolLog answered) (poolState answered) :=
  ⟨responded_of_responds answered_facts.2,
    exchange_agreement freshIds (poolMachine.run_trace answered answered_facts.1)⟩

/-- Two responds read the row before either writes. -/
def contested : List Schedule :=
  poolExchange ++ serve 7 2 (respond 9) ++ serve 8 2 (respond 10) ++
    [.step 7, .step 7, .step 8, .step 8]

private theorem contested_facts : HonestSchedule contested ∧
    responds (poolState contested) 7 "6" = true ∧
    responds (poolState contested) 8 "6" = true := by
  decide +kernel

/-- Both responds succeed, and the parties end up with different keys. -/
theorem not_exchange_agreement : FreshIds app ∧
    PoolRun app (Genuine app) (poolLog contested) (poolState contested) ∧
    ¬Agreement (poolLog contested) (poolState contested) := by
  obtain ⟨honest, first, second⟩ := contested_facts
  refine ⟨freshIds, run_poolLog honest, fun agreement => ?_⟩
  obtain ⟨x, hx⟩ := responded_of_responds first
  obtain ⟨y, hy⟩ := responded_of_responds second
  exact absurd (agreement.once 7 8 "6" x y hx hy) (by decide)

end

end Smqtt
