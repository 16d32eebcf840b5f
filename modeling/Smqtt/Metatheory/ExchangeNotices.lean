import Smqtt.Library.Settlement
import Smqtt.Metatheory.FailedRequests
import Smqtt.Runs.Exchanges
import Smqtt.Runs.Schedules

/-!
The notices of the key exchange. `initiate` and `respond` publish with their last
operation, after which they only return, so under every interleaving the notices
published are those of the requests that have returned success, each once and to the
party that waits for it: a request that fails or is still under way has announced
nothing, and a request that has succeeded has announced its exchange.
-/

namespace Smqtt

open AtomicSteps AtomicSteps.Prog System

variable {A : AppState} {allowed : Scheduling} {h : PoolLog} {s : Threads} {i : Nat}

/-- The notice that goes with a reply. -/
def notice (A : AppState) : Call → Reply → Option (String × SystemMessage)
  | .initiateExchange _ req, .exchangeId e =>
      some (A.notifyTopic req.peerId, ⟨"pending_exchange", e⟩)
  | .respondExchange _ e _, .exchange response =>
      some (A.notifyTopic response.initiatorId, ⟨"exchange_complete", e⟩)
  | _, _ => none

def announces (ev : Event signature) : Option (String × SystemMessage) := ev.op.publishes

theorem within_silent {K : List Kind} (other : .publishSystem ∉ K) {op : Op}
    (within : Within K op) (x : op.Answer) : announces ⟨op, x⟩ = none := by
  cases op with
  | publishSystem topic message =>
      rcases within with read | mem
      · cases read
      · exact absurd mem other
  | _ => rfl

theorem quiet_silent {α : Type} {p : Handler α} (quiet : p.Uses (Quiet [.insertExchange])) :
    p.Uses fun op => ∀ x, announces ⟨op, x⟩ = none :=
  quiet.mono fun _ h => within_silent (by decide) h.1

theorem initiate_settles (authorization : Option String) (req : Exchange.InitiateRequest) :
    (Exchange.initiate A authorization req).Settles announces fun e =>
      some (A.notifyTopic req.peerId, ⟨"pending_exchange", e⟩) := by
  refine (quiet_silent (fromRequestParts_quiet _)).settles fun userId => ?_
  refine (quiet_silent (Db.getUser_quiet _)).settles fun _ => ?_
  refine (quiet_silent (ofExcept_quiet _)).settles fun key => ?_
  refine (quiet_silent (Db.createExchange_quiet (by decide) _ _ _)).settles fun row => ?_
  exact settles_last (fun _ => rfl) fun _ => ⟨_, rfl, rfl⟩

theorem respond_settles (authorization : Option String) (e : String)
    (req : Exchange.RespondRequest) :
    (Exchange.respond A authorization e req).Settles announces fun response =>
      some (A.notifyTopic response.initiatorId, ⟨"exchange_complete", e⟩) := by
  have silent {α : Type} {p : Handler α} (within : p.Uses (Within [.respondExchange])) :
      p.Uses fun op => ∀ x, announces ⟨op, x⟩ = none :=
    within.mono fun _ h => within_silent (by decide) h
  refine (quiet_silent (fromRequestParts_quiet _)).settles fun userId => ?_
  refine (silent (Db.getExchange_within _)).settles fun row => ?_
  split
  · trivial
  · split
    · trivial
    · refine (quiet_silent (ofExcept_quiet _)).settles fun key => ?_
      refine (silent (Quiet.within (Db.setResponderPubkey_quiet (by decide) _ _))).settles
        fun _ => ?_
      exact settles_last (fun _ => rfl) fun _ => ⟨_, rfl, rfl⟩

theorem reply_settles {α : Type} {p : Handler α} {f : α → Reply}
    {owes : Reply → Option (String × SystemMessage)}
    (settles : p.Settles announces fun a => owes (f a)) :
    (Prog.reply p f).Settles announces owes := settles.map

/-- Every request announces what its reply promises, with its last operation. -/
theorem handle_settles (c : Call) : (handle A c).Settles announces (notice A c) := by
  cases c
  case initiateExchange authorization req =>
    exact reply_settles (initiate_settles authorization req)
  case respondExchange authorization e req =>
    exact reply_settles (respond_settles authorization e req)
  all_goals
    refine Uses.settles_nothing ((handle_within A _).mono fun _ h => within_silent ?_ h)
      fun _ => rfl
    simp [Call.footprint]

theorem exec_systemMessages (op : Op) (w : World) :
    (exec A op w).2.systemMessages = w.systemMessages ++ op.publishes.toList := by
  have other (none : op.publishes = none)
      (kept : (exec A op w).2.systemMessages = w.systemMessages) :
      (exec A op w).2.systemMessages = w.systemMessages ++ op.publishes.toList := by
    rw [kept, none, Option.toList_none, List.append_nil]
  cases op with
  | publishSystem topic message => rfl
  | sql statement =>
      refine other rfl ?_
      rcases exec_sql_cases A w statement with failed | ⟨x, db, -, -, result⟩
      · rw [failed]
        rfl
      · rw [result]
        rfl
  | forward session topic =>
      refine other rfl ?_
      simp only [exec]
      split <;> rfl
  | _ => exact other rfl rfl

/-- What the broker has been handed is what the operations have published. -/
theorem messages_published (run : PoolRun A allowed h s) :
    s.world.systemMessages = (events h).filterMap announces := by
  refine (induction_events run (I := fun es w => w.systemMessages = es.filterMap announces)
    rfl ?_ ?_).1
  · intro n i ev e _ _ before
    rw [show ((server A).exec ev.op e.before.world).2.systemMessages = _ from
      exec_systemMessages ev.op _, before, List.filterMap_append]
    cases publishes : ev.op.publishes <;> simp [announces, publishes]
  · intro es x w before
    cases x <;> exact before

/-- A notice about an exchange, on the topic of the party that waits for it. -/
inductive Notifies (A : AppState) (row : PendingExchange) : String × SystemMessage → Prop
  | pending : Notifies A row
      (A.notifyTopic row.responderId, ⟨"pending_exchange", row.exchangeId⟩)
  | complete : Notifies A row
      (A.notifyTopic row.initiatorId, ⟨"exchange_complete", row.exchangeId⟩)

theorem initiated_row (run : PoolRun A allowed h s) {authorization : Option String}
    {req : Exchange.InitiateRequest} {e : String}
    (thread : s.threads[i]? = some (.initiateExchange authorization req, .done (.exchangeId e))) :
    ∃ n row, At h n i ⟨.sql (.insertExchange row), some ()⟩ ∧ row.exchangeId = e ∧
      row.responderId = req.peerId := by
  obtain ⟨x, published, seen, rfl⟩ :=
    returned_sat handle_insertExchange_sat run thread authorization req e rfl rfl
  obtain ⟨n, inserted, -⟩ := at_of_eventsOf_end x.events seen
  exact ⟨n, x.row, inserted, rfl, rfl⟩

theorem responded_row (run : PoolRun A allowed h s) {authorization : Option String} {e : String}
    {req : Exchange.RespondRequest} {response : Exchange.ExchangeResponse}
    (thread : s.threads[i]? =
      some (.respondExchange authorization e req, .done (.exchange response))) :
    ∃ n j row, At h n j ⟨.sql (.insertExchange row), some ()⟩ ∧ row.exchangeId = e ∧
      row.initiatorId = response.initiatorId := by
  obtain ⟨x, rows, published, seen, -, same⟩ :=
    returned_sat handle_respondExchange_sat run thread authorization e req _ rfl rfl
  obtain ⟨m, selected, -⟩ := at_of_eventsOf_end [_] seen
  obtain ⟨c, at_m⟩ := selected.entry
  obtain ⟨mem, id⟩ := selected_row run selected at_m
  obtain ⟨n, -, j, y, inserted⟩ := row_inserted_before run at_m mem
  exact ⟨n, j, _, inserted, id, by rw [Reply.exchange.inj same]; rfl⟩

theorem notice_row (run : PoolRun A allowed h s) {message : String × SystemMessage}
    (due : message ∈ dues (notice A) s) :
    ∃ n j row, At h n j ⟨.sql (.insertExchange row), some ()⟩ ∧ Notifies A row message := by
  obtain ⟨⟨c, p⟩, mem, owed⟩ := List.mem_filterMap.mp due
  obtain ⟨i, thread⟩ := List.getElem?_of_mem mem
  cases p with
  | done reply =>
      change notice A c reply = some message at owed
      unfold notice at owed
      split at owed
      · obtain rfl := Option.some.inj owed
        obtain ⟨n, row, inserted, rfl, peer⟩ := initiated_row run thread
        exact ⟨n, i, row, inserted, peer ▸ .pending⟩
      · obtain rfl := Option.some.inj owed
        obtain ⟨n, j, row, inserted, rfl, initiator⟩ := responded_row run thread
        exact ⟨n, j, row, inserted, initiator ▸ .complete⟩
      · cases owed
  | fail e => cases owed
  | call op next => cases owed

/-- An offer comes from the thread that has inserted the exchange. -/
theorem offer_row (run : PoolRun A allowed h s) {c : Call} {p : Handler Reply} {e : String}
    {message : String × SystemMessage} (thread : s.threads[i]? = some (c, p))
    (owed : p.owed (notice A c) = some message)
    (offer : message.2 = ⟨"pending_exchange", e⟩) :
    ∃ n row, At h n i ⟨.sql (.insertExchange row), some ()⟩ ∧ row.exchangeId = e := by
  cases p with
  | done reply =>
      change notice A c reply = some message at owed
      unfold notice at owed
      split at owed
      · obtain rfl := Option.some.inj owed
        obtain ⟨n, row, inserted, id, -⟩ := initiated_row run thread
        exact ⟨n, row, inserted, id.trans (SystemMessage.mk.inj offer).2⟩
      · obtain rfl := Option.some.inj owed
        exact absurd (SystemMessage.mk.inj offer).1 (by decide)
      · cases owed
  | fail e => cases owed
  | call op next => cases owed

/-- With fresh ids an exchange is offered by one request. -/
theorem offered_once (fresh : FreshIds A) (run : PoolRun A allowed h s) (e : String) :
    (dues (notice A) s).countP (fun m => m.2 = ⟨"pending_exchange", e⟩) ≤ 1 := by
  have offers (before : List (Call × Handler Reply)) (t : Call × Handler Reply)
      (after : List (Call × Handler Reply)) (split : s.threads = before ++ t :: after)
      (hit : (((t.2.owed (notice A t.1)).map
        fun m => decide (m.2 = ⟨"pending_exchange", e⟩)).getD false) = true) :
      ∃ n row, At h n before.length ⟨.sql (.insertExchange row), some ()⟩ ∧
        row.exchangeId = e := by
    obtain ⟨c, p⟩ := t
    cases owed : p.owed (notice A c) with
    | none =>
        rw [owed] at hit
        cases hit
    | some message =>
        rw [owed] at hit
        exact offer_row run (by rw [split]; simp) owed (of_decide_eq_true hit)
  rw [dues, List.countP_filterMap]
  by_cases offered : ∃ i n row, At h n i ⟨.sql (.insertExchange row), some ()⟩ ∧
      row.exchangeId = e
  · obtain ⟨i, n, row, inserted, id⟩ := offered
    refine countP_le_one (k := i) fun before t after split hit => ?_
    obtain ⟨m, row', inserted', id'⟩ := offers before t after split hit
    obtain rfl := inserted_once fresh run inserted inserted' (id.trans id'.symm)
    exact (inserted'.unique inserted).1
  · refine countP_le_one (k := 0) fun before t after split hit => ?_
    exact absurd ⟨_, offers before t after split hit⟩ offered

/-- The notices published are those of the requests that have succeeded; each is about
a stored exchange, to the party that waits for it, and no exchange is offered twice. -/
theorem notices_sent (fresh : FreshIds A) (run : PoolRun A allowed h s) :
    s.world.systemMessages.Perm (dues (notice A) s) ∧
    (∀ message ∈ s.world.systemMessages, ∃ n i row,
      At h n i ⟨.sql (.insertExchange row), some ()⟩ ∧ Notifies A row message) ∧
    ∀ e, s.world.systemMessages.countP (fun m => m.2 = ⟨"pending_exchange", e⟩) ≤ 1 := by
  have sent : s.world.systemMessages.Perm (dues (notice A) s) := by
    rw [messages_published run]
    exact payments_perm handle_settles run
  refine ⟨sent, fun message mem => notice_row run (sent.subset mem), fun e => ?_⟩
  rw [sent.countP_eq]
  exact offered_once fresh run e

section
open Deployment

/-- An exchange is offered and answered. -/
def offeredAndAnswered : List Schedule := poolExchange ++ serve 7 4 (respond 9)

private theorem offeredAndAnswered_facts : HonestSchedule offeredAndAnswered ∧
    dues (notice app) (poolState offeredAndAnswered) =
      [(app.notifyTopic "2", ⟨"pending_exchange", "6"⟩),
        (app.notifyTopic "0", ⟨"exchange_complete", "6"⟩)] := by
  decide +kernel

theorem notices_sent_answered :
    (poolState offeredAndAnswered).world.systemMessages.Perm
      [(app.notifyTopic "2", ⟨"pending_exchange", "6"⟩),
        (app.notifyTopic "0", ⟨"exchange_complete", "6"⟩)] := by
  obtain ⟨honest, owed⟩ := offeredAndAnswered_facts
  rw [← owed]
  exact (notices_sent freshIds (run_poolLog honest)).1

end
end Smqtt
