import Smqtt.Runs.Exchanges
import Smqtt.Runs.Schedules

/-!
No exchange is lost early. Whatever handlers and sweeps are in flight, a row that
`initiate` has inserted keeps its columns, gets its responder key from the
responder alone, and goes away only to its initiator with both keys or to a sweep
after a week. The expiry is computed as a `u64` and stored as an `i64`, which holds it
unless the clock shows the last week of its range.
-/

namespace Smqtt

open AtomicSteps System

variable {A : AppState} {allowed : Scheduling} {h : PoolLog} {s : Threads}
  {i j m n : Nat} {row : PendingExchange} {key : List UInt8} {x : Option Unit}

/-- Thread `i` has verified a token of user `u` before position `n`. -/
def ActsAs (h : PoolLog) (n i : Nat) (u : String) : Prop :=
  ∃ m < n, ∃ token claims, At h m i ⟨.jwtVerify token, .ok claims⟩ ∧ claims.sub = u

/-- At position `n` a get of the initiator that has read the row with a responder key
deletes it, and returns both keys. -/
structure Handed (h : PoolLog) (s : Threads) (n : Nat) (row : PendingExchange) : Prop where
  deleted : ∃ i rows, At h n i ⟨.sql (.deleteExchange row.exchangeId), rows⟩ ∧
    ActsAs h n i row.initiatorId ∧
    ∃ m read key, m < n ∧
      At h m i ⟨.sql (.selectExchange row.exchangeId), some (some read)⟩ ∧
      read.responderPubkey = some key ∧
      ∃ authorization response, s.threads[i]? =
          some (.getExchange authorization row.exchangeId, .done (.exchange response)) ∧
        response.initiatorPubkey = Base64Url.encode row.initiatorPubkey ∧
        response.responderPubkey = some (Base64Url.encode key)

/-- At position `n` a sweep runs that has read a clock beyond a week after the row was
created. -/
def SweptLate (h : PoolLog) (n : Nat) (row : PendingExchange) : Prop :=
  ∃ i now rows, At h n i ⟨.sql (.purgeExchanges (asI64 now)), rows⟩ ∧
    (∃ m < n, At h m i ⟨.unixNow, now⟩) ∧ row.createdAt + 604800 < now

/-- What holds of a row inserted at position `n` in every state reached later. -/
structure Retained (h : PoolLog) (s : Threads) (n : Nat) (row : PendingExchange) : Prop where
  pubkey : row.initiatorPubkey.length = 32
  fixed : ∀ row' ∈ s.world.db.pendingExchanges, row'.exchangeId = row.exchangeId →
    row'.sealed = row
  written : ∀ m i key rows, At h m i ⟨.sql (.updateResponderPubkey key row.exchangeId), rows⟩ →
    (∃ authorization req,
      (requests h)[i]? = some (.respondExchange authorization row.exchangeId req)) ∧
    key.length = 32 ∧ ActsAs h m i row.responderId
  keyed : ∀ row' ∈ s.world.db.pendingExchanges, row'.exchangeId = row.exchangeId →
    ∀ key, row'.responderPubkey = some key →
      ∃ m i rows, At h m i ⟨.sql (.updateResponderPubkey key row.exchangeId), rows⟩
  stays : ∀ entry ∈ h, ∀ old ∈ entry.before.world.db.pendingExchanges,
    old.exchangeId = row.exchangeId → old.responderPubkey ≠ none →
      ∀ row' ∈ s.world.db.pendingExchanges, row'.exchangeId = row.exchangeId →
        row'.responderPubkey ≠ none
  present : (∃ row' ∈ s.world.db.pendingExchanges, row'.exchangeId = row.exchangeId) ∨
    (∃ m, n < m ∧ Handed h s m row) ∨ ∃ m, n < m ∧ SweptLate h m row

/-- A write to the row comes from a respond authenticated as its responder. -/
theorem written_by_responder (fresh : FreshIds A) (run : PoolRun A allowed h s)
    (inserted : At h n i ⟨.sql (.insertExchange row), x⟩) {rows : Option Nat}
    (write : At h m j ⟨.sql (.updateResponderPubkey key row.exchangeId), rows⟩) :
    (∃ authorization req,
      (requests h)[j]? = some (.respondExchange authorization row.exchangeId req)) ∧
    key.length = 32 ∧ ActsAs h m j row.responderId := by
  obtain ⟨c, request, spec⟩ := write.sat run handle_respondExchange_sat
  obtain ⟨authorization, e, req, y, rfl, seen, op⟩ := spec rfl
  obtain ⟨rfl, rfl⟩ := Statement.updateResponderPubkey.inj (Op.sql.inj op)
  obtain ⟨k, lt, verified, -⟩ := at_of_eventsOf [] seen
  obtain ⟨l, -, select, -⟩ := at_of_eventsOf [_] seen
  obtain ⟨-, -, responder, -⟩ := PendingExchange.of_sealed
    (read_sealed fresh run inserted select)
  exact ⟨⟨authorization, req, requests_of_take request⟩, (decodePubkey_ok y.decoded).2,
    k, lt, y.token, y.claims, verified, y.responder.symm.trans responder⟩

/-- A key once there stays there. -/
theorem key_stays (fresh : FreshIds A) (run : PoolRun A allowed h s)
    {e : PoolEntry signature World Call Env Error Reply} (at_m : h[m]? = some e)
    {old : PendingExchange} (mem : old ∈ e.before.world.db.pendingExchanges)
    (has : old.responderPubkey ≠ none) {row' : PendingExchange}
    (mem' : row' ∈ s.world.db.pendingExchanges) (id : row'.exchangeId = old.exchangeId) :
    row'.responderPubkey ≠ none := by
  obtain ⟨k, lt, i, x, inserted⟩ := row_inserted_before run at_m mem
  refine onward_from run (I := fun w => ∀ r ∈ w.db.pendingExchanges,
    r.exchangeId = old.exchangeId → r.responderPubkey ≠ none) at_m ?_ ?_ ?_ row' mem' id
  · intro r mem' id
    rw [(pool_integrity (run.take at_m).1).exchange_eq mem' mem id]
    exact has
  · intro l j ev c le placed at_l before r mem' id
    obtain ⟨op, response⟩ := ev
    rcases exec_exchange_origin mem' with older | ⟨y, inserts⟩ | ⟨key', older, op, -, -, rfl⟩
    · exact before r older id
    · have answer : response = (exec A op c.before.world).1 := (placed.exec run at_l).1
      subst answer
      rw [inserts] at placed
      have := inserted_once fresh run inserted placed id.symm
      omega
    · exact nofun
  · intro x w before
    cases x <;> exact before

/-- A get that deletes the row delivers it. -/
theorem deletion_delivers (fresh : FreshIds A) (run : PoolRun A allowed h s)
    (inserted : At h n i ⟨.sql (.insertExchange row), x⟩) {rows : Option Nat}
    (delete : At h m j ⟨.sql (.deleteExchange row.exchangeId), rows⟩) :
    Handed h s m row := by
  obtain ⟨c, request, spec⟩ := delete.sat run handle_deleteExchange_sat
  obtain ⟨authorization, e, y, rfl, bearer, seen, op, initiator, answered⟩ := spec rfl
  obtain rfl := Statement.deleteExchange.inj (Op.sql.inj op)
  obtain ⟨k, lt, verified, -⟩ := at_of_eventsOf [] seen
  obtain ⟨l, lt', select, -⟩ := at_of_eventsOf [_] seen
  obtain ⟨-, owner, -, pubkey⟩ := PendingExchange.of_sealed
    (read_sealed fresh run inserted select)
  obtain ⟨key, has⟩ := Option.isSome_iff_exists.mp answered
  -- nothing is left of the get but its response
  have returned : s.threads[j]? =
      some (.getExchange authorization row.exchangeId, .done (.exchange y.response)) := by
    obtain ⟨p, thread⟩ := thread_of_request run (requests_of_take request)
    have path := threads_path run thread
    have whole := get_path (A := A) y bearer initiator answered rows
    obtain ⟨rest, later⟩ := eventsOf_initial (h := h) (i := j) (m + 1)
    rw [delete.eventsOf_succ, seen] at later
    rw [← later] at path
    rw [thread, whole.finished path]
  exact ⟨j, rows, delete, ⟨k, lt, y.token, y.claims, verified, initiator.symm.trans owner⟩,
    l, y.row, key, lt', select, has, authorization, y.response, returned,
    congrArg Base64Url.encode pubkey, by simp [Getting.response, has]⟩

/-- The expiry of a row, where it does not leave the range of an `i64`. -/
theorem expiry_of_inserted (run : PoolRun A allowed h s)
    (inserted : At h n i ⟨.sql (.insertExchange row), x⟩)
    (inRange : ∀ m now, At h m i ⟨.unixNow, now⟩ → now + Db.exchangeTtlSecs < 2 ^ 63) :
    row.createdAt + 604800 ≤ row.expiresAt := by
  obtain ⟨_, _, y, -, seen, rfl⟩ := inserted_by run inserted
  obtain ⟨k, -, created, before⟩ := at_of_eventsOf [_, _, _] seen
  obtain ⟨l, -, looked, before'⟩ := at_of_eventsOf [_, _, _, _] seen
  have order : k < l := lt_of_eventsOf_lt (h := h) (i := i) (by simp [before, before'])
  obtain ⟨c, at_k⟩ := created.entry
  obtain ⟨d, at_l⟩ := looked.entry
  have first : y.created = c.before.world.clock.secs := (created.exec run at_k).1
  have second : y.looked = d.before.world.clock.secs := (looked.exec run at_l).1
  have later := clock_le (run.take at_l).1
    (show (h.take l)[k]? = some c by rw [List.getElem?_take_of_lt order]; exact at_k)
  have small : y.looked + 604800 < 2 ^ 63 := inRange l y.looked looked
  simp only [Initiating.row, Db.exchangeTtlSecs]
  rw [asI64_of_lt (by omega), addU64_of_lt (by omega), asI64_of_lt (by omega)]
  omega

/-- A sweep that takes the row runs late. -/
theorem sweep_late (run : PoolRun A allowed h s)
    (late : row.createdAt + 604800 ≤ row.expiresAt) {now : Int} {rows : Option Nat}
    (sweep : At h m j ⟨.sql (.purgeExchanges now), rows⟩) (expired : row.expiresAt < now) :
    SweptLate h m row := by
  obtain ⟨c, -, spec⟩ := sweep.sat run handle_purgeExchanges_sat
  obtain ⟨t, rfl, seen, op⟩ := spec rfl
  have now_eq : now = asI64 t := Statement.purgeExchanges.inj (Op.sql.inj op)
  obtain ⟨k, lt, looked, -⟩ := at_of_eventsOf [] seen
  obtain ⟨e, at_k⟩ := looked.entry
  have time : t = e.before.world.clock.secs := (looked.exec run at_k).1
  refine ⟨j, t, rows, now_eq ▸ sweep, ⟨k, lt, looked⟩, ?_⟩
  rw [now_eq, time, Clock.asI64_secs] at expired
  rw [time]
  omega

theorem inserted_present (run : PoolRun A allowed h s) {y : Unit}
    (inserted : At h n i ⟨.sql (.insertExchange row), some y⟩)
    {e : PoolEntry signature World Call Env Error Reply} (at_n : h[n]? = some e) :
    row ∈ (exec A (.sql (.insertExchange row)) e.before.world).2.db.pendingExchanges := by
  have answer : some y = (exec A (.sql (.insertExchange row)) e.before.world).1 :=
    (inserted.exec run at_n).1
  rcases exec_sql_cases A e.before.world (.insertExchange row) with
    failed | ⟨z, db, -, executed, result⟩
  · rw [failed] at answer
    cases answer
  · simp only [Statement.execute, Option.ite_none_left_eq_some, Option.some.injEq,
      Prod.mk.injEq] at executed
    obtain ⟨-, -, rfl⟩ := executed
    rw [result]
    exact List.mem_append_right _ (List.mem_singleton_self row)

/-- No exchange is lost early, when its expiry is computed within the range of the clock. -/
theorem exchange_retained (fresh : FreshIds A) (run : PoolRun A allowed h s) {y : Unit}
    (inserted : At h n i ⟨.sql (.insertExchange row), some y⟩)
    (inRange : ∀ m now, At h m i ⟨.unixNow, now⟩ → now + Db.exchangeTtlSecs < 2 ^ 63) :
    Retained h s n row := by
  have late := expiry_of_inserted run inserted inRange
  obtain ⟨_, _, v, -, -, initiated⟩ := inserted_by run inserted
  refine ⟨?_, ?_, fun m j key rows => written_by_responder fresh run inserted, ?_, ?_, ?_⟩
  · rw [initiated]
    exact (decodePubkey_ok v.decoded).2
  · intro row' mem id
    obtain ⟨m, j, x, placed⟩ := row_inserted run mem
    obtain rfl := inserted_once fresh run placed inserted id
    have event := (placed.unique inserted).2
    exact Statement.insertExchange.inj (Op.sql.inj (congrArg Event.op event))
  · intro row' mem id key has
    rw [← id]
    exact key_written run mem has
  · intro entry he old mem id has row' mem' id'
    obtain ⟨m, at_m⟩ := List.getElem?_of_mem he
    exact key_stays fresh run at_m mem has mem' (id'.trans id.symm)
  · by_contra lost
    obtain ⟨absent, rest⟩ := not_or.mp lost
    obtain ⟨undelivered, unswept⟩ := not_or.mp rest
    obtain ⟨e, at_n⟩ := inserted.entry
    have kept : ∃ r ∈ s.world.db.pendingExchanges, r.sealed = row := by
      refine inserted.onward run
        (I := fun w => ∃ r ∈ w.db.pendingExchanges, r.sealed = row) at_n ?_ ?_ ?_
      · exact ⟨row, inserted_present run inserted at_n, by rw [initiated, v.row_sealed]⟩
      · rintro k j ⟨op, response⟩ c gt placed at_k ⟨r, mem, rfl⟩
        rcases exec_exchange_kept (A := A) op mem with
          ⟨r', mem', same, -⟩ | deleted | ⟨now, swept, expired⟩
        · exact ⟨r', mem', same⟩
        · obtain rfl := deleted
          exact absurd ⟨k, gt, deletion_delivers fresh run inserted placed⟩ undelivered
        · obtain rfl := swept
          exact absurd ⟨k, gt, sweep_late run late placed expired⟩ unswept
      · intro x w kept
        cases x <;> exact kept
    obtain ⟨r, mem, same⟩ := kept
    exact absent ⟨r, mem, (PendingExchange.of_sealed same).1⟩

section
open Deployment

private theorem exchange_facts : HonestSchedule poolExchange ∧
    ∀ e ∈ poolLog poolExchange, e.before.world.clock.secs + Db.exchangeTtlSecs < 2 ^ 63 := by
  decide +kernel

theorem exchange_retained_initiated :
    Retained (poolLog poolExchange) (poolState poolExchange) 46 offered := by
  obtain ⟨honest, clocks⟩ := exchange_facts
  have run := run_poolLog honest
  refine exchange_retained freshIds run poolExchange_offers ?_
  intro m now looked
  obtain ⟨e, at_m⟩ := looked.entry
  rw [show now = e.before.world.clock.secs from (looked.exec run at_m).1]
  exact clocks e (List.mem_of_getElem? at_m)

end

end Smqtt
