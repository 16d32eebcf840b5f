import Smqtt.Metatheory.RegistrationAtomicity
import Smqtt.Runs.Clients
import Smqtt.Runs.RegistrationTokens
import Smqtt.Runs.Schedules
import Mathlib.Data.Set.Card

/-!
Registration tokens admit what was minted. One conditional update decides about a
request, so the requests that race for a token are counted by the ledger in the order
of their updates, and each new account is behind one of these.
-/

namespace Smqtt

open AtomicSteps System

variable {A : AppState} {allowed : Scheduling} {h : PoolLog} {s : Threads} {i j k l m n : Nat}
  {token : String} {hash : List UInt8} {time : Nat} {row : RegistrationToken}
  {r : Except Error Unit}

/-- Thread `i` draws the bytes of a new token. -/
def Draws (h : PoolLog) (i : Nat) (token : String) : Prop :=
  ∃ n raw key req, At h n i ⟨.fillBytes, raw⟩ ∧
    (requests h)[i]? = some (.createRegistrationToken key req) ∧ token = Base64Url.encode raw

/-- Thread `i` serves a registration with this token. -/
def Presents (h : PoolLog) (i : Nat) (token : String) : Prop :=
  ∃ pubkey, (requests h)[i]? = some (.register ⟨pubkey, some token⟩)

/-- No string is drawn for two tokens. -/
def DistinctTokens (h : PoolLog) : Prop :=
  ∀ i j token, Draws h i token → Draws h j token → i = j

/-- The strings of this run keep apart under the keyed hash. -/
def CollisionFree (A : AppState) (h : PoolLog) : Prop :=
  Set.InjOn (Register.tokenHash A) {token | ∃ i, Draws h i token ∨ Presents h i token}

/-- A token request stores `row` for `token` at position `n`. -/
structure MintedAt (A : AppState) (h : PoolLog) (n i : Nat) (req : Admin.CreateTokenRequest)
    (token : String) (row : RegistrationToken) : Prop where
  request : ∃ key, (requests h)[i]? = some (.createRegistrationToken key req) ∧
    key.getD "" = A.config.adminApiKey
  passage : ∃ x : Minting, eventsOf i (h.take n) = x.events ∧ token = x.token ∧ row = x.row A req
  insert : At h n i ⟨.sql (.insertRegistrationToken row), some ()⟩

theorem tokenHash_eq (A : AppState) (token : String) :
    Admin.tokenHash A token = Register.tokenHash A token := rfl

namespace MintedAt

variable {req req' : Admin.CreateTokenRequest} {token' : String} {row' : RegistrationToken}
  (minted : MintedAt A h n i req token row)
include minted

theorem tokenHash : row.tokenHash = Register.tokenHash A token := by
  obtain ⟨x, -, rfl, rfl⟩ := minted.passage
  exact tokenHash_eq A x.token

theorem maxUses : row.maxUses = req.maxUses.toInt := by
  obtain ⟨x, -, -, rfl⟩ := minted.passage
  rfl

theorem draws : Draws h i token := by
  obtain ⟨x, seen, rfl, -⟩ := minted.passage
  obtain ⟨key, request, -⟩ := minted.request
  obtain ⟨m, -, a, -⟩ := at_of_eventsOf [] seen
  exact ⟨m, x.raw, key, req, a, request, rfl⟩

/-- Rows of one hash are of one request, which stores one row. -/
theorem unique (distinct : DistinctTokens h) (free : CollisionFree A h)
    (minted' : MintedAt A h m j req' token' row') (same : row.tokenHash = row'.tokenHash) :
    n = m := by
  have token_eq : token = token' := by
    refine free ⟨i, Or.inl minted.draws⟩ ⟨j, Or.inl minted'.draws⟩ ?_
    rw [← minted.tokenHash, ← minted'.tokenHash, same]
  subst token_eq
  obtain rfl := distinct i j token minted.draws minted'.draws
  obtain ⟨x, seen, -, -⟩ := minted.passage
  obtain ⟨x', seen', -, -⟩ := minted'.passage
  refine minted.insert.position_eq minted'.insert ?_
  rw [seen, seen']
  rfl

end MintedAt

theorem mintedAt_of_insert (run : PoolRun A allowed h s)
    (a : At h n i ⟨.sql (.insertRegistrationToken row), some ()⟩) :
    ∃ req token, MintedAt A h n i req token row := by
  obtain ⟨key, req, x, request, admin, seen, stored⟩ := minted_by run a
  exact ⟨req, x.token, ⟨key, requests_of_take request, admin⟩, ⟨x, seen, rfl, stored⟩, a⟩

theorem mintedOnce (distinct : DistinctTokens h) (free : CollisionFree A h)
    (run : PoolRun A allowed h s) (hash : List UInt8) : MintedOnce hash h := by
  intro m n i j row row' a b own own'
  obtain ⟨req, token, minted⟩ := mintedAt_of_insert run a
  obtain ⟨req', token', minted'⟩ := mintedAt_of_insert run b
  exact minted.unique distinct free minted' (own.trans own'.symm)

/-- The string that an admin is answered is a minted token. -/
theorem served_mints (run : PoolRun A allowed h s) {key : Option String}
    {req : Admin.CreateTokenRequest}
    (served : Served A h m n (.createRegistrationToken key req) (.ok (.registrationToken token))) :
    ∃ l < n, ∃ i row, MintedAt A h l i req token row := by
  obtain ⟨i, -, request, -, spec⟩ := served.sat handle_mint_sat
  obtain ⟨x, rfl, seen⟩ := spec _ rfl _ _ rfl
  obtain ⟨l, lt, a, prior⟩ := at_of_eventsOf x.events seen
  obtain ⟨key', req', -, request', admin, -⟩ := minted_by run a
  obtain ⟨rfl, rfl⟩ := Call.createRegistrationToken.inj
    (Option.some.inj ((requests_of_take request).symm.trans (requests_of_take request')))
  exact ⟨l, lt, i, x.row A req, ⟨key, requests_of_take request, admin⟩, ⟨x, prior, rfl, rfl⟩, a⟩

/-- By position `n` the gate has decided about thread `i`, which presents `token` and has
read `time`. -/
def Judged (A : AppState) (h : PoolLog) (n i : Nat) (token : String) (time : Nat)
    (r : Except Error Unit) : Prop :=
  ∃ pubkey, (requests h)[i]? = some (.register ⟨pubkey, some token⟩) ∧
    Prog.Path (Register.checkPolicy A ⟨pubkey, some token⟩) (eventsOf i (h.take (n + 1)))
      (.ofExcept r) ∧
    (∃ ev, At h n i ev) ∧ ∃ m < n, At h m i ⟨.unixNow, time⟩

/-- Thread `i` passes the gate with `token` before position `n`. -/
def Passed (A : AppState) (h : PoolLog) (n i : Nat) (token : String) : Prop :=
  ∃ k < n, ∃ time, Judged A h k i token time (.ok ())

namespace Register

/-- What the gate makes of the answer to its update. -/
def verdict : Option Nat → Except Error Unit
  | none => .error .database
  | some rows => if rows = 0 then .error .forbidden else .ok ()

theorem verdict_ok {rows : Nat} : verdict (some rows) = .ok () ↔ rows ≠ 0 := by
  by_cases zero : rows = 0
  · rw [verdict, if_pos zero]
    exact iff_of_false nofun (not_not.mpr zero)
  · rw [verdict, if_neg zero]
    exact iff_of_true rfl zero

theorem checkPolicy_push (isPush : gate A = some .push) (pubkey token : String) :
    checkPolicy A ⟨pubkey, some token⟩ = Db.consumeRegistrationToken (tokenHash A token) := by
  unfold gate at isPush
  split at isPush
  · rename_i mode
    obtain ⟨policy, configured, kind⟩ := Option.map_eq_some_iff.mp isPush
    unfold checkPolicy
    rw [mode, configured]
    dsimp only
    rw [kind]
  · cases isPush

/-- A request is through with the gate when it has looked at the clock and made its update. -/
theorem gate_path (isPush : gate A = some .push) {pubkey : String}
    {es : List (Event signature)} :
    Prog.Path (checkPolicy A ⟨pubkey, some token⟩) es (.ofExcept r) ↔
      ∃ time rows, es = gateEvents A token time rows ∧ r = verdict rows := by
  rw [checkPolicy_push isPush]
  constructor
  · intro path
    have spec : Prog.Sat (fun _ _ => True) (fun es r => ∃ time rows,
        es = gateEvents A token time rows ∧ r = verdict rows) []
        (Db.consumeRegistrationToken (tokenHash A token)) := by
      refine .bind (unixNow_sat (fun _ => trivial) fun time => ?_)
      refine .bind (sql_sat (s := .consumeRegistrationToken _ _) (fun _ => trivial)
        (fun rows => ?_) ⟨time, none, rfl, rfl⟩)
      dsimp only
      split
      · rename_i zero
        exact ⟨time, some rows, rfl, (if_pos zero).symm⟩
      · rename_i positive
        exact ⟨time, some rows, rfl, (if_neg positive).symm⟩
    have reached := path.sat spec
    cases r <;> exact reached
  · rintro ⟨time, rows, rfl, rfl⟩
    refine .cons (.cons ?_)
    cases rows with
    | none => exact .nil _
    | some rows =>
        unfold verdict
        dsimp only
        split
        · rename_i zero
          subst zero
          exact .nil _
        · rename_i positive
          change Prog.Path (if rows = 0 then _ else _) _ _
          rw [if_neg positive]
          exact .nil _

end Register

open Register (gate gateEvents)

theorem Judged.entry (judged : Judged A h n i token time r) : ∃ e, h[n]? = some e := by
  obtain ⟨-, -, -, ⟨ev, a⟩, -⟩ := judged
  exact a.entry

/-- What stands at the position of a verdict. -/
theorem Judged.update (isPush : gate A = some .push) (judged : Judged A h n i token time r) :
    ∃ rows, At h n i ⟨.sql (.consumeRegistrationToken (Register.tokenHash A token)
      (asI64 time)), rows⟩ ∧ r = Register.verdict rows := by
  obtain ⟨pubkey, -, path, ⟨ev, a⟩, m, lt, read⟩ := judged
  obtain ⟨time', rows, seen, same⟩ := (Register.gate_path isPush).mp path
  have seen : eventsOf i (h.take n) ++ [ev] = [⟨.unixNow, time'⟩] ++
      [⟨.sql (.consumeRegistrationToken (Register.tokenHash A token) (asI64 time')), rows⟩] :=
    a.eventsOf_succ.symm.trans seen
  obtain ⟨prior, last⟩ := List.append_inj' seen rfl
  obtain rfl := List.singleton_inj.mp last
  have mem := read.mem_eventsOf lt
  rw [prior] at mem
  obtain ⟨-, eq⟩ := Event.mk.inj (List.mem_singleton.mp mem)
  obtain rfl := eq_of_heq eq
  exact ⟨rows, a, same⟩

/-- Every update is the verdict about a request. -/
theorem judged_of_update (isPush : gate A = some .push) (run : PoolRun A allowed h s)
    {ev : Event signature} (a : At h n i ev) (kind : ev.op.kind = .consumeRegistrationToken) :
    ∃ token time rows,
      ev = ⟨.sql (.consumeRegistrationToken (Register.tokenHash A token) (asI64 time)), rows⟩ ∧
        Presents h i token ∧ Judged A h n i token time (Register.verdict rows) := by
  obtain ⟨c, request, spec⟩ := a.sat run (handle_consume_sat isPush)
  obtain ⟨pubkey, token, time, rfl, seen, op⟩ := spec kind
  obtain ⟨_, rows⟩ := ev
  dsimp only at op
  subst op
  have request := requests_of_take request
  obtain ⟨m, lt, read, -⟩ := at_of_eventsOf [] seen
  refine ⟨token, time, rows, rfl, ⟨pubkey, request⟩, pubkey, request, ?_, ⟨_, a⟩, m, lt, read⟩
  refine (Register.gate_path isPush).mpr ⟨time, rows, ?_, rfl⟩
  rw [a.eventsOf_succ, seen]
  rfl

theorem kind_of_used {ev : Event signature} (use : used ev = some hash) :
    ev.op.kind = .consumeRegistrationToken := by
  unfold used at use
  split at use
  · rfl
  · cases use

theorem used_iff {hash' : List UInt8} {now : Int} {rows : Option Nat} :
    used ⟨.sql (.consumeRegistrationToken hash' now), rows⟩ = some hash ↔
      hash' = hash ∧ Register.verdict rows = .ok () := by
  cases rows with
  | none => exact iff_of_false nofun nofun
  | some rows =>
      rw [Register.verdict_ok]
      by_cases zero : rows = 0
      · simp [used, zero]
      · simp [used, zero]

/-- A thread uses one token at most. -/
theorem uses_once (isPush : gate A = some .push) (run : PoolRun A allowed h s) (hash : List UInt8)
    (i : Nat) : ((eventsOf i h).countP fun ev => used ev = some hash) ≤ 1 := by
  refine countP_le_one (k := 1) fun before ev after split use => ?_
  obtain ⟨n, a, seen⟩ := at_of_eventsOf_end before split
  obtain ⟨c, -, spec⟩ := a.sat run (handle_consume_sat isPush)
  obtain ⟨pubkey, token, time, -, prior, -⟩ := spec (kind_of_used (of_decide_eq_true use))
  rw [← seen, prior]
  rfl

theorem Passed.use (isPush : gate A = some .push) (passed : Passed A h n i token) :
    ∃ ev ∈ eventsOf i (h.take n), used ev = some (Register.tokenHash A token) := by
  obtain ⟨k, lt, time, judged⟩ := passed
  obtain ⟨rows, a, verdict⟩ := judged.update isPush
  refine ⟨⟨.sql (.consumeRegistrationToken (Register.tokenHash A token) (asI64 time)), rows⟩,
    a.mem_eventsOf lt, used_iff.mpr ⟨rfl, verdict.symm⟩⟩

theorem passed_of_use (isPush : gate A = some .push) (run : PoolRun A allowed h s)
    {ev : Event signature} (mem : ev ∈ eventsOf i (h.take n)) (use : used ev = some hash) :
    ∃ token, Register.tokenHash A token = hash ∧ Presents h i token ∧ Passed A h n i token := by
  obtain ⟨k, lt, a⟩ := at_of_mem_eventsOf mem
  obtain ⟨token, time, rows, rfl, presents, judged⟩ :=
    judged_of_update isPush run a (kind_of_used use)
  obtain ⟨own, ok⟩ := used_iff.mp use
  rw [ok] at judged
  exact ⟨token, own, presents, k, lt, time, judged⟩

/-- The uses of a token are the requests that passed with it. -/
theorem ncard_passed (isPush : gate A = some .push) (free : CollisionFree A h)
    (run : PoolRun A allowed h s) {e : PoolEntry signature World Call Env Error Reply}
    (at_n : h[n]? = some e) (known : ∃ i, Draws h i token ∨ Presents h i token) :
    {i | Passed A h n i token}.ncard = usesOf (Register.tokenHash A token) (events (h.take n)) := by
  classical
  have before := (run.take at_n).1
  have each (i : Nat) : ((eventsOf i (h.take n)).countP fun ev =>
      used ev = some (Register.tokenHash A token)) = if Passed A h n i token then 1 else 0 := by
    have once := uses_once isPush before (Register.tokenHash A token) i
    split
    · rename_i passed
      obtain ⟨ev, mem, use⟩ := passed.use isPush
      have : 0 < (eventsOf i (h.take n)).countP fun ev =>
          used ev = some (Register.tokenHash A token) :=
        List.countP_pos_iff.mpr ⟨ev, mem, decide_eq_true use⟩
      omega
    · rename_i refused
      refine List.countP_eq_zero.mpr fun ev mem use => refused ?_
      obtain ⟨token', own, presents, passed⟩ :=
        passed_of_use isPush run mem (of_decide_eq_true use)
      obtain rfl := free ⟨i, Or.inr presents⟩ known own
      exact passed
  have bounded (i : Nat) (passed : Passed A h n i token) :
      i < (requests (h.take n)).length := by
    obtain ⟨k, lt, time, pubkey, request, -, ⟨ev, a⟩, -⟩ := passed
    exact (List.getElem?_eq_some_iff.mp
      (requests_take (Nat.le_of_lt lt) (a.request run request))).1
  have set_eq : {i | Passed A h n i token} =
      ((Finset.range (requests (h.take n)).length).filter fun i => Passed A h n i token) := by
    ext i
    simpa using bounded i
  rw [set_eq, Set.ncard_coe_finset, usesOf, countP_events before,
    Finset.sum_congr rfl fun i _ => each i, Finset.card_filter]

theorem asI64_read (run : PoolRun A allowed h s) (a : At h n i ⟨.unixNow, time⟩) :
    asI64 time = time := by
  obtain ⟨e, at_n⟩ := a.entry
  have read : time = e.before.world.clock.secs := (a.exec run at_n).1
  rw [read, Clock.asI64_secs]

/-- A request passes when its update finds a row. -/
theorem Judged.passes_iff (isPush : gate A = some .push) (unfailing : Unfailing A)
    (run : PoolRun A allowed h s) {e : PoolEntry signature World Call Env Error Reply}
    (at_n : h[n]? = some e) (judged : Judged A h n i token time r) :
    r = .ok () ↔ e.before.world.db.registrationTokens.countP
      (RegistrationToken.usable (Register.tokenHash A token) time) ≠ 0 := by
  obtain ⟨rows, a, rfl⟩ := judged.update isPush
  obtain ⟨-, -, -, -, m, -, read⟩ := judged
  have answer : rows = some (e.before.world.db.registrationTokens.countP
      (RegistrationToken.usable (Register.tokenHash A token) (asI64 time))) :=
    (a.exec run at_n).1.trans (exec_answered unfailing rfl)
  rw [answer, Register.verdict_ok, asI64_read run read]

/-- The ledger of a minted token has one entry. -/
theorem MintedAt.mintedRows {req : Admin.CreateTokenRequest}
    (minted : MintedAt A h l i req token row) (lt : l < n) {tokens : List RegistrationToken}
    (ledger : Ledger (Register.tokenHash A token) (events (h.take n)) tokens) :
    Smqtt.mintedRows (Register.tokenHash A token) (events (h.take n)) = [row] := by
  have mem : row ∈ Smqtt.mintedRows (Register.tokenHash A token) (events (h.take n)) := by
    obtain ⟨f, at_l, action, response⟩ := minted.insert
    rw [← List.getElem?_take_of_lt lt] at at_l
    refine List.mem_filter.mpr ⟨List.mem_filterMap.mpr
      ⟨⟨.sql (.insertRegistrationToken row), some ()⟩, ?_, rfl⟩, decide_eq_true minted.tokenHash⟩
    exact List.mem_filterMap.mpr ⟨f, List.mem_of_getElem? at_l, response⟩
  rcases ledger with ⟨none, -, -⟩ | ⟨row', some, -⟩
  · rw [none] at mem
    cases mem
  · rw [some] at mem ⊢
    rw [List.mem_singleton.mp mem]

/-- What registration tokens admit in this run. -/
structure AdmitsMinted (A : AppState) (h : PoolLog) (s : Threads) : Prop where
  /-- The string an admin was answered admits the minted number of requests, before
  the stored expiry. -/
  admits : ∀ m n key req token,
    Served A h m n (.createRegistrationToken key req) (.ok (.registrationToken token)) →
    ∃ l < n, ∃ i row, MintedAt A h l i req token row ∧
      ∀ k j time r, l < k → Judged A h k j token time r →
        (r = .ok () ↔ (time : Int) < row.expiresAt ∧
          ({j | Passed A h k j token}.ncard : Int) < req.maxUses.toInt)
  /-- No other string admits any. -/
  refuses : ∀ k j token time, Judged A h k j token time (.ok ()) →
    ∃ l < k, ∃ i req row, MintedAt A h l i req token row
  /-- The rows are the minted ones, with as many uses as they have, and the column never
  overflows. -/
  bounds : ∀ t ∈ s.world.db.registrationTokens, ∃ l i req token row,
    MintedAt A h l i req token row ∧ t = { row with uses := t.uses } ∧
      0 ≤ t.uses ∧ t.uses ≤ max req.maxUses.toInt 0 ∧ (t.uses < t.maxUses → t.uses + 1 < 2 ^ 63)
  accounts : (s.world.db.users.length : Int) ≤
    (s.world.db.registrationTokens.map RegistrationToken.uses).sum

/-- Registration tokens admit exactly what was minted. -/
theorem tokens_admit_minted (isPush : gate A = some .push) (unfailing : Unfailing A)
    (distinct : DistinctTokens h) (free : CollisionFree A h) (run : PoolRun A allowed h s) :
    AdmitsMinted A h s where
  admits := by
    intro m n key req token served
    obtain ⟨l, lt, i, row, minted⟩ := served_mints run served
    refine ⟨l, lt, i, row, minted, ?_⟩
    intro k j time r later judged
    obtain ⟨e, at_k⟩ := judged.entry
    have ledger := (ledger_run run (mintedOnce distinct free run
      (Register.tokenHash A token))).2 k e at_k
    rw [judged.passes_iff isPush unfailing run at_k,
      ledger.usable (minted.mintedRows later ledger) time,
      ncard_passed isPush free run at_k ⟨i, Or.inl minted.draws⟩, ← minted.maxUses]
    split
    · rename_i admitted
      exact iff_of_true Nat.one_ne_zero admitted
    · rename_i refused
      exact iff_of_false (not_not.mpr rfl) refused
  refuses := by
    intro k j token time judged
    obtain ⟨e, at_k⟩ := judged.entry
    have found := (judged.passes_iff isPush unfailing run at_k).mp rfl
    rcases (ledger_run run (mintedOnce distinct free run _)).2 k e at_k with
      ⟨-, -, empty⟩ | ⟨row, some, -⟩
    · rw [countP_usable, empty] at found
      exact absurd rfl found
    · obtain ⟨own, l, lt, i, b⟩ := mem_mintedRows run (some ▸ List.mem_singleton_self row)
      obtain ⟨req, token', minted⟩ := mintedAt_of_insert run b
      have presented : Presents h j token := by
        obtain ⟨pubkey, request, -⟩ := judged
        exact ⟨pubkey, request⟩
      obtain rfl := free ⟨i, Or.inl minted.draws⟩ ⟨j, Or.inr presented⟩
        (minted.tokenHash.symm.trans own)
      exact ⟨l, lt, i, req, row, minted⟩
  bounds := by
    intro t mem
    obtain ⟨row, listed, same, least, most⟩ := bounded_run run t mem
    obtain ⟨ev, there, mint⟩ := List.mem_filterMap.mp listed
    obtain rfl := mints_eq_some mint
    rw [← List.take_length (l := h)] at there
    obtain ⟨l, -, i, a⟩ := mem_events run there
    obtain ⟨req, token, minted⟩ := mintedAt_of_insert run a
    have limit : t.maxUses = req.maxUses.toInt := by rw [same, ← minted.maxUses]
    have small := req.maxUses.toInt_lt
    rw [minted.maxUses] at most
    exact ⟨l, i, req, token, row, minted, same, least, most, by omega⟩
  accounts := users_le_uses isPush run

section
open Deployment

/-- The string of the deployment's first token. -/
def racedToken : String := Base64Url.encode (outside.randomBytes 0)

/-- The sample deployment's admin has minted a token for one use. -/
def mintOnce : Call := .createRegistrationToken (some "admin") {}

def registerWith (n : Nat) : Call := .register ⟨Base64Url.encode (key n), some racedToken⟩

/-- Two registrations read the clock before either uses the token. -/
def racing : List Schedule :=
  serve 0 5 mintOnce ++ [.spawn (registerWith 0), .spawn (registerWith 1), .step 1, .step 2] ++
    List.replicate 6 (.step 2) ++ List.replicate 6 (.step 1)

def racingLog : PoolLog :=
  (server Register.tokenGated).pool.trace (server Register.tokenGated).pool.start racing

def racingEnd : Threads :=
  (server Register.tokenGated).pool.final (server Register.tokenGated).pool.start racing

def drawn (e : PoolEntry signature World Call Env Error Reply) : Option (List UInt8) :=
  match e.response with
  | some ⟨.fillBytes, raw⟩ => some raw
  | _ => none

private theorem racing_facts :
    requests racingLog = [mintOnce, registerWith 0, registerWith 1] ∧
    racingLog.filterMap drawn = [outside.randomBytes 0] ∧
    racingEnd.world.db.users.length = 1 := by
  decide +kernel

theorem racing_draws (draws : Draws racingLog i token) : i = 0 ∧ token = racedToken := by
  obtain ⟨n, raw, key, req, ⟨e, at_n, -, response⟩, request, rfl⟩ := draws
  constructor
  · rw [racing_facts.1] at request
    match i with
    | 0 => rfl
    | 1 => cases request
    | 2 => cases request
    | i + 3 => cases request
  · have mem : raw ∈ racingLog.filterMap drawn :=
      List.mem_filterMap.mpr ⟨e, List.mem_of_getElem? at_n, by simp [drawn, response]⟩
    rw [racing_facts.2.1] at mem
    rw [List.mem_singleton.mp mem, racedToken]

theorem racing_presents (presents : Presents racingLog i token) : token = racedToken := by
  obtain ⟨pubkey, request⟩ := presents
  rw [racing_facts.1] at request
  match i with
  | 0 => cases request
  | 1 => cases request; rfl
  | 2 => cases request; rfl
  | i + 3 => cases request

theorem tokens_admit_minted_racing :
    AdmitsMinted Register.tokenGated racingLog racingEnd ∧
      racingEnd.world.db.users.length = 1 := by
  have known (token : String) (known : ∃ i, Draws racingLog i token ∨ Presents racingLog i token) :
      token = racedToken := by
    obtain ⟨i, draws | presents⟩ := known
    · exact (racing_draws draws).2
    · exact racing_presents presents
  refine ⟨tokens_admit_minted rfl (fun _ => rfl) ?_ ?_
    (Machine.run_anything _ racing), racing_facts.2.2⟩
  · intro i j token draws draws'
    rw [(racing_draws draws).1, (racing_draws draws').1]
  · intro token mem token' mem' _
    rw [known token mem, known token' mem']

end

end Smqtt
