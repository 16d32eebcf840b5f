import Smqtt.Api.RegistrationEvents
import Smqtt.Library.Tally
import Smqtt.Runs.Interleaved

/-!
The registration tokens in interleaved runs. The table is a ledger: an insert opens an
entry, and what an update that found rows has done stands in the column `uses`.
-/

namespace Smqtt

open AtomicSteps System

variable {A : AppState} {allowed : Scheduling} {h : PoolLog} {s : Threads} {i j m n : Nat}
  {hash : List UInt8} {row : RegistrationToken} {ev : Event signature}

/-- An answered insert of a token. -/
def mints : Event signature → Option RegistrationToken
  | ⟨.sql (.insertRegistrationToken row), some _⟩ => some row
  | _ => none

/-- The hash of the token that an update found usable. -/
def used : Event signature → Option (List UInt8)
  | ⟨.sql (.consumeRegistrationToken hash _), some rows⟩ => if rows = 0 then none else some hash
  | _ => none

/-- The table after the rows that an update found were used. -/
def spend (hash : List UInt8) (now : Int) (tokens : List RegistrationToken) :
    List RegistrationToken :=
  updateWhere (RegistrationToken.usable hash now) (fun t => { t with uses := t.uses + 1 }) tokens

/-- What an event does to the table of tokens. -/
inductive TokenStep : Event signature → List RegistrationToken → List RegistrationToken → Prop
  | minted (row : RegistrationToken) (tokens : List RegistrationToken) :
      TokenStep ⟨.sql (.insertRegistrationToken row), some ()⟩ tokens (tokens ++ [row])
  | used (hash : List UInt8) (now : Int) (tokens : List RegistrationToken) :
      TokenStep ⟨.sql (.consumeRegistrationToken hash now),
        some (tokens.countP (RegistrationToken.usable hash now))⟩ tokens (spend hash now tokens)
  | other {ev : Event signature} (tokens : List RegistrationToken) :
      mints ev = none → used ev = none → TokenStep ev tokens tokens

theorem exec_tokenStep {w : World} (answer : ev.answer = (exec A ev.op w).1) :
    TokenStep ev w.db.registrationTokens (exec A ev.op w).2.db.registrationTokens := by
  obtain ⟨op, x⟩ := ev
  by_cases part : op.part = .registrationTokens
  · cases op with
    | sql statement =>
        rcases exec_sql_cases A w statement with failed | ⟨y, db, -, executed, result⟩
        · rw [failed] at answer ⊢
          obtain rfl : x = none := answer
          cases statement <;> exact .other _ rfl rfl
        · rw [result] at answer ⊢
          obtain rfl : x = some y := answer
          cases statement with
          | insertRegistrationToken row =>
              simp only [Statement.execute, Option.ite_none_left_eq_some, Option.some.injEq,
                Prod.mk.injEq] at executed
              obtain ⟨-, -, rfl⟩ := executed
              exact .minted row _
          | consumeRegistrationToken hash now =>
              obtain ⟨rfl, rfl⟩ := Prod.mk.inj (Option.some.inj executed)
              exact .used hash now _
          | _ => cases part
    | _ => cases part
  · rw [exec_registrationTokens A op w part]
    cases op with
    | sql statement =>
        cases statement <;> first
          | exact .other _ rfl rfl
          | exact absurd rfl part
    | _ => exact .other _ rfl rfl

def tokensOf (hash : List UInt8) (tokens : List RegistrationToken) : List RegistrationToken :=
  tokens.filter fun t => t.tokenHash = hash

theorem filter_updateWhere {α : Type} {p q : α → Bool} {f : α → α} (keeps : ∀ x, q (f x) = q x)
    (rows : List α) : (updateWhere p f rows).filter q = updateWhere p f (rows.filter q) := by
  induction rows with
  | nil => rfl
  | cons x rows ih =>
      have same : q (if p x then f x else x) = q x := by
        split
        · exact keeps x
        · rfl
      rw [updateWhere, List.map_cons, List.filter_cons, List.filter_cons, same]
      split
      · exact congrArg (_ :: ·) ih
      · exact ih

theorem tokensOf_spend (hash hash' : List UInt8) (now : Int) (tokens : List RegistrationToken) :
    tokensOf hash (spend hash' now tokens) = spend hash' now (tokensOf hash tokens) :=
  filter_updateWhere (f := fun t : RegistrationToken => { t with uses := t.uses + 1 })
    (fun _ => rfl) tokens

theorem spend_other {hash' : List UInt8} (other : hash' ≠ hash) (now : Int)
    (tokens : List RegistrationToken) :
    spend hash' now (tokensOf hash tokens) = tokensOf hash tokens := by
  refine updateWhere_none (List.any_eq_false.mpr fun t mem => ?_)
  have own : t.tokenHash = hash := by simpa using (List.mem_filter.mp mem).2
  simp [RegistrationToken.usable, own, Ne.symm other]

theorem countP_usable (hash : List UInt8) (now : Int) (tokens : List RegistrationToken) :
    tokens.countP (RegistrationToken.usable hash now) =
      (tokensOf hash tokens).countP (RegistrationToken.usable hash now) := by
  rw [tokensOf, List.countP_filter]
  refine List.countP_congr fun t _ => ?_
  simp only [RegistrationToken.usable, Bool.and_eq_true, decide_eq_true_eq]
  tauto

/-- The rows minted with this hash. -/
def mintedRows (hash : List UInt8) (es : List (Event signature)) : List RegistrationToken :=
  tokensOf hash (es.filterMap mints)

/-- How often the hash was used. -/
def usesOf (hash : List UInt8) (es : List (Event signature)) : Nat :=
  es.countP fun ev => used ev = some hash

theorem mintedRows_snoc {es : List (Event signature)} (unminted : mints ev = none) :
    mintedRows hash (es ++ [ev]) = mintedRows hash es := by
  have same : (es ++ [ev]).filterMap mints = es.filterMap mints := by
    simp [List.filterMap_append, unminted]
  rw [mintedRows, same]
  rfl

theorem usesOf_snoc (hash : List UInt8) (es : List (Event signature)) (ev : Event signature) :
    usesOf hash (es ++ [ev]) = usesOf hash es + if used ev = some hash then 1 else 0 := by
  rw [usesOf, List.countP_append, List.countP_singleton]
  simp only [decide_eq_true_eq]
  rfl

/-- The table holds one row of a minted hash, with its uses, and no other row of it. -/
def Ledger (hash : List UInt8) (es : List (Event signature)) (tokens : List RegistrationToken) :
    Prop :=
  (mintedRows hash es = [] ∧ usesOf hash es = 0 ∧ tokensOf hash tokens = []) ∨
  ∃ row, mintedRows hash es = [row] ∧
    tokensOf hash tokens = [{ row with uses := usesOf hash es }]

namespace Ledger

variable {es : List (Event signature)} {tokens : List RegistrationToken}
  (ledger : Ledger hash es tokens)
include ledger

theorem other (unminted : mints ev = none) (unused : used ev ≠ some hash) :
    Ledger hash (es ++ [ev]) tokens := by
  have same : usesOf hash (es ++ [ev]) = usesOf hash es := by
    rw [usesOf_snoc, if_neg unused, Nat.add_zero]
  unfold Ledger
  rw [mintedRows_snoc unminted, same]
  exact ledger

/-- A new row of another hash, or the first of this one. -/
theorem mint (unused : row.uses = 0) (first : row.tokenHash = hash → mintedRows hash es = []) :
    Ledger hash (es ++ [⟨.sql (.insertRegistrationToken row), some ()⟩]) (tokens ++ [row]) := by
  have newMinted : mintedRows hash (es ++ [⟨.sql (.insertRegistrationToken row), some ()⟩]) =
      mintedRows hash es ++ tokensOf hash [row] := by
    rw [mintedRows, List.filterMap_append]
    exact List.filter_append ..
  have sameUses : usesOf hash (es ++ [⟨.sql (.insertRegistrationToken row), some ()⟩]) =
      usesOf hash es := usesOf_snoc _ _ _
  have newTokens : tokensOf hash (tokens ++ [row]) = tokensOf hash tokens ++ tokensOf hash [row] :=
    List.filter_append ..
  unfold Ledger
  rw [sameUses, newMinted, newTokens]
  by_cases own : row.tokenHash = hash
  · have alone : tokensOf hash [row] = [row] := by simp [tokensOf, own]
    rcases ledger with ⟨none, zero, empty⟩ | ⟨old, some, -⟩
    · refine Or.inr ⟨row, by rw [none, alone]; rfl, ?_⟩
      rw [empty, alone, zero, Int.natCast_zero, ← unused]
      rfl
    · rw [first own] at some
      cases some
  · have absent : tokensOf hash [row] = [] := by simp [tokensOf, own]
    rw [absent, List.append_nil, List.append_nil]
    exact ledger

/-- How many rows of the hash an update finds. -/
theorem usable (some : mintedRows hash es = [row]) (now : Int) :
    tokens.countP (RegistrationToken.usable hash now) =
      if now < row.expiresAt ∧ (usesOf hash es : Int) < row.maxUses then 1 else 0 := by
  have own : row.tokenHash = hash := by
    have mem : row ∈ mintedRows hash es := by rw [some]; exact List.mem_singleton_self row
    simpa using (List.mem_filter.mp mem).2
  rcases ledger with ⟨none, -, -⟩ | ⟨row', some', rows⟩
  · rw [none] at some
    cases some
  · obtain rfl := List.singleton_inj.mp (some'.symm.trans some)
    rw [countP_usable, rows, List.countP_singleton]
    simp [RegistrationToken.usable, own]

theorem use (hash' : List UInt8) (now : Int) :
    Ledger hash (es ++ [⟨.sql (.consumeRegistrationToken hash' now),
      some (tokens.countP (RegistrationToken.usable hash' now))⟩]) (spend hash' now tokens) := by
  by_cases own : hash' = hash
  · subst own
    unfold Ledger
    rw [mintedRows_snoc rfl, usesOf_snoc, tokensOf_spend, countP_usable]
    rcases ledger with ⟨none, zero, empty⟩ | ⟨row, some, rows⟩
    · refine Or.inl ⟨none, ?_, ?_⟩
      · rw [empty, zero]
        simp [used]
      · rw [empty]
        rfl
    · refine Or.inr ⟨row, some, ?_⟩
      rw [rows, List.countP_singleton]
      cases usable : RegistrationToken.usable hash' now { row with uses := usesOf hash' es } with
      | true => simp [spend, updateWhere, usable, used]
      | false => simp [spend, updateWhere, usable, used]
  · have unused (rows : Nat) :
        used ⟨.sql (.consumeRegistrationToken hash' now), some rows⟩ ≠ some hash := by
      unfold used
      dsimp only
      split
      · intro same
        cases same
      · exact fun same => own (Option.some.inj same)
    have same : tokensOf hash (spend hash' now tokens) = tokensOf hash tokens :=
      (tokensOf_spend hash hash' now tokens).trans (spend_other own now tokens)
    have kept (rows : Nat) : Ledger hash
        (es ++ [⟨.sql (.consumeRegistrationToken hash' now), some rows⟩]) tokens :=
      ledger.other rfl (unused rows)
    unfold Ledger at kept ⊢
    rw [same]
    exact kept _

end Ledger

/-- Only one of the rows minted in this run has the hash. -/
def MintedOnce (hash : List UInt8) (h : PoolLog) : Prop :=
  ∀ m n i j row row', At h m i ⟨.sql (.insertRegistrationToken row), some ()⟩ →
    At h n j ⟨.sql (.insertRegistrationToken row'), some ()⟩ →
    row.tokenHash = hash → row'.tokenHash = hash → m = n

theorem mints_eq_some (mint : mints ev = some row) :
    ev = ⟨.sql (.insertRegistrationToken row), some ()⟩ := by
  unfold mints at mint
  split at mint
  · obtain rfl := Option.some.inj mint
    rfl
  · cases mint

/-- A minted row stands at a position. -/
theorem mem_mintedRows (run : PoolRun A allowed h s)
    (mem : row ∈ mintedRows hash (events (h.take n))) : row.tokenHash = hash ∧
      ∃ m < n, ∃ i, At h m i ⟨.sql (.insertRegistrationToken row), some ()⟩ := by
  obtain ⟨mem, own⟩ := List.mem_filter.mp mem
  obtain ⟨ev, mem, mint⟩ := List.mem_filterMap.mp mem
  obtain rfl := mints_eq_some mint
  exact ⟨of_decide_eq_true own, mem_events run mem⟩

/-- The passage of an admin's request behind a minted row. -/
theorem minted_by (run : PoolRun A allowed h s) {x : Option Unit}
    (a : At h n i ⟨.sql (.insertRegistrationToken row), x⟩) : ∃ key req, ∃ y : Minting,
      (requests (h.take n))[i]? = some (.createRegistrationToken key req) ∧
        key.getD "" = A.config.adminApiKey ∧ eventsOf i (h.take n) = y.events ∧
        row = y.row A req := by
  obtain ⟨c, request, spec⟩ := a.sat run handle_mint_sat
  obtain ⟨key, req, rfl, admin, y, seen, op⟩ := spec rfl
  exact ⟨key, req, y, request, admin, seen, Statement.insertRegistrationToken.inj (Op.sql.inj op)⟩

/-- What the table is at every position and at the end, by what each event does to it. -/
theorem induction_tokens {I : List (Event signature) → List RegistrationToken → Prop}
    (run : PoolRun A allowed h s) (start : I [] [])
    (mint : ∀ n i row e, At h n i ⟨.sql (.insertRegistrationToken row), some ()⟩ →
      h[n]? = some e → I (events (h.take n)) e.before.world.db.registrationTokens →
      I (events (h.take n) ++ [⟨.sql (.insertRegistrationToken row), some ()⟩])
        (e.before.world.db.registrationTokens ++ [row]))
    (use : ∀ es tokens hash now, I es tokens →
      I (es ++ [⟨.sql (.consumeRegistrationToken hash now),
        some (tokens.countP (RegistrationToken.usable hash now))⟩]) (spend hash now tokens))
    (other : ∀ es ev tokens, mints ev = none → used ev = none →
      I es tokens → I (es ++ [ev]) tokens) :
    I (events h) s.world.db.registrationTokens ∧ ∀ (n : Nat) e, h[n]? = some e →
      I (events (h.take n)) e.before.world.db.registrationTokens := by
  refine induction_events run (I := fun es w => I es w.db.registrationTokens) start ?_ ?_
  · intro n i ev e a at_n before
    have step := exec_tokenStep (A := A) (a.exec run at_n).1
    change I _ (exec A ev.op e.before.world).2.db.registrationTokens
    generalize (exec A ev.op e.before.world).2.db.registrationTokens = tokens at step ⊢
    generalize old : e.before.world.db.registrationTokens = tokens' at step before
    cases step with
    | minted row =>
        rw [← old] at before ⊢
        exact mint n i row e a at_n before
    | used hash now => exact use _ _ hash now before
    | other _ unminted unused => exact other _ ev _ unminted unused before
  · intro es x w before
    cases x <;> exact before

theorem ledger_run (run : PoolRun A allowed h s) (once : MintedOnce hash h) :
    Ledger hash (events h) s.world.db.registrationTokens ∧ ∀ (n : Nat) e, h[n]? = some e →
      Ledger hash (events (h.take n)) e.before.world.db.registrationTokens := by
  refine induction_tokens run (Or.inl ⟨rfl, rfl, rfl⟩) ?_ ?_ ?_
  · intro n i row e a _ ledger
    obtain ⟨-, req, y, -, -, -, rfl⟩ := minted_by run a
    refine ledger.mint rfl fun own => ?_
    refine List.eq_nil_iff_forall_not_mem.mpr fun row' mem => ?_
    obtain ⟨own', m, lt, j, b⟩ := mem_mintedRows run mem
    have := once m n j i _ _ b a own' own
    omega
  · intro es tokens hash' now ledger
    exact ledger.use hash' now
  · intro es ev tokens unminted unused ledger
    exact ledger.other unminted (by rw [unused]; exact nofun)

/-- A row of the table is a minted one but for its uses, which never leave their bounds. -/
def Bounded (es : List (Event signature)) (t : RegistrationToken) : Prop :=
  ∃ row ∈ es.filterMap mints, t = { row with uses := t.uses } ∧
    0 ≤ t.uses ∧ t.uses ≤ max row.maxUses 0

theorem Bounded.append {es : List (Event signature)} {t : RegistrationToken}
    (bounded : Bounded es t) (es' : List (Event signature)) : Bounded (es ++ es') t := by
  obtain ⟨row, mem, rest⟩ := bounded
  exact ⟨row, by rw [List.filterMap_append]; exact List.mem_append_left _ mem, rest⟩

theorem bounded_run (run : PoolRun A allowed h s) :
    ∀ t ∈ s.world.db.registrationTokens, Bounded (events h) t := by
  refine (induction_tokens run (I := fun es tokens => ∀ t ∈ tokens, Bounded es t) nofun ?_ ?_ ?_).1
  · intro n i row e a _ before t mem
    rcases List.mem_append.mp mem with old | new
    · exact (before t old).append _
    · obtain rfl := List.mem_singleton.mp new
      obtain ⟨-, req, y, -, -, -, same⟩ := minted_by run a
      have unused : t.uses = 0 := by rw [same]; rfl
      refine ⟨t, ?_, rfl, unused.ge, unused.trans_le (Int.le_max_right _ _)⟩
      rw [List.filterMap_append]
      exact List.mem_append_right _ (List.mem_singleton_self _)
  · intro es tokens hash now before t mem
    obtain ⟨old, there, rfl⟩ := mem_updateWhere.mp mem
    obtain ⟨row, minted, same, least, most⟩ := (before old there).append
      [⟨.sql (.consumeRegistrationToken hash now),
        some (tokens.countP (RegistrationToken.usable hash now))⟩]
    have limit : old.maxUses = row.maxUses := by rw [same]
    split
    · rename_i usable
      simp only [RegistrationToken.usable, Bool.and_eq_true, decide_eq_true_eq] at usable
      refine ⟨row, minted, by rw [same], ?_, ?_⟩ <;> dsimp only <;> omega
    · exact ⟨row, minted, same, least, most⟩
  · intro es ev tokens _ _ before t mem
    exact (before t mem).append _

theorem sum_spend (hash : List UInt8) (now : Int) (tokens : List RegistrationToken) :
    ((spend hash now tokens).map RegistrationToken.uses).sum =
      (tokens.map RegistrationToken.uses).sum +
        tokens.countP (RegistrationToken.usable hash now) := by
  induction tokens with
  | nil => rfl
  | cons t tokens ih =>
      simp only [spend, updateWhere, List.map_cons, List.sum_cons, List.countP_cons] at ih ⊢
      rw [ih]
      split <;> push_cast <;> omega

/-- The column `uses` counts at least the uses. -/
theorem uses_le_sum (run : PoolRun A allowed h s) :
    ((events h).countP fun ev => (used ev).isSome : Int) ≤
      (s.world.db.registrationTokens.map RegistrationToken.uses).sum := by
  refine (induction_tokens run (I := fun es tokens =>
    (es.countP fun ev => (used ev).isSome : Int) ≤ (tokens.map RegistrationToken.uses).sum)
    (Int.le_refl 0) ?_ ?_ ?_).1
  · intro n i row e a _ before
    obtain ⟨-, req, y, -, -, -, rfl⟩ := minted_by run a
    rw [List.countP_append, List.map_append, List.sum_append]
    simpa [used, Minting.row] using before
  · intro es tokens hash now before
    have last (rows : Nat) : (if (used ⟨.sql (.consumeRegistrationToken hash now),
        some rows⟩).isSome then 1 else 0) ≤ rows := by
      cases rows <;> simp [used]
    rw [List.countP_append, List.countP_singleton, sum_spend]
    have := last (tokens.countP (RegistrationToken.usable hash now))
    omega
  · intro es ev tokens _ unused before
    rw [List.countP_append, List.countP_singleton, unused]
    simpa using before

/-- An answered insert of a user. -/
def addsUser : Event signature → Bool
  | ⟨.sql (.insertUser _), some _⟩ => true
  | _ => false

theorem exec_users_length {w : World} (answer : ev.answer = (exec A ev.op w).1) :
    (exec A ev.op w).2.db.users.length = w.db.users.length + [ev].countP addsUser := by
  obtain ⟨op, x⟩ := ev
  by_cases part : op.part = .users
  · cases op with
    | sql statement =>
        rcases exec_sql_cases A w statement with failed | ⟨y, db, -, executed, result⟩
        · rw [failed] at answer ⊢
          obtain rfl : x = none := answer
          cases statement <;> rfl
        · rw [result] at answer ⊢
          obtain rfl : x = some y := answer
          cases statement with
          | insertUser row =>
              simp only [Statement.execute, Option.ite_none_left_eq_some, Option.some.injEq,
                Prod.mk.injEq] at executed
              obtain ⟨-, -, rfl⟩ := executed
              exact List.length_append
          | updateTokensValidFrom now u | updateSuspended b reason u =>
              obtain ⟨-, rfl⟩ := Prod.mk.inj (Option.some.inj executed)
              exact List.length_map _
          | _ => cases part
    | _ => cases part
  · rw [exec_users A op w part]
    cases op with
    | sql statement =>
        cases statement <;> first
          | rfl
          | exact absurd rfl part
    | _ => rfl

theorem users_run (run : PoolRun A allowed h s) :
    s.world.db.users.length = (events h).countP addsUser := by
  refine (induction_events run (I := fun es w => w.db.users.length = es.countP addsUser) rfl
    ?_ ?_).1
  · intro n i ev e a at_n before
    rw [List.countP_append, ← before]
    exact exec_users_length (a.exec run at_n).1
  · intro es x w before
    cases x <;> exact before

/-- A thread adds one user at most, after it has used a token. -/
theorem adds_after_use (isPush : Register.gate A = some .push) (run : PoolRun A allowed h s)
    (i : Nat) : (eventsOf i h).countP addsUser ≤
      (eventsOf i h).countP fun ev => (used ev).isSome := by
  have behind {before after : List (Event signature)} {ev : Event signature}
      (split : eventsOf i h = before ++ ev :: after) (adds : addsUser ev = true) :
      ∃ token time rows userId now, rows ≠ 0 ∧ before =
        Register.gateEvents A token time (some rows) ++ [⟨.newUuid, userId⟩, ⟨.unixNow, now⟩] := by
    obtain ⟨n, a, seen⟩ := at_of_eventsOf_end before split
    obtain ⟨c, -, spec⟩ := a.sat run (handle_insertUser_sat isPush)
    rw [seen] at spec
    refine spec ?_
    unfold addsUser at adds
    split at adds
    · rfl
    · cases adds
  have once : (eventsOf i h).countP addsUser ≤ 1 := by
    refine countP_le_one (k := 4) fun before ev after split adds => ?_
    obtain ⟨token, time, rows, userId, now, -, rfl⟩ := behind split adds
    rfl
  rcases Nat.eq_zero_or_pos ((eventsOf i h).countP addsUser) with zero | positive
  · omega
  · obtain ⟨ev, mem, adds⟩ := List.countP_pos_iff.mp positive
    obtain ⟨before, after, split⟩ := List.append_of_mem mem
    obtain ⟨token, time, rows, userId, now, found, rfl⟩ := behind split adds
    refine Nat.le_trans once (List.countP_pos_iff.mpr ⟨⟨.sql (.consumeRegistrationToken
      (Register.tokenHash A token) (asI64 time)), some rows⟩, ?_, ?_⟩)
    · rw [split]
      simp [Register.gateEvents]
    · simp [used, found]

theorem users_le_uses (isPush : Register.gate A = some .push) (run : PoolRun A allowed h s) :
    (s.world.db.users.length : Int) ≤
      (s.world.db.registrationTokens.map RegistrationToken.uses).sum := by
  have paid := countP_events_le run (adds_after_use isPush run)
  have := uses_le_sum run
  rw [users_run run]
  omega

end Smqtt
