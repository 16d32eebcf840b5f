import Smqtt.Metatheory.CutoffOrder
import Smqtt.Metatheory.KickReach

/-!
A kick and the requests in flight. The cutoff of a kick is a clock reading, and `verify`
names the clock when it issues, not when it reads; a CONNECT is kicked once it is accepted,
not while the hook decides about it. So a `verify` or a hook that has read before the kick
and goes on after it gets past. Without such a request a kick is a barrier.
-/

namespace Smqtt

open AtomicSteps System

/-- The clock advances between any two steps. -/
def Apart : Scheduling := fun h s a =>
  match a with
  | .step _ => ∀ e ∈ h, e.response.isSome → e.before.world.clock.secs < s.world.clock.secs
  | _ => True

def GenuineApart (A : AppState) : Scheduling := fun h s a => Genuine A h s a ∧ Apart h s a

/-- At position `d` thread `q` takes from `v` what `reading` has found till then: the topics,
or the status. A revocation kicks both of its parties. -/
inductive Withdrawn (h : PoolLog) (d q : Nat) : String → Statement → Prop
  | topics {authorization : Option String} {r v : String} {rows : Nat} :
      (requests h)[q]? = some (.revokeRelationship authorization r) →
      At h d q ⟨.sql (.deleteRelationship r v), some rows⟩ →
      Withdrawn h d q v (.selectRelationships v)
  | peerTopics {authorization : Option String} {r v : String} {m rows : Nat} {row : Relationship} :
      (requests h)[q]? = some (.revokeRelationship authorization r) →
      At h m q ⟨.sql (.selectRelationship r v), some (some row)⟩ →
      At h d q ⟨.sql (.deleteRelationship r v), some rows⟩ →
      Withdrawn h d q row.peerId (.selectRelationships row.peerId)
  | status {key : Option String} {v : String} {req : Admin.SuspendRequest} {rows : Nat} :
      (requests h)[q]? = some (.suspendUser key v req) →
      At h d q ⟨.sql (.updateSuspended true req.reason v), some rows⟩ →
      Withdrawn h d q v (.selectUser v)

/-- The token was issued to `v` on what `reading` had found before position `d`. -/
def StaleToken (A : AppState) (h : PoolLog) (d : Nat) (v : String) (reading : Statement)
    (token : String) (claims : Claims) : Prop :=
  claims.sub = v ∧ ∃ b k j x, At h b j ⟨.sql reading, x⟩ ∧ b < d ∧ IssuedAt A h k j token claims

/-- The broker would accept the token. -/
def Acceptable (A : AppState) (w : World) (token : String) (claims : Claims) : Prop :=
  JwtKeys.verify A w.clock token = .ok claims ∧
    ∃ user, w.db.user claims.sub = some user ∧ user.suspended = false ∧
      user.tokensValidFrom ≤ asI64 claims.iat

/-- Nothing is left of what `reading` had found before position `d`: in tokens, in live
connections and their entries in the sessions map, and in the decisions to admit them. -/
structure Barred (A : AppState) (h : PoolLog) (s : Threads) (d : Nat) (v : String)
    (reading : Statement) : Prop where
  tokens : ∀ token claims, StaleToken A h d v reading token claims →
    ¬Acceptable A s.world token claims
  connections : ∀ x ∈ s.world.connections, ∀ claims, ¬StaleToken A h d v reading x.token claims
  sessions : ∀ x ∈ s.world.connections, ∀ token claims,
    s.world.sessions x.clientId = some claims → ¬StaleToken A h d v reading token claims
  hooks : ∀ x ∈ s.world.connections, ∀ a b j y, At h a j ⟨.accept x.clientId x.token, x.id⟩ →
    At h b j ⟨.sql reading, y⟩ → b < a → ¬b < d

/-- Revocations and suspensions that have returned have barred what they withdrew. -/
def Barrier (A : AppState) (h : PoolLog) (s : Threads) : Prop :=
  ∀ q c reply d v reading, s.threads[q]? = some (c, .done reply) → Withdrawn h d q v reading →
    Barred A h s d v reading

/-- At position `b` the hook of thread `j` reads the row of `v`. -/
structure Looks (h : PoolLog) (b j : Nat) (info : ConnectInfo) (v : String) : Prop where
  request : (requests h)[j]? = some (.connect info)
  selected : ∃ x, At h b j ⟨.sql (.selectUser v), x⟩

/-- No request gets past the kick that reads the clock at position `t` and writes the cutoff
at position `c`. A `verify` that has read before the withdrawal issues before `t`. A hook that
has read the row before `c` has finished when its client is kicked, and when another hook of
its client reads the row after `c`. A kick of the same user that read the clock before `t` does
not write after `c`. -/
structure Unraced (h : PoolLog) (v : String) (reading : Statement) (d t c q : Nat) : Prop where
  issues : ∀ b k j x dev ps ss nt r, At h b j ⟨.sql reading, x⟩ → b < d →
    At h k j ⟨.jwtIssue v dev ps ss nt, r⟩ → k < t
  hooks : ∀ b j info k ev p, Looks h b j info v → b < c → At h k j ev → c < p →
    At h p q ⟨.kick info.clientId, ()⟩ → k < p
  takeovers : ∀ b j info k ev b' j' info', Looks h b j info v → b < c → At h k j ev →
    Looks h b' j' info' v → info'.clientId = info.clientId → c < b' → k < b'
  inTurn : ∀ t' c' q' now', Moves h v t' c' q' now' → c < c' → t < t'

/-- No statement of a revoking or suspending request fails, and no request gets past its kick. -/
structure RaceFree (h : PoolLog) : Prop where
  answered : ∀ d q v reading, Withdrawn h d q v reading →
    ∀ n statement x, At h n q ⟨.sql statement, x⟩ → x ≠ none
  unraced : ∀ d q v reading t c now, Withdrawn h d q v reading → Moves h v t c q now → d < t →
    Unraced h v reading d t c q

variable {A : AppState} {allowed : Scheduling} {h : PoolLog} {s : Threads}
  {v token : String} {reading : Statement} {claims : Claims}
  {i j k m n d q t c now : Nat} {e : PoolEntry signature World Call Env Error Reply}

theorem Apart.lt (apart : ∀ h s a, allowed h s a → Apart h s a) (run : PoolRun A allowed h s)
    {ev ev' : Event signature} (a : At h m i ev) (b : At h n j ev') (lt : m < n)
    {e f : PoolEntry signature World Call Env Error Reply} (at_m : h[m]? = some e)
    (at_n : h[n]? = some f) : e.before.world.clock.secs < f.before.world.clock.secs := by
  have ok := apart _ _ _ (b.pending run at_n).1
  obtain ⟨e', at_m', -, response⟩ := a
  obtain rfl := Option.some.inj (at_m.symm.trans at_m')
  refine ok e (List.mem_of_getElem? (i := m) ?_) (by rw [response]; rfl)
  rw [List.getElem?_take_of_lt lt]
  exact at_m

theorem Moves.order (moves : Moves h v t c q now) : t < c := lt_of_seen moves.last

theorem Moves.of_take (moves : Moves (h.take n) v t c q now) : Moves h v t c q now := by
  obtain ⟨rows, found, wrote⟩ := moves.wrote
  have short := wrote.lt_of_take
  have short' := moves.looked.lt_of_take
  have last := moves.last
  rw [List.take_take, List.take_take, Nat.min_eq_left (Nat.le_of_lt short),
    Nat.min_eq_left (Nat.le_of_lt short')] at last
  exact ⟨(at_take short').mp moves.looked, ⟨rows, found, (at_take short).mp wrote⟩, last⟩

theorem Moves.take (moves : Moves h v t c q now) (lt : c < n) : Moves (h.take n) v t c q now := by
  obtain ⟨rows, found, wrote⟩ := moves.wrote
  refine ⟨(at_take (Nat.lt_trans moves.order lt)).mpr moves.looked,
    ⟨rows, found, (at_take lt).mpr wrote⟩, ?_⟩
  rw [List.take_take, List.take_take, Nat.min_eq_left (Nat.le_of_lt lt),
    Nat.min_eq_left (Nat.le_of_lt (Nat.lt_trans moves.order lt))]
  exact moves.last

/-- Where no later UPDATE is of an earlier look at the clock, a cutoff holds. -/
theorem Moves.holds (run : PoolRun A allowed h s) (moves : Moves h v t c q now)
    (inTurn : ∀ t' c' q' now', Moves h v t' c' q' now' → c < c' → t < t') :
    ∃ y, s.world.db.user v = some y ∧ (now : Int) ≤ y.tokensValidFrom := by
  obtain ⟨rows, found, wrote⟩ := moves.wrote
  obtain ⟨e, at_c⟩ := wrote.entry
  refine wrote.onward run (I := fun w => ∃ y, w.db.user v = some y ∧
    (now : Int) ≤ y.tokensValidFrom) at_c ?_ ?_ ?_
  · obtain ⟨y, row, written⟩ := moves.after run at_c
    rw [← (wrote.exec run at_c).2]
    exact ⟨y, row, by rw [written]⟩
  · rintro k j ev g lt a at_k ⟨y, row, least⟩
    obtain ⟨z, row', cutoff⟩ := exec_cutoff (a.exec run at_k).1 row
    refine ⟨z, row', ?_⟩
    rcases cutoff with kept | ⟨rows', found', rfl⟩
    · rw [kept]
      exact least
    · obtain ⟨t', now', written, other⟩ := moves_of_update run found' a
      by_contra falls
      have := other.lt run moves (by omega)
      exact absurd (inTurn t' k j now' other lt) (by omega)
  · intro x w cut
    cases x <;> exact cut

theorem Moves.holds_at (run : PoolRun A allowed h s) (moves : Moves h v t c q now)
    (inTurn : ∀ t' c' q' now', Moves h v t' c' q' now' → c < c' → t < t') (lt : c < n)
    (at_n : h[n]? = some e) :
    ∃ y, e.before.world.db.user v = some y ∧ (now : Int) ≤ y.tokensValidFrom :=
  (moves.take lt).holds (run.take at_n).1
    fun t' c' q' now' other => inTurn t' c' q' now' other.of_take

/-- Thread `q` has gone through a kick of `v`: its UPDATE stands at position `c`, and every
device that `v` has by then is kicked. -/
structure Struck (h : PoolLog) (v : String) (t c q now : Nat)
    (e : PoolEntry signature World Call Env Error Reply) : Prop where
  at_c : h[c]? = some e
  order : t < c
  moves : e.before.world.db.hasUser v = true → Moves h v t c q now
  kicks : ∀ device ∈ e.before.world.db.devices, device.userId = v →
    ∃ p, c < p ∧ At h p q ⟨.kick device.deviceId, ()⟩

theorem struck_of_kick (run : PoolRun A allowed h s)
    (answered : ∀ n statement x, At h n q ⟨.sql statement, x⟩ → x ≠ none)
    {start rest : List (Event signature)} {rows : Option Nat} {devices : Option (List Device)}
    (seen : eventsOf q h = start ++ (kickEvents v now rows devices ++ rest)) :
    ∃ t c e, Struck h v t c q now e ∧ eventsOf q (h.take t) = start := by
  have parts : eventsOf q h = start ++ ⟨.unixNow, now⟩ ::
      ⟨.sql (.updateTokensValidFrom (asI64 now) v), rows⟩ :: ⟨.sql (.selectDevices v), devices⟩ ::
        ((devices.getD []).map kickEvent ++ rest) := seen
  obtain ⟨t, looked, before⟩ := at_of_eventsOf_end start parts
  rw [List.append_cons] at parts
  obtain ⟨c, wrote, before_c⟩ := at_of_eventsOf_end _ parts
  rw [List.append_cons] at parts
  obtain ⟨g, listed, before_g⟩ := at_of_eventsOf_end _ parts
  rw [List.append_cons] at parts
  have order : t < c := lt_of_seen (by rw [before_c, before])
  have order_g : c < g := lt_of_seen (by rw [before_g, before_c])
  obtain ⟨written, rfl⟩ := Option.ne_none_iff_exists'.mp (answered c _ _ wrote)
  obtain ⟨found, rfl⟩ := Option.ne_none_iff_exists'.mp (answered g _ _ listed)
  obtain ⟨e, at_c⟩ := wrote.entry
  obtain ⟨f, at_g⟩ := listed.entry
  refine ⟨t, c, e, ⟨at_c, order, fun known => ?_, fun device mem owner => ?_⟩, before⟩
  · obtain ⟨db, executed, -⟩ := answered_by run wrote at_c
    obtain ⟨rfl, -⟩ := Prod.mk.inj (Option.some.inj executed)
    obtain ⟨user, mem, id⟩ := List.any_eq_true.mp known
    obtain ⟨f, at_t⟩ := looked.entry
    have time : now = f.before.world.clock.secs := (looked.exec run at_t).1
    have same : asI64 now = now := by rw [time, Clock.asI64_secs]
    rw [same] at wrote
    refine ⟨looked, ⟨_, Nat.ne_of_gt (List.countP_pos_iff.mpr ⟨user, mem, id⟩), wrote⟩, ?_⟩
    rw [before_c, before]
  · obtain ⟨db, executed, -⟩ := answered_by run listed at_g
    obtain ⟨rfl, -⟩ := Prod.mk.inj (Option.some.inj executed)
    have there := (database_extends (run.take at_g).1
      ((List.getElem?_take_of_lt order_g).trans at_c)).devices device mem
    have own : device ∈ f.before.world.db.devices.filter fun d => d.userId = v :=
      List.mem_filter.mpr ⟨there, by simpa using owner⟩
    obtain ⟨earlier, later, split⟩ := List.append_of_mem own
    have upTo : eventsOf q h = (eventsOf q (h.take g) ++
        ⟨.sql (.selectDevices v), some (earlier ++ device :: later)⟩ :: earlier.map kickEvent) ++
          kickEvent device :: (later.map kickEvent ++ rest) := by
      rw [parts, before_g, split]
      simp
    obtain ⟨p, kicked, before_p⟩ := at_of_eventsOf_end _ upTo
    exact ⟨p, Nat.lt_trans order_g (lt_of_seen before_p), kicked⟩

theorem not_mem_kickEvents {ev : Event signature} {rows : Option Nat}
    {devices : Option (List Device)} (changes : ev.op.kind ≠ .read) (other : ¬ev.op.strikes) :
    ev ∉ kickEvents v now rows devices :=
  fun mem => (kind_of_mem_kickEvents mem).elim changes other

/-- A revocation has kicked both parties of the row it has deleted. -/
theorem revocation_struck (run : PoolRun A allowed h s)
    (answered : ∀ n statement x, At h n q ⟨.sql statement, x⟩ → x ≠ none)
    {authorization : Option String} {x : Revoking authorization} {r : String} {now now' : Nat}
    {rows rows' : Option Nat} {devices devices' : Option (List Device)}
    (seen : eventsOf q h = x.events r ++ (kickEvents x.claims.sub now rows devices ++
      kickEvents x.row.peerId now' rows' devices')) {found : Option Nat}
    (deleted : At h d q ⟨.sql (.deleteRelationship r v), found⟩) :
    v = x.claims.sub ∧ (∃ t c now e, d < t ∧ Struck h x.claims.sub t c q now e) ∧
      ∃ t c now e, d < t ∧ Struck h x.row.peerId t c q now e := by
  have other (u : String) (now : Nat) (rows : Option Nat) (devices : Option (List Device)) :
      ⟨.sql (.deleteRelationship r v), found⟩ ∉ kickEvents u now rows devices :=
    not_mem_kickEvents nofun (by simp [Op.strikes, Op.kind, Statement.kind])
  refine ⟨?_, ?_, ?_⟩
  · have mem := deleted.seen
    rw [seen] at mem
    rcases List.mem_append.mp mem with own | kick
    · have same : v = x.claims.sub ∧ found = some x.rows := by simpa [Revoking.events] using own
      exact same.1
    · exact absurd kick (by simp [other])
  · obtain ⟨t, c, e, struck, before⟩ := struck_of_kick run answered seen
    exact ⟨t, c, now, e, deleted.lt_of_not_mem seen before (by simp [other]), struck⟩
  · rw [← List.append_assoc, ← List.append_nil (kickEvents x.row.peerId _ _ _)] at seen
    obtain ⟨t, c, e, struck, before⟩ := struck_of_kick run answered seen
    exact ⟨t, c, now', e, deleted.lt_of_not_mem seen before (by simp [other]), struck⟩

/-- A request that has returned has kicked those from whom it took something. -/
theorem Withdrawn.struck (run : PoolRun A allowed h s) {call : Call} {reply : Reply}
    (done : s.threads[q]? = some (call, .done reply)) (withdrawn : Withdrawn h d q v reading)
    (answered : ∀ n statement x, At h n q ⟨.sql statement, x⟩ → x ≠ none) :
    ∃ t c now e, d < t ∧ Struck h v t c q now e := by
  have request := thread_request run done
  have kicked := (threads_path run done).sat (handle_kicks_sat call) reply rfl
  cases withdrawn with
  | topics served deleted =>
      obtain rfl := Option.some.inj (request.symm.trans served)
      obtain ⟨x, now, rows, devices, now', rows', devices', seen⟩ := kicked
      obtain ⟨rfl, struck, -⟩ := revocation_struck run answered seen deleted
      exact struck
  | @peerTopics _ _ _ _ _ row served selected deleted =>
      obtain rfl := Option.some.inj (request.symm.trans served)
      obtain ⟨x, now, rows, devices, now', rows', devices', seen⟩ := kicked
      obtain ⟨rfl, -, struck⟩ := revocation_struck run answered seen deleted
      have mem := selected.seen
      rw [show eventsOf q h = _ from seen] at mem
      obtain rfl : row = x.row := by
        simpa [Revoking.events, kickEvents, kickEvent] using mem
      exact struck
  | status served suspended =>
      obtain rfl := Option.some.inj (request.symm.trans served)
      obtain ⟨rows, now, rows', devices, seen⟩ := kicked
      rw [List.nil_append, ← List.append_nil (kickEvents _ _ _ _)] at seen
      obtain ⟨t, c, e, struck, before⟩ := struck_of_kick run answered seen
      refine ⟨t, c, now, e, suspended.lt_of_not_mem seen before ?_, struck⟩
      rw [List.append_nil]
      exact not_mem_kickEvents (by intro h; cases h) (by simp [Op.strikes, Op.kind, Statement.kind])

theorem Withdrawn.reads (withdrawn : Withdrawn h d q v reading) :
    reading = .selectRelationships v ∨ reading = .selectUser v := by
  cases withdrawn with
  | topics => exact Or.inl rfl
  | peerTopics => exact Or.inl rfl
  | status => exact Or.inr rfl

/-- A `verify` that has read the topics or the status has found the user. -/
theorem StaleToken.known (run : PoolRun A allowed h s) (withdrawn : Withdrawn h d q v reading)
    (outdated : StaleToken A h d v reading token claims) (lt : d < n) (at_n : h[n]? = some e) :
    e.before.world.db.hasUser v = true := by
  obtain ⟨rfl, b, k, j, x, read, lt', issued⟩ := outdated
  obtain ⟨req, l, -, seen, user, -⟩ := issued.login run
  obtain ⟨u, -, found, before⟩ := at_of_eventsOf [_, _] seen
  have first : u ≤ b := by
    by_contra later
    have mem := read.mem_eventsOf (Nat.lt_of_not_le later)
    rw [before] at mem
    rcases withdrawn.reads with rfl | rfl
    · simp at mem
    · simp at mem
  rw [user] at found
  exact known_since run found (by omega) at_n

/-- A token issued on what has been withdrawn names a time before that of the kick. -/
theorem StaleToken.iat_lt (run : PoolRun A (GenuineApart A) h s)
    (outdated : StaleToken A h d v reading token claims) (unraced : Unraced h v reading d t c q)
    (moves : Moves h v t c q now) : asI64 claims.iat < now ∧
      ∃ k < c, ∃ j, IssuedAt A h k j token claims := by
  obtain ⟨rfl, b, k, j, x, read, lt, issued⟩ := outdated
  have earlier := unraced.issues b k j x _ _ _ _ _ read lt issued.issue
  obtain ⟨e, at_k⟩ := issued.issue.entry
  obtain ⟨f, at_t⟩ := moves.looked.entry
  have clock := Apart.lt (fun _ _ _ ok => ok.2) run issued.issue moves.looked earlier at_k at_t
  refine ⟨?_, k, Nat.lt_trans earlier moves.order, j, issued⟩
  rw [issued.clock e at_k, Clock.asI64_secs, moves.time run at_t]
  exact Int.ofNat_lt.mpr clock

theorem IssuedAt.take (issued : IssuedAt A h k j token claims) (lt : k < n) :
    IssuedAt A (h.take n) k j token claims where
  issue := (at_take lt).mpr issued.issue
  decodes := issued.decodes
  clock e at_k := issued.clock e ((List.getElem?_take_of_lt lt).symm.trans at_k)

theorem verified_decodes (run : PoolRun A allowed h s)
    (a : At h n i ⟨.jwtVerify token, .ok claims⟩) :
    A.lib.jwtDecode A.jwtKeys.secret token = some claims := by
  obtain ⟨e, at_n⟩ := a.entry
  have verifies : JwtKeys.verify A e.before.world.clock token = .ok claims :=
    (a.exec run at_n).1.symm
  exact (jwtVerify_decodes verifies).1

/-- The client of a token issued before the UPDATE is kicked. -/
theorem Struck.closes (run : PoolRun A (Genuine A) h s) (struck : Struck h v t c q now e)
    (issued : IssuedAt A h k j token claims) (lt : k < c) (sub : claims.sub = v) :
    ∃ p, c < p ∧ At h p q ⟨.kick claims.dev, ()⟩ := by
  obtain ⟨device, mem, id, owner⟩ := (issued.take lt).registered (run.take struck.at_c).1
  obtain ⟨p, later, kicked⟩ := struck.kicks device mem (owner.trans sub)
  rw [id] at kicked
  exact ⟨p, later, kicked⟩

section
variable {info : ConnectInfo} {x : Admission info} {b : Nat}

theorem Hook.looks (hook : Hook h j info x b) (sub : x.claims.sub = v) : Looks h b j info v := by
  refine ⟨hook.request, some (some x.user), ?_⟩
  rw [← sub]
  exact hook.selected

/-- A client id belongs to one user. -/
theorem Hook.subject (run : PoolRun A (Genuine A) h s) (hook : Hook h j info x b)
    (issued : IssuedAt A h k i token claims) (client : info.clientId = claims.dev) :
    x.claims.sub = claims.sub := by
  obtain ⟨n, -, verified⟩ := hook.verifies
  obtain ⟨device, mem, id, owner⟩ := verified_registered run verified
  obtain ⟨device', mem', id', owner'⟩ := issued.registered run
  have same : device.deviceId = device'.deviceId := by rw [id, id', ← x.device, client]
  rw [(pool_integrity run).device_eq mem mem' same] at owner
  exact owner.symm.trans owner'

/-- A hook that reads the row after the UPDATE admits no token of an earlier time. -/
theorem Hook.fresh (run : PoolRun A allowed h s) (moves : Moves h v t c q now)
    (unraced : Unraced h v reading d t c q) (hook : Hook h j info x b) (sub : x.claims.sub = v)
    (after : c < b) : (now : Int) ≤ asI64 x.claims.iat := by
  obtain ⟨e, at_b⟩ := hook.selected.entry
  obtain ⟨db, executed, -⟩ := answered_by run hook.selected at_b
  obtain ⟨row, -⟩ := Prod.mk.inj (Option.some.inj executed)
  obtain ⟨y, row', least⟩ := moves.holds_at run unraced.inTurn after at_b
  rw [← sub] at row'
  obtain rfl := Option.some.inj (row'.symm.trans row)
  exact least.trans x.current

theorem Hook.read_after (moves : Moves h v t c q now) (hook : Hook h j info x b)
    (not_before : ¬b < c) : c < b := by
  rcases Nat.lt_or_eq_of_le (Nat.le_of_not_lt not_before) with lt | rfl
  · exact lt
  · obtain ⟨rows, -, wrote⟩ := moves.wrote
    obtain ⟨-, same⟩ := wrote.unique hook.selected
    cases congrArg Event.op same

end

/-- The kick has passed over a token issued on what was withdrawn: at position `p` it has closed
the client of the token. -/
structure PassedOver (A : AppState) (h : PoolLog) (v : String) (reading : Statement)
    (d t c q now p : Nat) (token : String) (claims : Claims) : Prop where
  moves : Moves h v t c q now
  unraced : Unraced h v reading d t c q
  subject : claims.sub = v
  issued : ∃ k j, IssuedAt A h k j token claims
  later : c < p
  kicked : At h p q ⟨.kick claims.dev, ()⟩

variable {p : Nat}

/-- Behind a connection that outlives the kick of its client stands a hook that has read the
row after the UPDATE. -/
theorem PassedOver.live_hook (run : PoolRun A (Genuine A) h s)
    (passed : PassedOver A h v reading d t c q now p token claims) {x : Connection}
    (live : x ∈ s.world.connections) (client : x.clientId = claims.dev) :
    ∃ info, ∃ y : Admission info, ∃ b m j, Hook h j info y b ∧ c < b ∧ b < m ∧
      At h m j ⟨.sessionsInsert x.clientId y.claims, ()⟩ ∧ y.token = x.token ∧
        info.clientId = x.clientId ∧ y.claims.sub = v := by
  obtain ⟨k, i, issued⟩ := passed.issued
  obtain ⟨a, j, accepted⟩ := accepted_at run live
  obtain ⟨info, y, m, -, b, lt, hook, stored, id, presented, -⟩ := hook_of_accept run accepted
  have subject := (hook.subject run issued (id.trans client)).trans passed.subject
  have kicked := passed.kicked
  rw [← client] at kicked
  have after : c < b := by
    refine hook.read_after passed.moves fun before => ?_
    refine gone_of_kick run accepted kicked ?_ live rfl rfl
    refine passed.unraced.hooks b j info a _ p (hook.looks subject) before accepted passed.later ?_
    rw [id]
    exact kicked
  exact ⟨info, y, b, m, j, hook, after, lt, stored, presented, id, subject⟩

/-- The claims that are stored for such a connection name the time of the kick or a later one. -/
theorem PassedOver.entry_fresh (run : PoolRun A (Genuine A) h s)
    (passed : PassedOver A h v reading d t c q now p token claims) {x : Connection}
    (live : x ∈ s.world.connections) (client : x.clientId = claims.dev) {stored : Claims}
    (entry : s.world.sessions x.clientId = some stored) : (now : Int) ≤ asI64 stored.iat := by
  obtain ⟨info, y, b, m, j, hook, after, lt, inserted, -, id, subject⟩ :=
    passed.live_hook run live client
  obtain ⟨k, i, issued⟩ := passed.issued
  obtain ⟨e, at_m⟩ := inserted.entry
  refine inserted.onward run (I := fun w => ∀ stored, w.sessions x.clientId = some stored →
    (now : Int) ≤ asI64 stored.iat) at_m ?_ ?_ ?_ stored entry
  · intro stored entry
    have first := (Function.update_self x.clientId (some y.claims) e.before.world.sessions).symm
    rw [← Option.some.inj (first.trans entry)]
    exact hook.fresh run passed.moves passed.unraced subject after
  · intro l j' ev f gt a at_l before stored entry
    rcases exec_session entry with old | inserts
    · exact before stored old
    · obtain ⟨op, answer⟩ := ev
      obtain rfl := inserts
      obtain ⟨info', y', b', -, hook', id', same⟩ := hook_of_insert run a
      have subject' := (hook'.subject run issued (id'.trans client)).trans passed.subject
      rw [← same]
      -- a hook that stores after this one has not read before the UPDATE
      refine hook'.fresh run passed.moves passed.unraced subject'
        (hook'.read_after passed.moves fun earlier => ?_)
      have := passed.unraced.takeovers b' j' info' l _ b j info (hook'.looks subject') earlier a
        (hook.looks subject) (id.trans id'.symm) after
      omega
  · intro z w before
    cases z <;> exact before

theorem StaleToken.passedOver (run : PoolRun A (GenuineApart A) h s) (clear : RaceFree h)
    (withdrawn : Withdrawn h d q v reading) (lt : d < t) (struck : Struck h v t c q now e)
    (outdated : StaleToken A h d v reading token claims) : asI64 claims.iat < now ∧
      ∃ p, PassedOver A h v reading d t c q now p token claims := by
  have moves := struck.moves
    (outdated.known run withdrawn (Nat.lt_trans lt struck.order) struck.at_c)
  have unraced := clear.unraced d q v reading t c now withdrawn moves lt
  obtain ⟨stale, k, before, j, issued⟩ := outdated.iat_lt run unraced moves
  obtain ⟨p, later, kicked⟩ := struck.closes (run.weaken fun _ _ _ ok => ok.1) issued before
    outdated.1
  exact ⟨stale, p, moves, unraced, outdated.1, ⟨k, j, issued⟩, later, kicked⟩

/-- A hook that has read the status before the suspension admits nobody who outlives the kick. -/
theorem Struck.hook_gone (run : PoolRun A (Genuine A) h s) (clear : RaceFree h)
    (withdrawn : Withdrawn h d q v reading) (lt : d < t) (struck : Struck h v t c q now e)
    {x : Connection} {a b : Nat} {y : Option reading.Answer}
    (accepted : At h a j ⟨.accept x.clientId x.token, x.id⟩)
    (read : At h b j ⟨.sql reading, y⟩) (before : b < a) (old : b < d) :
    x ∉ s.world.connections := by
  obtain ⟨info, z, m, -, b', -, hook, -, client, -, seen⟩ := hook_of_accept run accepted
  obtain ⟨rfl, rfl⟩ := hook.reads seen read before
  obtain ⟨n, earlier, verified⟩ := hook.verifies
  obtain ⟨k, earlier', i, issued⟩ := verified_issued (fun _ _ _ ok => ok) run verified
  have order := struck.order
  have subject : z.claims.sub = v := by
    rcases withdrawn.reads with other | same
    · cases other
    · exact Statement.selectUser.inj same
  have moves := struck.moves (by
    rw [← subject]
    exact known_since run hook.selected (by omega) struck.at_c)
  have unraced := clear.unraced d q v _ t c now withdrawn moves lt
  obtain ⟨p, later, kicked⟩ := struck.closes run issued (by omega) subject
  rw [← z.device, client] at kicked
  intro live
  refine gone_of_kick run accepted kicked ?_ live rfl rfl
  refine unraced.hooks b j info a _ p (hook.looks subject) (by omega) accepted later ?_
  rw [client]
  exact kicked

/-- Without a race a kick is a barrier. -/
theorem kick_is_barrier (run : PoolRun A (GenuineApart A) h s) (clear : RaceFree h) :
    Barrier A h s := by
  intro q call reply d v reading done withdrawn
  have genuine : PoolRun A (Genuine A) h s := run.weaken fun _ _ _ ok => ok.1
  obtain ⟨t, c, now, e, lt, struck⟩ :=
    withdrawn.struck run done (clear.answered d q v reading withdrawn)
  refine ⟨fun token claims outdated acceptable => ?_, fun x live claims outdated => ?_,
    fun x live token claims entry outdated => ?_, fun x live a b j y accepted read before old => ?_⟩
  · obtain ⟨stale, p, passed⟩ := outdated.passedOver run clear withdrawn lt struck
    obtain ⟨-, user, row, -, current⟩ := acceptable
    obtain ⟨z, row', least⟩ := passed.moves.holds run passed.unraced.inTurn
    rw [passed.subject] at row
    obtain rfl := Option.some.inj (row.symm.trans row')
    omega
  · obtain ⟨stale, p, passed⟩ := outdated.passedOver run clear withdrawn lt struck
    obtain ⟨k, i, issued⟩ := passed.issued
    obtain ⟨n, j, claims', verified, client⟩ := connection_verified run live
    obtain rfl : claims' = claims :=
      Option.some.inj ((verified_decodes run verified).symm.trans issued.decodes)
    obtain ⟨info, y, b, m, j', hook, after, -, -, presented, -, subject⟩ :=
      passed.live_hook genuine live client
    have fresh := hook.fresh run passed.moves passed.unraced subject after
    obtain ⟨n', -, verified'⟩ := hook.verifies
    rw [presented] at verified'
    rw [Option.some.inj ((verified_decodes run verified').symm.trans issued.decodes)] at fresh
    omega
  · obtain ⟨stale, p, passed⟩ := outdated.passedOver run clear withdrawn lt struck
    obtain ⟨_, _, _, -, client⟩ := entry_verified run entry
    have := passed.entry_fresh genuine live client entry
    omega
  · exact struck.hook_gone genuine clear withdrawn lt accepted read before old live

theorem Withdrawn.server (withdrawn : Withdrawn h d q v reading) :
    (∃ authorization r, (requests h)[q]? = some (.revokeRelationship authorization r)) ∨
      ∃ key u req, (requests h)[q]? = some (.suspendUser key u req) := by
  cases withdrawn with
  | topics served => exact Or.inl ⟨_, _, served⟩
  | peerTopics served => exact Or.inl ⟨_, _, served⟩
  | status served => exact Or.inr ⟨_, _, _, served⟩

theorem Moves.lt_of_lt {t' c' now' : Nat} (x : Moves h v t c q now) (y : Moves h v t' c' q now')
    (lt : c < c') : t < t' := by
  obtain ⟨rows, -, wrote⟩ := x.wrote
  have longer := wrote.length_lt lt
  rw [x.last, y.last, List.length_append, List.length_append] at longer
  exact lt_of_eventsOf_lt (Nat.lt_of_add_lt_add_right longer)

/-- The only request that withdraws anything races with nobody if all others have finished
when it starts. -/
theorem raceFree_of_last (run : PoolRun A allowed h s)
    (sole : ∀ d i v reading, Withdrawn h d i v reading → i = q)
    (answered : ∀ n statement x, At h n q ⟨.sql statement, x⟩ → x ≠ none)
    (last : ∀ m n i ev ev', At h m i ev → At h n q ev' → i ≠ q → m < n) : RaceFree h := by
  refine ⟨fun d i v reading withdrawn => ?_, fun d i v reading t c now withdrawn moves lt => ?_⟩
  · rw [sole d i v reading withdrawn]
    exact answered
  · obtain rfl := sole d i v reading withdrawn
    obtain ⟨_, -, wrote⟩ := moves.wrote
    have foreign {j : Nat} {info : ConnectInfo}
        (request : (requests h)[j]? = some (.connect info)) : j ≠ i := by
      rintro rfl
      rcases withdrawn.server with ⟨_, _, other⟩ | ⟨_, _, _, other⟩
      · cases request.symm.trans other
      · cases request.symm.trans other
    refine ⟨fun b k j x dev ps ss nt r _ _ issue => ?_,
      fun b j info k ev p looks _ acts _ kicked =>
        last _ _ _ _ _ acts kicked (foreign looks.request),
      fun b j info k ev b' j' info' _ _ _ looks _ after => ?_,
      fun t' c' i' now' other after => ?_⟩
    · refine last _ _ _ _ _ issue moves.looked ?_
      rintro rfl
      obtain ⟨call, request, spec⟩ := issue.sat run handle_issue_sat
      obtain ⟨req, l, rfl, -, -⟩ := spec rfl
      rcases withdrawn.server with ⟨_, _, other⟩ | ⟨_, _, _, other⟩
      · cases (requests_of_take request).symm.trans other
      · cases (requests_of_take request).symm.trans other
    · obtain ⟨_, read⟩ := looks.selected
      have := last _ _ _ _ _ read wrote (foreign looks.request)
      omega
    · by_cases own : i' = i
      · subst own
        exact moves.lt_of_lt other after
      · obtain ⟨_, -, wrote'⟩ := other.wrote
        have := last _ _ _ _ _ wrote' wrote own
        omega

section
open Deployment

/-- The clock of the deployment advances before every step. -/
def spaced (schedule : List Schedule) : List Schedule :=
  schedule.flatMap fun a =>
    match a with
    | .step i => [.env (.tick 1), .step i]
    | a => [a]

instance (h : PoolLog) (s : Threads) (a : Schedule) : Decidable (Apart h s a) :=
  match a with
  | .step _ => inferInstanceAs (Decidable (∀ e ∈ h, _ → _))
  | .spawn _ => isTrue trivial
  | .env _ => isTrue trivial

def SpacedSchedule (schedule : List Schedule) : Prop :=
  poolMachine.AllowedFrom (fun h s a => Signed h s a ∧ Apart h s a) [] poolMachine.start
    (spaced schedule)

instance (schedule : List Schedule) : Decidable (SpacedSchedule schedule) :=
  inferInstanceAs (Decidable (poolMachine.AllowedFrom _ _ _ _))

theorem run_spaced {schedule : List Schedule} (honest : SpacedSchedule schedule) :
    PoolRun app (GenuineApart app) (poolLog (spaced schedule)) (poolState (spaced schedule)) :=
  (poolMachine.run_trace _ honest).weaken fun _ _ _ ok => ⟨ok.1.genuine, ok.2⟩

/-- A CONNECT with the token that the user gets, one second a step. -/
private def spacedConnect : Call :=
  .connect ⟨"1", some (.text (Deployment.token "0" "1" 116 [] []))⟩

private def spacedSuspend : Call := .suspendUser (some "admin") "0" ⟨none⟩

/-- A user logs in and connects, and is suspended. -/
def suspendLast : List Schedule := poolLogin ++ serve 3 4 spacedConnect ++ serve 4 5 spacedSuspend

private def flagged : Event signature → Option (Option String × String)
  | ⟨.sql (.updateSuspended true reason v), some _⟩ => some (reason, v)
  | _ => none

private def selectsUser : Event signature → Option String
  | ⟨.sql (.selectUser v), _⟩ => some v
  | _ => none

private def issues : Event signature → Option (String × String)
  | ⟨.jwtIssue u _ _ _ _, .ok token⟩ => some (u, token)
  | _ => none

private def withdraws : Event signature → Bool
  | ⟨.sql (.updateSuspended true _ _), _⟩ => true
  | ⟨.sql (.deleteRelationship _ _), _⟩ => true
  | _ => false

private def failedStatement : Event signature → Bool
  | ⟨.sql _, none⟩ => true
  | _ => false

private def threadOf (e : PoolEntry signature World Call Env Error Reply) : Option Nat :=
  match e.action, e.response with
  | .step i, some _ => some i
  | _, _ => none

private def hasReturned (s : Threads) (i : Nat) : Option (Call × Reply) :=
  match s.threads[i]? with
  | some (c, .done reply) => some (c, reply)
  | _ => none

private theorem Withdrawn.event (withdrawn : Withdrawn h d q v reading) :
    ∃ ev, At h d q ev ∧ withdraws ev = true := by
  cases withdrawn with
  | topics _ deleted => exact ⟨_, deleted, rfl⟩
  | peerTopics _ _ deleted => exact ⟨_, deleted, rfl⟩
  | status _ suspended => exact ⟨_, suspended, rfl⟩

private theorem flagged_eq_some {ev : Event signature} {reason : Option String}
    (flag : flagged ev = some (reason, v)) :
    ∃ rows, ev = ⟨.sql (.updateSuspended true reason v), some rows⟩ := by
  unfold flagged at flag
  split at flag
  · rename_i reason' v' rows
    obtain ⟨rfl, rfl⟩ := Prod.mk.inj (Option.some.inj flag)
    exact ⟨rows, rfl⟩
  · cases flag

private theorem selectsUser_eq_some {ev : Event signature} (selects : selectsUser ev = some v) :
    ∃ x, ev = ⟨.sql (.selectUser v), x⟩ := by
  unfold selectsUser at selects
  split at selects
  · rename_i v' x
    obtain rfl := Option.some.inj selects
    exact ⟨x, rfl⟩
  · cases selects

private theorem issues_eq_some {ev : Event signature} (issued : issues ev = some (v, token)) :
    ∃ dev ps ss nt, ev = ⟨.jwtIssue v dev ps ss nt, .ok token⟩ := by
  unfold issues at issued
  split at issued
  · obtain ⟨rfl, rfl⟩ := Prod.mk.inj (Option.some.inj issued)
    exact ⟨_, _, _, _, rfl⟩
  · cases issued

private theorem hasReturned_eq_some {call : Call} {reply : Reply}
    (returned : hasReturned s i = some (call, reply)) :
    s.threads[i]? = some (call, .done reply) := by
  unfold hasReturned at returned
  split at returned
  · rename_i c r thread
    obtain ⟨rfl, rfl⟩ := Prod.mk.inj (Option.some.inj returned)
    exact thread
  · cases returned

private theorem threadOf_at {ev : Event signature} (a : At h n i ev) (at_n : h[n]? = some e) :
    threadOf e = some i := by
  obtain ⟨f, at_n', action, response⟩ := a
  obtain rfl := Option.some.inj (at_n.symm.trans at_n')
  unfold threadOf
  rw [action, response]

private theorem suspendLast_facts : SpacedSchedule suspendLast ∧
    ((poolLog (spaced suspendLast)).all fun e =>
      !e.response.any withdraws || e.action = .step 4) = true ∧
    ((poolLog (spaced suspendLast)).all fun e =>
      e.action ≠ .step 4 || !e.response.any failedStatement) = true ∧
    ((poolLog (spaced suspendLast)).Pairwise fun e f =>
      threadOf e = some 4 → threadOf f = none ∨ threadOf f = some 4) ∧
    hasReturned (poolState (spaced suspendLast)) 4 = some (spacedSuspend, .noContent) ∧
    ((poolLog (spaced suspendLast))[47]?.map fun e =>
      (e.action, e.response.bind flagged)) = some (.step 4, some (none, "0")) ∧
    ((poolLog (spaced suspendLast))[29]?.map fun e =>
      (e.action, e.response.bind selectsUser)) = some (.step 2, some "0") ∧
    ((poolLog (spaced suspendLast))[35]?.map fun e => (e.action, e.response.bind issues)) =
      some (.step 2, some ("0", Deployment.token "0" "1" 116 [] [])) := by
  decide +kernel

/-- The suspension of a connected user bars what was read before, a token among it. -/
theorem kick_is_barrier_suspend :
    Withdrawn (poolLog (spaced suspendLast)) 47 4 "0" (.selectUser "0") ∧
    (∃ claims, StaleToken app (poolLog (spaced suspendLast)) 47 "0" (.selectUser "0")
      (Deployment.token "0" "1" 116 [] []) claims) ∧
    Barred app (poolLog (spaced suspendLast)) (poolState (spaced suspendLast)) 47 "0"
      (.selectUser "0") := by
  obtain ⟨honest, sole, answered, order, returned, flag, looked, issue⟩ := suspendLast_facts
  have run := run_spaced honest
  have done := hasReturned_eq_some returned
  obtain ⟨ev, at_d, eq⟩ := at_of_read flag
  obtain ⟨rows, rfl⟩ := flagged_eq_some eq
  have withdrawn : Withdrawn (poolLog (spaced suspendLast)) 47 4 "0" (.selectUser "0") :=
    .status (thread_request run done) at_d
  have outdated : ∃ claims, StaleToken app (poolLog (spaced suspendLast)) 47 "0" (.selectUser "0")
      (Deployment.token "0" "1" 116 [] []) claims := by
    obtain ⟨ev, at_b, eq⟩ := at_of_read looked
    obtain ⟨x, rfl⟩ := selectsUser_eq_some eq
    obtain ⟨ev, at_k, eq⟩ := at_of_read issue
    obtain ⟨dev, ps, ss, nt, rfl⟩ := issues_eq_some eq
    obtain ⟨claims, issued, sub, -⟩ := issuedAt_of_at run at_k
    exact ⟨claims, sub, 29, 35, 2, x, at_b, by decide, issued⟩
  refine ⟨withdrawn, outdated, kick_is_barrier run (raceFree_of_last (q := 4) run ?_ ?_ ?_) 4
    spacedSuspend .noContent 47 "0" _ done withdrawn⟩
  · intro d i v reading other
    obtain ⟨ev, ⟨f, at_f, action', response'⟩, takes⟩ := other.event
    have checked := List.all_eq_true.mp sole f (List.mem_of_getElem? at_f)
    rw [response', Option.any_some, takes, action'] at checked
    simpa using checked
  · rintro n statement x ⟨f, at_f, action', response'⟩ rfl
    have checked := List.all_eq_true.mp answered f (List.mem_of_getElem? at_f)
    rw [response', action'] at checked
    simp [failedStatement] at checked
  · intro m n i ev ev' a b other
    by_contra le
    obtain ⟨f, at_m⟩ := a.entry
    obtain ⟨g, at_n⟩ := b.entry
    rcases Nat.lt_or_eq_of_le (Nat.le_of_not_lt le) with lt | rfl
    · obtain ⟨hm, rfl⟩ := List.getElem?_eq_some_iff.mp at_m
      obtain ⟨hn, rfl⟩ := List.getElem?_eq_some_iff.mp at_n
      have later := List.pairwise_iff_getElem.mp order n m hn hm lt (threadOf_at b at_n)
      rw [threadOf_at a at_m] at later
      simp [other] at later
    · exact other (a.unique b).1

/-- The suspension runs while the hook has read the row and not yet decided. -/
def suspendBetween : List Schedule :=
  poolLogin ++ serve 3 2 spacedConnect ++ serve 4 5 spacedSuspend ++ [.step 3, .step 3]

private def accepts : Event signature → Option (String × String × Nat)
  | ⟨.accept clientId token, id⟩ => some (clientId, token, id)
  | _ => none

private theorem accepts_eq_some {ev : Event signature} {clientId : String} {id : Nat}
    (accepted : accepts ev = some (clientId, token, id)) : ev = ⟨.accept clientId token, id⟩ := by
  unfold accepts at accepted
  split at accepted
  · simp only [Option.some.injEq, Prod.mk.injEq] at accepted
    obtain ⟨rfl, rfl, rfl⟩ := accepted
    rfl
  · cases accepted

private theorem suspendBetween_facts : SpacedSchedule suspendBetween ∧
    hasReturned (poolState (spaced suspendBetween)) 4 = some (spacedSuspend, .noContent) ∧
    ((poolLog (spaced suspendBetween))[43]?.map fun e =>
      (e.action, e.response.bind flagged)) = some (.step 4, some (none, "0")) ∧
    ((poolLog (spaced suspendBetween))[40]?.map fun e =>
      (e.action, e.response.bind selectsUser)) = some (.step 3, some "0") ∧
    ((poolLog (spaced suspendBetween))[55]?.map fun e => (e.action, e.response.bind accepts)) =
      some (.step 3, some ("1", Deployment.token "0" "1" 116 [] [], 0)) ∧
    (poolState (spaced suspendBetween)).world.connections =
      [⟨0, "1", Deployment.token "0" "1" 116 [] [], []⟩] := by
  decide +kernel

/-- A hook that has read the status before the suspension admits the user after it. -/
theorem not_barrier : ¬∀ (A : AppState) (h : PoolLog) (s : Threads),
    PoolRun A (GenuineApart A) h s → Barrier A h s := by
  intro barrier
  obtain ⟨honest, returned, flag, read, accepted, live⟩ := suspendBetween_facts
  have run := run_spaced honest
  have done := hasReturned_eq_some returned
  obtain ⟨ev, at_d, eq⟩ := at_of_read flag
  obtain ⟨rows, rfl⟩ := flagged_eq_some eq
  obtain ⟨ev, at_b, eq⟩ := at_of_read read
  obtain ⟨x, rfl⟩ := selectsUser_eq_some eq
  obtain ⟨ev, at_a, eq⟩ := at_of_read accepted
  obtain rfl := accepts_eq_some eq
  have barred := barrier _ _ _ run 4 spacedSuspend .noContent 43 "0" (.selectUser "0") done
    (.status (thread_request run done) at_d)
  exact barred.hooks _ (live ▸ List.mem_singleton_self _) 55 40 3 x at_a at_b (by decide)
    (by decide)

end

end Smqtt
