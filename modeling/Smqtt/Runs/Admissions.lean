import Smqtt.Runs.Interleaved

/-!
Admitted connections in interleaved runs. A connection and an entry of the sessions map
both go back to a hook that verified a token and then read the row of its user, and a
kick closes what was accepted before it for good.
-/

namespace Smqtt

open AtomicSteps System

variable {A : AppState} {allowed : Scheduling} {h : PoolLog} {s : Threads}
  {i j k m n : Nat} {clientId token : String} {claims : Claims}

/-- Behind an `allow` stands a passage through all checks and the stored session. -/
theorem authenticate_allow_sat (info : ConnectInfo) {R : List (Event signature) →
      Event signature → Prop} : Prog.Sat
    (fun (seen : List (Event signature)) ev => ev.op.kind = .accept → R seen ev)
    (fun seen r => ∀ proceed superuser, r = .ok (proceed, some (.authResult (.allow superuser))) →
      ∃ x : Admission info, seen = x.events ++ [⟨x.insert, ()⟩])
    [] (AuthHook.authenticate info) := by
  unfold AuthHook.authenticate
  split
  · rename_i token password
    refine .bind (perform_sat (.jwtVerify token) fun verified => ⟨nofun, ?_⟩)
    cases verified with
    | error e => exact nofun
    | ok claims =>
        dsimp only
        split
        · exact nofun
        · rename_i device
          refine .bind (.attempt (getUser_sat (fun _ => nofun) (fun user => ?_) ?_))
          · dsimp only
            split
            · exact nofun
            · rename_i active
              split
              · exact nofun
              · rename_i current
                refine .bind (perform_sat (.sessionsInsert _ _) fun _ => ⟨nofun, ?_⟩)
                intro _ _ _
                exact ⟨⟨token, claims, user, password, not_not.mp device, by simpa using active,
                  Int.le_of_not_gt current⟩, rfl⟩
          · intro x e
            exact nofun
  · exact nofun

theorem handle_accept_sat (c : Call) : Prog.Sat
    (fun (seen : List (Event signature)) ev => ev.op.kind = .accept →
      ∃ info, ∃ x : Admission info, c = .connect info ∧ seen = x.events ++ [⟨x.insert, ()⟩] ∧
        ev.op = .accept info.clientId x.token)
    (fun _ _ => True) [] (handle A c) := by
  cases c
  case connect info =>
    have asked : Broker.execHook (.clientAuthenticate info) =
        (AuthHook.authenticate info >>= fun result => pure result.2) := rfl
    refine reply_sat ?_
    unfold Broker.connect
    rw [asked]
    refine .bind (.bind ((authenticate_allow_sat info).mono (fun _ _ h => h) fun s r allowed => ?_))
    cases r with
    | error e => trivial
    | ok result =>
        obtain ⟨proceed, result⟩ := result
        dsimp only
        refine (Prog.sat_done _).mpr ?_
        dsimp only
        split
        · rename_i superuser token password
          obtain ⟨x, seen⟩ := allowed proceed superuser rfl
          have same : x.token = token := by simpa [password] using x.password.symm
          refine .bind (perform_sat (.accept _ _) fun _ => ⟨fun _ => ?_, trivial⟩)
          exact ⟨info, x, rfl, seen, by rw [same]⟩
        · trivial
  all_goals exact spared_sat .accept (by decide) rfl

/-- A connection is an earlier one, or the operation has just accepted it. -/
theorem exec_connection {op : Op} {w : World} {x : Connection}
    (mem : x ∈ (exec A op w).2.connections) :
    (∃ y ∈ w.connections, y.id = x.id ∧ y.clientId = x.clientId ∧ y.token = x.token) ∨
      op = .accept x.clientId x.token ∧ x.id = w.admitted := by
  have old (kept : x ∈ w.connections) :
      (∃ y ∈ w.connections, y.id = x.id ∧ y.clientId = x.clientId ∧ y.token = x.token) ∨
        op = .accept x.clientId x.token ∧ x.id = w.admitted := Or.inl ⟨x, kept, rfl, rfl, rfl⟩
  by_cases other : op.part ≠ .connections
  · rw [exec_connections A op w other] at mem
    exact old mem
  · cases op with
    | kick clientId => exact old (List.mem_of_mem_filter mem)
    | close session => exact old (List.mem_of_mem_filter mem)
    | grant session filter =>
        obtain ⟨y, kept, rfl⟩ := List.mem_map.mp mem
        refine Or.inl ⟨y, kept, ?_⟩
        split <;> exact ⟨rfl, rfl, rfl⟩
    | accept clientId token =>
        rcases List.mem_append.mp mem with kept | new
        · exact old kept
        · rw [List.mem_singleton.mp new]
          exact Or.inr ⟨rfl, rfl⟩
    | sql s => cases s <;> exact absurd nofun other
    | _ => exact absurd nofun other

/-- An entry is an earlier one, or the operation has just inserted it. -/
theorem exec_session {op : Op} {w : World} {clientId : String} {claims : Claims}
    (entry : (exec A op w).2.sessions clientId = some claims) :
    w.sessions clientId = some claims ∨ op = .sessionsInsert clientId claims := by
  by_cases other : op.part ≠ .sessions
  · rw [exec_sessions A op w other] at entry
    exact Or.inl entry
  · cases op with
    | sessionsInsert id inserted =>
        change Function.update w.sessions id (some inserted) clientId = some claims at entry
        by_cases same : clientId = id
        · subst same
          rw [Function.update_self] at entry
          exact Or.inr (congrArg _ (Option.some.inj entry))
        · rw [Function.update_of_ne same] at entry
          exact Or.inl entry
    | sessionsRemove id =>
        change Function.update w.sessions id none clientId = some claims at entry
        by_cases same : clientId = id
        · rw [same, Function.update_self] at entry
          cases entry
        · rw [Function.update_of_ne same] at entry
          exact Or.inl entry
    | sql s => cases s <;> exact absurd nofun other
    | _ => exact absurd nofun other

/-- Thread `j` decides about a CONNECT: it has verified the token, and at position `b` it finds
the row of its user, which lets it pass. -/
structure Hook (h : PoolLog) (j : Nat) (info : ConnectInfo) (x : Admission info) (b : Nat) :
    Prop where
  request : (requests h)[j]? = some (.connect info)
  verified : eventsOf j (h.take b) = [⟨.jwtVerify x.token, .ok x.claims⟩]
  selected : At h b j ⟨.sql (.selectUser x.claims.sub), some (some x.user)⟩

theorem Hook.verifies {info : ConnectInfo} {x : Admission info} {b : Nat}
    (hook : Hook h j info x b) : ∃ n < b, At h n j ⟨.jwtVerify x.token, .ok x.claims⟩ := by
  obtain ⟨n, lt, verified, -⟩ := at_of_eventsOf [] hook.verified
  exact ⟨n, lt, verified⟩

theorem hook_of_seen {info : ConnectInfo} {x : Admission info}
    (request : (requests h)[j]? = some (.connect info)) (seen : eventsOf j (h.take m) = x.events) :
    ∃ b < m, Hook h j info x b := by
  obtain ⟨b, lt, selected, before⟩ := at_of_eventsOf [_] seen
  exact ⟨b, lt, request, before, selected⟩

theorem hook_of_insert (run : PoolRun A allowed h s)
    (a : At h m j ⟨.sessionsInsert clientId claims, ()⟩) :
    ∃ info, ∃ x : Admission info, ∃ b < m, Hook h j info x b ∧ info.clientId = clientId ∧
      x.claims = claims := by
  obtain ⟨c, request, spec⟩ := a.sat run handle_insertSession_sat
  obtain ⟨info, x, rfl, seen, op⟩ := spec rfl
  obtain ⟨client, same⟩ := Op.sessionsInsert.inj op
  obtain ⟨b, lt, hook⟩ := hook_of_seen (requests_of_take request) seen
  exact ⟨info, x, b, lt, hook, client.symm, same.symm⟩

theorem hook_of_accept (run : PoolRun A allowed h s) {id : Nat}
    (a : At h m j ⟨.accept clientId token, id⟩) :
    ∃ info, ∃ x : Admission info, ∃ k < m, ∃ b < k, Hook h j info x b ∧
      At h k j ⟨.sessionsInsert clientId x.claims, ()⟩ ∧ info.clientId = clientId ∧
        x.token = token ∧ eventsOf j (h.take m) = x.events ++ [⟨x.insert, ()⟩] := by
  obtain ⟨c, request, spec⟩ := a.sat run handle_accept_sat
  obtain ⟨info, x, rfl, seen, op⟩ := spec rfl
  obtain ⟨rfl, rfl⟩ := Op.accept.inj op
  obtain ⟨k, lt, stored, before⟩ := at_of_eventsOf x.events seen
  obtain ⟨b, lt', hook⟩ := hook_of_seen (requests_of_take request) before
  exact ⟨info, x, k, lt, b, lt', hook, stored, rfl, rfl, seen⟩

/-- A hook executes one statement before the connection is accepted. -/
theorem Hook.reads {info : ConnectInfo} {x : Admission info} {b : Nat} (hook : Hook h j info x b)
    (seen : eventsOf j (h.take m) = x.events ++ [⟨x.insert, ()⟩]) {statement : Statement}
    {answer : Option statement.Answer} (a : At h n j ⟨.sql statement, answer⟩) (lt : n < m) :
    n = b ∧ statement = .selectUser x.claims.sub := by
  obtain ⟨after, split⟩ := a.split lt
  rw [seen] at split
  generalize first : eventsOf j (h.take n) = before at split
  rcases before with _ | ⟨e, _ | ⟨f, _ | ⟨g, rest⟩⟩⟩
  · cases congrArg Event.op (List.cons.inj split).1
  · have same := (List.cons.inj (List.cons.inj split).2).1
    refine ⟨a.position_eq hook.selected ?_, (Op.sql.inj (congrArg Event.op same)).symm⟩
    rw [first, hook.verified]
    rfl
  · cases congrArg Event.op (List.cons.inj (List.cons.inj (List.cons.inj split).2).2).1
  · simp [Admission.events] at split

/-- A live connection has been accepted. -/
theorem accepted_at (run : PoolRun A allowed h s) {x : Connection}
    (live : x ∈ s.world.connections) : ∃ n i, At h n i ⟨.accept x.clientId x.token, x.id⟩ := by
  obtain ⟨n, i, ev, e, a, at_n, absent, present, -⟩ := introduced_by run
    (P := fun w => ∃ y ∈ w.connections, y.id = x.id ∧ y.clientId = x.clientId ∧ y.token = x.token)
    (fun ⟨_, mem, _⟩ => List.not_mem_nil mem) (fun z w h => by cases z <;> exact h)
    ⟨x, live, rfl, rfl, rfl⟩
  obtain ⟨y, mem, id, client, token⟩ := present
  rcases exec_connection mem with ⟨z, old, id', client', token'⟩ | ⟨accepted, admitted⟩
  · exact absurd ⟨z, old, id'.trans id, client'.trans client, token'.trans token⟩ absent
  · obtain ⟨op, answer⟩ := ev
    obtain rfl := accepted
    have answered : answer = e.before.world.admitted := (a.exec run at_n).1
    rw [id] at admitted
    rw [client, token, answered, ← admitted] at a
    exact ⟨n, i, a⟩

theorem exec_admitted_le (A : AppState) (op : Op) (w : World) :
    w.admitted ≤ (exec A op w).2.admitted := by
  cases op with
  | sql statement =>
      rcases exec_sql_cases A w statement with h | ⟨x, db, -, -, h⟩
      · rw [h]; exact Nat.le_refl _
      · rw [h]; exact Nat.le_refl _
  | forward session topic => simp only [exec]; split <;> exact Nat.le_refl _
  | accept clientId token => exact Nat.le_succ _
  | _ => exact Nat.le_refl _

/-- What was accepted before a kick of its client is gone for good. -/
theorem gone_of_kick (run : PoolRun A allowed h s) {id : Nat}
    (a : At h m i ⟨.accept clientId token, id⟩) (kick : At h n j ⟨.kick clientId, ()⟩)
    (lt : m < n) {x : Connection} (live : x ∈ s.world.connections)
    (client : x.clientId = clientId) : x.id ≠ id := by
  obtain ⟨e, at_m⟩ := a.entry
  obtain ⟨f, at_n⟩ := kick.entry
  have answered : id = e.before.world.admitted := (a.exec run at_m).1
  -- the id is used up when the kick comes
  have used : id < f.before.world.admitted := by
    refine ((at_take lt).mpr a).onward (run.take at_n).1 (I := fun w => id < w.admitted) (e := e)
      ?_ ?_ ?_ ?_
    · rw [List.getElem?_take_of_lt lt]
      exact at_m
    · rw [answered]
      exact Nat.lt_succ_self _
    · intro k j ev c _ _ _ before
      exact Nat.lt_of_lt_of_le before (exec_admitted_le A ev.op _)
    · intro x w before
      cases x <;> exact before
  have gone : id < s.world.admitted ∧ ∀ x ∈ s.world.connections, x.clientId = clientId →
      x.id ≠ id := by
    refine kick.onward run (I := fun w => id < w.admitted ∧ ∀ x ∈ w.connections,
      x.clientId = clientId → x.id ≠ id) at_n ⟨used, ?_⟩ ?_ ?_
    · intro x mem client
      have other := (List.mem_filter.mp mem).2
      exact absurd client (by simpa using other)
    · rintro k j ev c - - - ⟨used, gone⟩
      refine ⟨Nat.lt_of_lt_of_le used (exec_admitted_le A ev.op _), fun x mem client => ?_⟩
      rcases exec_connection mem with ⟨y, old, same, client', -⟩ | ⟨-, admitted⟩
      · rw [← same]
        exact gone y old (client'.trans client)
      · rw [admitted]
        exact Nat.ne_of_gt used
    · intro x w gone
      cases x <;> exact gone
  exact gone.2 x live client

/-- Behind a live connection stands its token, verified for its client id. -/
theorem connection_verified (run : PoolRun A allowed h s) {x : Connection}
    (live : x ∈ s.world.connections) : ∃ n i claims,
      At h n i ⟨.jwtVerify x.token, .ok claims⟩ ∧ x.clientId = claims.dev := by
  obtain ⟨m, i, accepted⟩ := accepted_at run live
  obtain ⟨info, y, k, -, b, -, hook, -, client, token, -⟩ := hook_of_accept run accepted
  obtain ⟨n, -, verified⟩ := hook.verifies
  refine ⟨n, i, y.claims, ?_, by rw [← client, y.device]⟩
  rw [← token]
  exact verified

/-- So does behind every entry of the sessions map. -/
theorem entry_verified (run : PoolRun A allowed h s)
    (entry : s.world.sessions clientId = some claims) : ∃ n i token,
      At h n i ⟨.jwtVerify token, .ok claims⟩ ∧ clientId = claims.dev := by
  obtain ⟨n, i, ev, e, a, -, absent, present, -⟩ := introduced_by run
    (P := fun w => w.sessions clientId = some claims) nofun
    (fun z w h => by cases z <;> exact h) entry
  rcases exec_session present with old | inserted
  · exact absurd old absent
  · obtain ⟨op, answer⟩ := ev
    obtain rfl := inserted
    obtain ⟨info, x, b, -, hook, client, same⟩ := hook_of_insert run a
    obtain ⟨m, -, verified⟩ := hook.verifies
    refine ⟨m, i, x.token, ?_, by rw [← client, x.device, same]⟩
    rw [← same]
    exact verified

end Smqtt
