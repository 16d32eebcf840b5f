import Smqtt.Runs.Schedules

/-!
The keys in the device table. `register` decodes, measures and parses a key before it
stores it, and nothing else writes the table, so every stored key is one that `verify`
can read back: its two branches for a corrupt key are never taken.
-/

namespace Smqtt

open AtomicSteps System

variable {A : AppState}

/-- `VerifyingKey::from_bytes` accepts the bytes. -/
def ValidKey (A : AppState) (key : List UInt8) : Prop :=
  key.length = 32 ∧ A.lib.ed25519Point key = true

/-- A device is inserted with a valid key only. -/
def KeepsKeys (A : AppState) (op : Op) : Prop :=
  ∀ row, op = .sql (.insertDevice row) → ValidKey A row.pubkey

theorem keepsKeys_of_kind {op : Op} (other : op.kind ≠ .insertDevice) : KeepsKeys A op := by
  rintro row rfl
  exact absurd rfl other

theorem keepsKeys_of_within {K : List Kind} (absent : .insertDevice ∉ K) {op : Op}
    (within : Within K op) : KeepsKeys A op := by
  refine keepsKeys_of_kind fun same => ?_
  rcases within with read | mem
  · rw [same] at read
    cases read
  · exact absent (same ▸ mem)

theorem createDevice_keepsKeys (u : String) {key : List UInt8} (valid : ValidKey A key) :
    (Db.createDevice u key).Uses (KeepsKeys A) := by
  refine .bind ⟨keepsKeys_of_kind nofun, fun _ => trivial⟩ fun deviceId =>
    .bind ⟨keepsKeys_of_kind nofun, fun _ => trivial⟩ fun now =>
      .bind ⟨?_, fun x => ?_⟩ fun _ => trivial
  · rintro row ⟨⟩
    exact valid
  · cases x <;> trivial

theorem register_keepsKeys (req : Register.RegisterRequest) :
    (Register.register A req).Uses (KeepsKeys A) := by
  have gate : (Register.checkPolicy A req).Uses (KeepsKeys A) :=
    (checkPolicy_quiet (K := [.consumeRegistrationToken]) A (by decide) req).mono
      fun _ quiet => keepsKeys_of_within (by decide) quiet.1
  have account : Db.createUser.Uses (KeepsKeys A) :=
    (Db.createUser_quiet (K := [.insertUser]) (by decide)).mono
      fun _ quiet => keepsKeys_of_within (by decide) quiet.1
  have decoded : (Prog.ofExcept (b64Decode A req.pubkey) : Handler (List UInt8)).Uses
      (KeepsKeys A) :=
    (ofExcept_quiet (K := []) _).mono fun _ quiet => keepsKeys_of_within (by decide) quiet.1
  refine .bind gate fun _ => .bind decoded fun key => ?_
  split
  · trivial
  · rename_i length
    split
    · trivial
    · rename_i point
      exact .bind account fun user =>
        .bind (createDevice_keepsKeys _ ⟨not_not.mp length, by simpa using point⟩) fun _ => trivial

theorem handle_keepsKeys (c : Call) : (handle A c).Uses (KeepsKeys A) := by
  cases c with
  | register req => exact reply_uses _ (register_keepsKeys req)
  | _ => exact (handle_within A _).mono fun _ => keepsKeys_of_within (by simp [Call.footprint])

/-- Every stored key is valid. -/
def Database.KeysValid (A : AppState) (db : Database) : Prop :=
  ∀ d ∈ db.devices, ValidKey A d.pubkey

theorem execute_keysValid {s : Statement} {db db' : Database} {x : s.Answer}
    (keeps : KeepsKeys A (.sql s)) (executed : s.execute db = some (x, db'))
    (valid : db.KeysValid A) : db'.KeysValid A := by
  cases s with
  | insertDevice row =>
      simp only [Statement.execute, Option.ite_none_left_eq_some, Option.some.injEq,
        Prod.mk.injEq] at executed
      obtain ⟨-, -, rfl⟩ := executed
      intro d mem
      rcases List.mem_append.mp mem with old | new
      · exact valid d old
      · rw [List.mem_singleton.mp new]
        exact keeps row rfl
  | _ =>
      intro d mem
      rw [(Statement.execute_frame executed).2.1 (by intro h; cases h)] at mem
      exact valid d mem

theorem exec_keysValid {op : Op} {w : World} (keeps : KeepsKeys A op)
    (valid : w.db.KeysValid A) : (exec A op w).2.db.KeysValid A := by
  have kept (same : (exec A op w).2.db.devices = w.db.devices) :
      (exec A op w).2.db.KeysValid A := by
    intro d mem
    rw [same] at mem
    exact valid d mem
  cases op with
  | sql s =>
      rcases exec_sql_cases A w s with failed | ⟨x, db, -, executed, done⟩
      · rw [failed]
        exact valid
      · rw [done]
        exact execute_keysValid keeps executed valid
  | _ => exact kept (exec_devices A _ w (by intro h; cases h))

/-- In every state a run reaches. -/
theorem run_keysValid {allowed : Scheduling} {h : PoolLog} {s : Threads}
    (run : PoolRun A allowed h s) : s.world.db.KeysValid A :=
  invariant_within run (I := fun w => w.db.KeysValid A) handle_keepsKeys
    (fun _ mem => (List.not_mem_nil mem).elim) (fun _ _ keeps valid => exec_keysValid keeps valid)
    fun x w valid => by cases x <;> exact valid

/-- The error of the two branches of `verify` for a corrupt key. -/
def corruptKey : Error := .internal "invalid pubkey in db"

/-- The error has one of two sources: a row read from the table with a key that is not
valid, or the signer of tokens. -/
structure Corrupted (A : AppState) (u : String) (seen : List (Event signature)) : Prop where
  source : (∃ devices device, ⟨.sql (.selectDevices u), some devices⟩ ∈ seen ∧
      device ∈ devices ∧ ¬ValidKey A device.pubkey) ∨
    ∃ u d ps ss t, ⟨.jwtIssue u d ps ss t, .error corruptKey⟩ ∈ seen

theorem Corrupted.read {u : String} {seen : List (Event signature)} {devices : List Device}
    {device : Device} (mem : device ∈ devices) (invalid : ¬ValidKey A device.pubkey) :
    Corrupted A u (seen ++ [⟨.sql (.selectDevices u), some devices⟩]) :=
  ⟨Or.inl ⟨devices, device, List.mem_append_right _ (List.mem_singleton_self _), mem, invalid⟩⟩

theorem b64Decode_error {text : String} {e : Error} (refused : b64Decode A text = .error e) :
    e ≠ corruptKey := by
  unfold b64Decode at refused
  split at refused
  · cases refused
  · rintro rfl
    cases refused

theorem verify_corrupt_sat (req : Auth.VerifyRequest) : Prog.Sat (fun _ _ => True)
    (fun (seen : List (Event signature)) r => r = .error corruptKey →
      Corrupted A req.userId seen) [] (Auth.verify A req) := by
  unfold Auth.verify
  refine .bind (perform_sat (.challengesRemove req.userId) fun entry => ⟨trivial, ?_⟩)
  cases entry with
  | none => exact nofun
  | some entry =>
      obtain ⟨nonce, expiresAt⟩ := entry
      refine .bind (unixNow_sat (fun _ => trivial) fun now => ?_)
      dsimp only
      split
      · exact nofun
      · refine .bind (.bind (sql_sat (s := .selectUser _) (fun _ => trivial) ?_ nofun))
        intro row
        cases row with
        | none => exact nofun
        | some user =>
            dsimp only
            refine (Prog.sat_done _).mpr ?_
            dsimp only
            split
            · exact nofun
            · refine .bind (getDeviceByUser_sat (fun _ => trivial) ?_ nofun)
              intro devices
              dsimp only
              split
              · exact nofun
              · rename_i device found
                have mem := List.mem_of_find?_eq_some found
                split
                · rename_i length
                  exact fun _ => .read mem fun valid => length valid.1
                · split
                  · rename_i point
                    exact fun _ => .read mem fun valid => by simp [valid.2] at point
                  · refine .bind (.ofExcept ?_)
                    split
                    · split
                      · exact nofun
                      · split
                        · exact nofun
                        · refine .bind (userTopics_sat (fun _ => trivial) ?_ nofun)
                          intro rows
                          refine .bind (perform_sat (.jwtIssue _ _ _ _ _) fun token =>
                            ⟨trivial, .ofExcept ?_⟩)
                          rintro rfl
                          exact ⟨Or.inr ⟨_, _, _, _, _,
                            List.mem_append_right _ (List.mem_singleton_self _)⟩⟩
                    · rename_i refused
                      exact fun same => absurd (Except.error.inj same) (b64Decode_error refused)

theorem jwtIssue_error {now : Clock} {u d t : String} {ps ss : List String} :
    JwtKeys.issue A now u d ps ss t ≠ .error corruptKey := by
  unfold JwtKeys.issue corruptKey
  split
  · intro same
    cases same
  · intro same
    have := Error.internal.inj (Except.error.inj same)
    simp at this

theorem handle_corrupt_sat (c : Call) : Prog.Sat (fun _ _ => True)
    (fun (seen : List (Event signature)) r => ∀ req, c = .verify req →
      r = .error corruptKey → Corrupted A req.userId seen) [] (handle A c) := by
  cases c with
  | verify req =>
      refine reply_sat ((verify_corrupt_sat req).mono (fun _ _ h => h) fun seen r h => ?_)
      rintro req' ⟨⟩ failed
      cases r with
      | ok token => cases failed
      | error e => exact h (congrArg Except.error (Except.error.inj failed))
  | _ => exact ((Prog.uses_all _).sat fun _ _ _ => trivial).mono (fun _ _ h => h) fun _ _ _ => nofun

/-- In no reachable state is there a device whose key `verify` could not read back, and
no verification, however it is interleaved, ends in the error for one. -/
theorem corrupt_key_unreachable {allowed : Scheduling} {h : PoolLog} {s : Threads}
    (run : PoolRun A allowed h s) :
    (∀ d ∈ s.world.db.devices, d.pubkey.length = 32 ∧ A.lib.ed25519Point d.pubkey = true) ∧
    ∀ (i : Nat) (req : Auth.VerifyRequest),
      s.threads[i]? ≠ some (.verify req, .fail (.internal "invalid pubkey in db")) := by
  refine ⟨run_keysValid run, fun i req failed => ?_⟩
  have corrupted : Corrupted A req.userId (eventsOf i h) :=
    result_sat (r := .verify req) handle_corrupt_sat run
      (show s.threads[i]? = some (.verify req, .ofExcept (.error corruptKey)) from failed)
      req rfl rfl
  rcases corrupted.source with
    ⟨devices, device, seen, mem, invalid⟩ | ⟨u, d, ps, ss, t, seen⟩
  · obtain ⟨e, he, does⟩ := mem_eventsOf.mp seen
    obtain ⟨n, at_n⟩ := List.getElem?_of_mem he
    obtain ⟨db, executed, -⟩ := answered_by run ⟨e, at_n, does⟩ at_n
    obtain ⟨rfl, -⟩ := Prod.mk.inj (Option.some.inj executed)
    exact invalid (run_keysValid (run.take at_n).1 device (List.mem_of_mem_filter mem))
  · obtain ⟨e, he, does⟩ := mem_eventsOf.mp seen
    exact jwtIssue_error (event_exec run he does).1.symm

section
open Deployment

/-- A login that has read its device row back. -/
theorem corrupt_key_unreachable_login :
    (poolState poolLogin).world.db.devices.map Device.pubkey = [key 0] ∧
    ∀ (i : Nat) (req : Auth.VerifyRequest), (poolState poolLogin).threads[i]? ≠
      some (.verify req, .fail (.internal "invalid pubkey in db")) := by
  have run := run_poolLog (show HonestSchedule poolLogin by decide +kernel)
  exact ⟨by decide +kernel, (corrupt_key_unreachable run).2⟩

end
end Smqtt
