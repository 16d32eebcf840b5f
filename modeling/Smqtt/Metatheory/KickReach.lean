import Smqtt.Metatheory.ChallengeResponse
import Smqtt.Metatheory.ReportedSuccess
import Smqtt.Runs.Admissions

/-!
Whom a kick reaches. `kick_user` looks neither at the sessions nor at the tokens behind
them, only at the device rows of its user. What makes it hit the right connections is
that a live client id is the device of the token it was admitted on, that the token went
to a registered device of its user, and that a device id has one row.
-/

namespace Smqtt

open AtomicSteps System

variable {A : AppState} {h : PoolLog} {s : Threads} {i n : Nat}

/-- The subject of an issued token owns the one row of its device. -/
theorem IssuedAt.registered (run : PoolRun A (Genuine A) h s) {token : String} {claims : Claims}
    (issued : IssuedAt A h n i token claims) :
    ∃ d ∈ s.world.db.devices, d.deviceId = claims.dev ∧ d.userId = claims.sub := by
  obtain ⟨_, nonce, ⟨x⟩⟩ := issued.answers (fun _ _ _ ok => ok) run
  exact ⟨x.device, x.registered⟩

theorem verified_registered (run : PoolRun A (Genuine A) h s) {token : String} {claims : Claims}
    (a : At h n i ⟨.jwtVerify token, .ok claims⟩) :
    ∃ d ∈ s.world.db.devices, d.deviceId = claims.dev ∧ d.userId = claims.sub := by
  obtain ⟨m, -, j, issued⟩ := verified_issued (fun _ _ _ ok => ok) run a
  exact issued.registered run

/-- Where no statement fails, a kick reaches the devices of its user. -/
theorem mem_kickUser (unfailing : Unfailing A) {w : World} {u clientId : String} :
    clientId ∈ kicks A (Broker.kickUser u) w ↔
      ∃ d ∈ w.db.devices, d.userId = u ∧ d.deviceId = clientId := by
  rw [Broker.kickUser_kicks, unfailing]
  simp [and_assoc]

theorem verified_kicked (unfailing : Unfailing A) (run : PoolRun A (Genuine A) h s)
    {token : String} {claims : Claims} (a : At h n i ⟨.jwtVerify token, .ok claims⟩) (u : String) :
    claims.dev ∈ kicks A (Broker.kickUser u) s.world ↔ claims.sub = u := by
  obtain ⟨d, mem, device, owner⟩ := verified_registered run a
  rw [mem_kickUser unfailing]
  constructor
  · rintro ⟨d', mem', owner', device'⟩
    rw [(pool_integrity run).device_eq mem mem' (device.trans device'.symm)] at owner
    exact owner.symm.trans owner'
  · rintro rfl
    exact ⟨d, mem, owner, device⟩

/-- A kick of `u` in this world hits the live client ids of `u` and no others: those of
connections and those of entries in the sessions map. -/
structure KicksExactly (A : AppState) (w : World) (u : String) : Prop where
  connections : ∀ x ∈ w.connections, ∃ claims,
    A.lib.jwtDecode A.jwtKeys.secret x.token = some claims ∧
      (x.clientId ∈ kicks A (Broker.kickUser u) w ↔ claims.sub = u)
  sessions : ∀ clientId claims, w.sessions clientId = some claims →
    (clientId ∈ kicks A (Broker.kickUser u) w ↔ claims.sub = u)

theorem kick_reaches_exactly (unfailing : Unfailing A) (run : PoolRun A (Genuine A) h s)
    (u : String) : KicksExactly A s.world u := by
  refine ⟨fun x live => ?_, fun clientId claims entry => ?_⟩
  · obtain ⟨n, i, claims, verified, device⟩ := connection_verified run live
    obtain ⟨e, at_n⟩ := verified.entry
    have verifies : JwtKeys.verify A e.before.world.clock x.token = .ok claims :=
      (verified.exec run at_n).1.symm
    rw [device]
    exact ⟨claims, (jwtVerify_decodes verifies).1, verified_kicked unfailing run verified u⟩
  · obtain ⟨n, i, token, verified, device⟩ := entry_verified run entry
    rw [device]
    exact verified_kicked unfailing run verified u

section
open Deployment

/-- Two users log in, and the first connects. -/
def pairConnected : List Schedule :=
  poolPair ++ serve 6 4 (.connect ⟨"1", some (.text (token "0" "1" 100 [] []))⟩)

private theorem pairConnected_facts : HonestSchedule pairConnected ∧
    (poolState pairConnected).world.connections = [⟨0, "1", token "0" "1" 100 [] [], []⟩] ∧
    (app.lib.jwtDecode app.jwtKeys.secret (token "0" "1" 100 [] [])).map Claims.sub = some "0" := by
  decide +kernel

/-- A kick of the first hits the connection, and one of the second does not. -/
theorem kick_reaches_exactly_pair :
    "1" ∈ kicks app (Broker.kickUser "0") (poolState pairConnected).world ∧
    "1" ∉ kicks app (Broker.kickUser "2") (poolState pairConnected).world := by
  obtain ⟨honest, live, subject⟩ := pairConnected_facts
  have hits (u : String) :
      "1" ∈ kicks app (Broker.kickUser u) (poolState pairConnected).world ↔ "0" = u := by
    have reached := kick_reaches_exactly unfailing (run_poolLog honest) u
    obtain ⟨claims, decodes, kicked⟩ := reached.connections _ (live ▸ List.mem_singleton_self _)
    rw [decodes] at subject
    rwa [Option.some.inj subject] at kicked
  exact ⟨(hits "0").mpr rfl, fun kicked => absurd ((hits "2").mp kicked) (by decide)⟩

end
end Smqtt
