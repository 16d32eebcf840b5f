import Smqtt.Api.ExchangeEvents
import Smqtt.Api.Outcomes

/-!
What the calls of the key exchange do as one step: the row they decide by is the row
they change.
-/

namespace Smqtt.Exchange

open AtomicSteps

variable {A : AppState} {w : World} {u : String} {authorization : Option String}

theorem initiate_cases (auth : authUser A w.clock authorization = some u)
    (req : InitiateRequest) :
    (∃ row v, (initiate A authorization req).run (exec A) w = (.ok row.exchangeId, v) ∧
      row.initiatorId = u ∧ row.responderPubkey = none ∧
      (∀ e ∈ w.db.pendingExchanges, e.exchangeId ≠ row.exchangeId) ∧
      v.db = { w.db with pendingExchanges := w.db.pendingExchanges ++ [row] }) ∨
    ∃ e v, (initiate A authorization req).run (exec A) w = (.error e, v) ∧ v.db = w.db := by
  unfold initiate
  rw [Prog.run_bind, fromRequestParts_run, auth]
  dsimp only
  obtain ⟨r, run⟩ : ∃ r, (Db.getUser req.peerId).run (exec A) w = (r, w.counted) :=
    ⟨_, Db.getUser_run req.peerId⟩
  rw [Prog.run_bind, run]
  cases r with
  | error e => exact Or.inr ⟨e, _, rfl, rfl⟩
  | ok peer =>
      dsimp only
      rw [Prog.run_bind, ofExcept_run]
      cases decodePubkey A req.ephemeralPubkey with
      | error e => exact Or.inr ⟨e, _, rfl, rfl⟩
      | ok key =>
          dsimp only
          rw [Prog.run_bind]
          rcases Db.createExchange_cases (A := A) (w := w.counted) u req.peerId key with
            ⟨row, v, run, initiator, unanswered, free, db⟩ | ⟨e, v, run, db⟩
          · rw [run]
            exact Or.inl ⟨row, _, rfl, initiator, unanswered, free, db⟩
          · rw [run]
            exact Or.inr ⟨e, v, rfl, db⟩

theorem get_cases (auth : authUser A w.clock authorization = some u) (e : String) :
    (∃ row v, (get authorization e).run (exec A) w = (.ok (exchangeResponse row), v) ∧
      A.outside.fails w.statements = false ∧ w.db.exchange e = some row ∧
      (row.initiatorId = u ∨ row.responderId = u) ∧
      (v.db = w.db ∨ row.initiatorId = u ∧ row.responderPubkey.isSome = true ∧
        v.db = Db.withoutExchange w.db e)) ∨
    ∃ err v, (get authorization e).run (exec A) w = (.error err, v) ∧ v.db = w.db := by
  unfold get
  rw [Prog.run_bind, fromRequestParts_run, auth]
  dsimp only
  rw [Prog.run_bind, Db.getExchange_run]
  cases A.outside.fails w.statements with
  | true => exact Or.inr ⟨_, _, rfl, rfl⟩
  | false =>
      cases found : w.db.exchange e with
      | none => exact Or.inr ⟨_, _, rfl, rfl⟩
      | some row =>
          obtain ⟨-, rfl⟩ := find_exchange found
          simp only [Bool.false_eq_true, if_false]
          split
          · exact Or.inr ⟨_, _, rfl, rfl⟩
          · rename_i parties
            have party : row.initiatorId = u ∨ row.responderId = u := by
              by_contra none
              exact parties (not_or.mp none)
            split
            · rename_i discard
              rw [Prog.run_bind, Prog.run_attempt, Db.deleteExchange_world]
              refine Or.inl ⟨row, _, rfl, trivial, rfl, party, ?_⟩
              cases A.outside.fails w.counted.statements with
              | true => exact Or.inl (by simp [World.counted])
              | false =>
                  refine Or.inr ⟨discard.2, discard.1, ?_⟩
                  simp [World.counted]
            · exact Or.inl ⟨row, _, rfl, trivial, rfl, party, Or.inl rfl⟩

theorem respond_cases (auth : authUser A w.clock authorization = some u) (e : String)
    (req : RespondRequest) :
    (∃ row key v, (respond A authorization e req).run (exec A) w =
        (.ok (exchangeResponse { row with responderPubkey := some key }), v) ∧
      A.outside.fails w.statements = false ∧ w.db.exchange e = some row ∧
      row.responderId = u ∧ row.responderPubkey = none ∧
      v.db = w.db.updateExchange e fun x => { x with responderPubkey := some key }) ∨
    ∃ err v, (respond A authorization e req).run (exec A) w = (.error err, v) ∧ v.db = w.db := by
  unfold respond
  rw [Prog.run_bind, fromRequestParts_run, auth]
  dsimp only
  rw [Prog.run_bind, Db.getExchange_run]
  cases A.outside.fails w.statements with
  | true => exact Or.inr ⟨_, _, rfl, rfl⟩
  | false =>
      cases found : w.db.exchange e with
      | none => exact Or.inr ⟨_, _, rfl, rfl⟩
      | some row =>
          obtain ⟨-, rfl⟩ := find_exchange found
          simp only [Bool.false_eq_true, if_false]
          split
          · exact Or.inr ⟨_, _, rfl, rfl⟩
          · rename_i responder
            split
            · exact Or.inr ⟨_, _, rfl, rfl⟩
            · rename_i unanswered
              rw [Prog.run_bind, ofExcept_run]
              cases decodePubkey A req.ephemeralPubkey with
              | error err => exact Or.inr ⟨err, _, rfl, rfl⟩
              | ok key =>
                  dsimp only
                  rw [Prog.run_bind, Db.setResponderPubkey_run (w := w.counted) found]
                  cases A.outside.fails w.counted.statements with
                  | true => exact Or.inr ⟨_, _, rfl, rfl⟩
                  | false =>
                      exact Or.inl ⟨row, key, _, rfl, trivial, rfl, not_not.mp responder,
                        by simpa using unanswered, rfl⟩

end Smqtt.Exchange
