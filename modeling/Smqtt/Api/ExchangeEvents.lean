import Smqtt.Api.Events

/-!
What the handlers of the key exchange have seen when they write, delete and
answer. The row a handler decides by is the one it has read, which need not be
the one it then changes.
-/

namespace Smqtt

open AtomicSteps

variable {A : AppState} {P : List (Event signature) → Event signature → Prop}
  {seen : List (Event signature)}

theorem getExchange_sat {e : String}
    {Q : List (Event signature) → Except Error PendingExchange → Prop}
    (permitted : ∀ x, P seen ⟨.sql (.selectExchange e), x⟩)
    (found : ∀ row, Q (seen ++ [⟨.sql (.selectExchange e), some (some row)⟩]) (.ok row))
    (failed : ∀ x err, Q (seen ++ [⟨.sql (.selectExchange e), x⟩]) (.error err)) :
    Prog.Sat P Q seen (Db.getExchange e) := by
  refine .bind (sql_sat permitted ?_ (failed _ _))
  intro row
  cases row with
  | none => exact failed _ _
  | some row => exact found row

theorem setResponderPubkey_sat {e : String} {key : List UInt8}
    {Q : List (Event signature) → Except Error Unit → Prop}
    (permitted : ∀ x, P seen ⟨.sql (.updateResponderPubkey key e), x⟩)
    (written : ∀ rows : Nat, rows ≠ 0 →
      Q (seen ++ [⟨.sql (.updateResponderPubkey key e), some rows⟩]) (.ok ()))
    (failed : ∀ x err, Q (seen ++ [⟨.sql (.updateResponderPubkey key e), x⟩]) (.error err)) :
    Prog.Sat P Q seen (Db.setResponderPubkey e key) := by
  refine .bind (sql_sat (s := .updateResponderPubkey key e) permitted ?_ (failed _ _))
  intro rows
  dsimp only
  split
  · exact failed _ _
  · rename_i found
    exact written rows found

theorem deleteExchange_sat {e : String} {Q : List (Event signature) → Except Error Unit → Prop}
    (permitted : ∀ x, P seen ⟨.sql (.deleteExchange e), x⟩)
    (returned : ∀ x r, Q (seen ++ [⟨.sql (.deleteExchange e), x⟩]) r) :
    Prog.Sat P Q seen (Db.deleteExchange e) :=
  .bind (sql_sat (s := .deleteExchange e) permitted (fun _ => returned _ _) (returned _ _))

theorem decodePubkey_ok {text : String} {key : List UInt8}
    (h : Exchange.decodePubkey A text = .ok key) :
    b64Decode A text = .ok key ∧ key.length = 32 := by
  unfold Exchange.decodePubkey at h
  cases hd : b64Decode A text with
  | error e =>
      rw [hd] at h
      cases h
  | ok bytes =>
      rw [hd] at h
      change (if bytes.length ≠ 32 then _ else _) = _ at h
      split at h
      · cases h
      · rename_i length
        obtain rfl := Except.ok.inj h
        exact ⟨rfl, not_not.mp length⟩

/-- What the API shows of a row. -/
def exchangeResponse (row : PendingExchange) : Exchange.ExchangeResponse :=
  ⟨row.exchangeId, row.initiatorId, row.responderId, Base64Url.encode row.initiatorPubkey,
    row.responderPubkey.map Base64Url.encode⟩

/-- A user has been authenticated and has read the row of an exchange. -/
structure Reading (exchangeId : String) where
  token : String
  claims : Claims
  row : PendingExchange

def Reading.events {exchangeId : String} (x : Reading exchangeId) : List (Event signature) :=
  [⟨.jwtVerify x.token, .ok x.claims⟩, ⟨.sql (.selectExchange exchangeId), some (some x.row)⟩]

/-- What `respond` has checked before it writes. -/
structure Responding (A : AppState) (exchangeId : String) (req : Exchange.RespondRequest) extends
    Reading exchangeId where
  key : List UInt8
  responder : row.responderId = claims.sub
  unanswered : row.responderPubkey = none
  decoded : Exchange.decodePubkey A req.ephemeralPubkey = .ok key

namespace Responding

variable {exchangeId : String} {req : Exchange.RespondRequest} (x : Responding A exchangeId req)

def update : Op := .sql (.updateResponderPubkey x.key exchangeId)

def response : Exchange.ExchangeResponse :=
  ⟨exchangeId, x.row.initiatorId, x.row.responderId, Base64Url.encode x.row.initiatorPubkey,
    some (Base64Url.encode x.key)⟩

end Responding

/-- A respond writes once, after its checks, and answers with the key it wrote when
the write found a row. -/
theorem respond_sat (authorization : Option String) (e : String)
    (req : Exchange.RespondRequest) : Prog.Sat
    (fun (seen : List (Event signature)) ev => ev.op.kind = .respondExchange →
      ∃ x : Responding A e req, seen = x.events ∧ ev.op = x.update)
    (fun seen r => ∀ response, r = .ok response → ∃ x : Responding A e req, ∃ rows published,
      seen = x.events ++ [⟨.sql (.updateResponderPubkey x.key e), some rows⟩, published] ∧
        rows ≠ 0 ∧ response = x.response) []
    (Exchange.respond A authorization e req) := by
  unfold Exchange.respond
  refine .bind (fromRequestParts_sat (fun _ _ => nofun) ?_ fun _ _ => nofun)
  intro token claims _
  refine .bind (getExchange_sat (fun _ => nofun) ?_ fun _ _ => nofun)
  intro row
  dsimp only
  split
  · exact nofun
  · rename_i responder
    split
    · exact nofun
    · rename_i unanswered
      refine .bind (.ofExcept ?_)
      split
      · rename_i key decoded
        let x : Responding A e req := ⟨⟨token, claims, row⟩, key, not_not.mp responder,
          by simpa using unanswered, decoded⟩
        refine .bind (setResponderPubkey_sat (fun _ _ => ⟨x, rfl, rfl⟩) ?_ fun _ _ => nofun)
        intro rows found
        refine .bind (perform_sat (.publishSystem _ _) fun _ => ⟨nofun, ?_⟩)
        rintro response ⟨⟩
        exact ⟨x, rows, _, rfl, found, rfl⟩
      · exact nofun

/-- What `get` has checked before it answers. -/
structure Getting (exchangeId : String) extends Reading exchangeId where
  party : row.initiatorId = claims.sub ∨ row.responderId = claims.sub

def Getting.response {exchangeId : String} (x : Getting exchangeId) : Exchange.ExchangeResponse :=
  ⟨exchangeId, x.row.initiatorId, x.row.responderId, Base64Url.encode x.row.initiatorPubkey,
    x.row.responderPubkey.map Base64Url.encode⟩

/-- A get deletes only for the initiator of a row it has read with both keys. -/
theorem get_sat (authorization : Option String) (e : String) : Prog.Sat
    (fun (seen : List (Event signature)) ev => ev.op.kind = .deleteExchange →
      ∃ x : Getting e, bearerToken authorization = some x.token ∧ seen = x.events ∧
        ev.op = .sql (.deleteExchange e) ∧ x.row.initiatorId = x.claims.sub ∧
          x.row.responderPubkey.isSome = true)
    (fun seen r => ∀ response, r = .ok response →
      ∃ x : Getting e, x.events <+: seen ∧ response = x.response) []
    (Exchange.get authorization e) := by
  unfold Exchange.get
  refine .bind (fromRequestParts_sat (fun _ _ => nofun) ?_ fun _ _ => nofun)
  intro token claims bearer
  refine .bind (getExchange_sat (fun _ => nofun) ?_ fun _ _ => nofun)
  intro row
  dsimp only
  split
  · exact nofun
  · rename_i parties
    let x : Getting e := ⟨⟨token, claims, row⟩, by
      by_contra none
      rw [not_or] at none
      exact parties none⟩
    split
    · rename_i discard
      refine .bind (.attempt (deleteExchange_sat (fun _ _ => ?_) fun _ _ => ?_))
      · exact ⟨x, bearer, rfl, rfl, discard.2, discard.1⟩
      · rintro response ⟨⟩
        exact ⟨x, ⟨_, rfl⟩, rfl⟩
    · rintro response ⟨⟩
      exact ⟨x, ⟨[], rfl⟩, rfl⟩

/-- A get that deletes the row it has read returns what it has read. -/
theorem get_path {authorization : Option String} {e : String} (x : Getting e)
    (bearer : bearerToken authorization = some x.token)
    (initiator : x.row.initiatorId = x.claims.sub)
    (answered : x.row.responderPubkey.isSome = true) (rows : Option Nat) :
    Prog.Path (handle A (.getExchange authorization e))
      (x.events ++ [⟨.sql (.deleteExchange e), rows⟩]) (.done (.exchange x.response)) := by
  have authorized : Prog.Path (AuthUser.fromRequestParts authorization)
      [⟨.jwtVerify x.token, .ok x.claims⟩] (.done x.claims.sub) := by
    unfold bearerToken at bearer
    dsimp only at bearer
    split at bearer
    · rename_i isBearer
      unfold AuthUser.fromRequestParts
      dsimp only
      rw [if_neg (by simpa using isBearer), Option.some.inj bearer]
      exact .cons (.nil _)
    · cases bearer
  have deleted : Prog.Path (Db.deleteExchange e) [⟨.sql (.deleteExchange e), rows⟩]
      (.ofExcept (match rows with
        | some _ => .ok ()
        | none => .error .database)) := by
    cases rows <;> exact .cons (.nil _)
  have whole : Prog.Path (Exchange.get authorization e)
      (x.events ++ [⟨.sql (.deleteExchange e), rows⟩]) (.done x.response) := by
    unfold Exchange.get
    change Prog.Path (S := signature) _ ([⟨.jwtVerify x.token, .ok x.claims⟩] ++
      [⟨.sql (.selectExchange e), some (some x.row)⟩, ⟨.sql (.deleteExchange e), rows⟩]) _
    refine .bind authorized (.cons ?_)
    change Prog.Path (ite _ _ _) _ _
    rw [if_neg (fun none => none.1 initiator), if_pos ⟨answered, initiator⟩]
    exact .bind deleted.attempt (.nil _)
  have replied := whole.bind (f := fun r => pure (Reply.exchange r)) (.nil _)
  rwa [List.append_nil] at replied

/-- What `initiate` has checked and drawn before it inserts. -/
structure Initiating (A : AppState) (req : Exchange.InitiateRequest) where
  token : String
  claims : Claims
  peer : User
  exchangeId : String
  created : Nat
  looked : Nat
  key : List UInt8
  decoded : Exchange.decodePubkey A req.ephemeralPubkey = .ok key

namespace Initiating

variable {req : Exchange.InitiateRequest} (x : Initiating A req)

def events : List (Event signature) :=
  [⟨.jwtVerify x.token, .ok x.claims⟩, ⟨.sql (.selectUser req.peerId), some (some x.peer)⟩,
    ⟨.newUuid, x.exchangeId⟩, ⟨.unixNow, x.created⟩, ⟨.unixNow, x.looked⟩]

def row : PendingExchange :=
  ⟨x.exchangeId, x.claims.sub, req.peerId, x.key, none, asI64 x.created,
    asI64 (addU64 x.looked Db.exchangeTtlSecs)⟩

end Initiating

/-- `initiate` inserts once, after its checks, and answers with the id of its row. -/
theorem initiate_sat (authorization : Option String) (req : Exchange.InitiateRequest) :
    Prog.Sat (fun (seen : List (Event signature)) ev => ev.op.kind = .insertExchange →
      ∃ x : Initiating A req, seen = x.events ∧ ev.op = .sql (.insertExchange x.row))
    (fun seen r => ∀ exchangeId, r = .ok exchangeId → ∃ x : Initiating A req, ∃ published,
      seen = x.events ++ [⟨.sql (.insertExchange x.row), some ()⟩, published] ∧
        exchangeId = x.exchangeId) [] (Exchange.initiate A authorization req) := by
  unfold Exchange.initiate
  refine .bind (fromRequestParts_sat (fun _ _ => nofun) ?_ fun _ _ => nofun)
  intro token claims _
  refine .bind (getUser_sat (fun _ => nofun) (fun peer => ?_) fun _ _ => nofun)
  refine .bind (.ofExcept ?_)
  split
  · rename_i key decoded
    refine .bind (.bind (perform_sat .newUuid fun id => ⟨nofun, ?_⟩))
    refine .bind (unixNow_sat (fun _ => nofun) fun created => ?_)
    refine .bind (unixNow_sat (fun _ => nofun) fun looked => ?_)
    let x : Initiating A req := ⟨token, claims, peer, id, created, looked, key, decoded⟩
    refine .bind (sql_sat (s := .insertExchange _) (fun _ _ => ⟨x, rfl, rfl⟩) (fun _ => ?_) nofun)
    refine .bind (perform_sat (.publishSystem _ _) fun _ => ⟨nofun, ?_⟩)
    rintro exchangeId ⟨⟩
    exact ⟨x, _, rfl, rfl⟩
  · exact nofun

theorem handle_respondExchange_sat (c : Call) : Prog.Sat
    (fun (seen : List (Event signature)) ev => ev.op.kind = .respondExchange →
      ∃ authorization e req, ∃ x : Responding A e req,
        c = .respondExchange authorization e req ∧ seen = x.events ∧ ev.op = x.update)
    (fun seen r => ∀ authorization e req reply,
      c = .respondExchange authorization e req → r = .ok reply →
        ∃ x : Responding A e req, ∃ rows published,
          seen = x.events ++ [⟨.sql (.updateResponderPubkey x.key e), some rows⟩, published] ∧
            rows ≠ 0 ∧ reply = .exchange x.response) [] (handle A c) := by
  cases c
  case respondExchange authorization e req =>
    refine reply_sat ((respond_sat authorization e req).mono ?_ ?_)
    · intro s ev h k
      obtain ⟨x, hs, ho⟩ := h k
      exact ⟨authorization, e, req, x, rfl, hs, ho⟩
    · rintro s r h _ _ _ reply ⟨⟩ eq
      cases r with
      | error err => cases eq
      | ok response =>
          obtain rfl := Except.ok.inj eq
          obtain ⟨x, rows, published, seen, found, same⟩ := h response rfl
          exact ⟨x, rows, published, seen, found, congrArg Reply.exchange same⟩
  all_goals
    exact Prog.Sat.mono (spared_sat .respondExchange (by decide) rfl) (fun _ _ h => h)
      fun _ _ _ _ _ _ _ => nofun

theorem handle_deleteExchange_sat (c : Call) : Prog.Sat
    (fun (seen : List (Event signature)) ev => ev.op.kind = .deleteExchange →
      ∃ authorization e, ∃ x : Getting e, c = .getExchange authorization e ∧
        bearerToken authorization = some x.token ∧ seen = x.events ∧
        ev.op = .sql (.deleteExchange e) ∧ x.row.initiatorId = x.claims.sub ∧
          x.row.responderPubkey.isSome = true)
    (fun seen r => ∀ authorization e response, c = .getExchange authorization e →
      r = .ok (.exchange response) →
        ∃ x : Getting e, x.events <+: seen ∧ response = x.response) [] (handle A c) := by
  cases c
  case getExchange authorization e =>
    refine reply_sat ((get_sat authorization e).mono ?_ ?_)
    · intro s ev h k
      obtain ⟨x, hs, rest⟩ := h k
      exact ⟨authorization, e, x, rfl, hs, rest⟩
    · rintro s r h _ _ response ⟨⟩ eq
      cases r with
      | error err => cases eq
      | ok response' =>
          obtain rfl := Reply.exchange.inj (Except.ok.inj eq)
          exact h response' rfl
  all_goals
    exact Prog.Sat.mono (spared_sat .deleteExchange (by decide) rfl) (fun _ _ h => h)
      fun _ _ _ _ _ _ => nofun

theorem handle_insertExchange_sat (c : Call) : Prog.Sat
    (fun (seen : List (Event signature)) ev => ev.op.kind = .insertExchange →
      ∃ authorization req, ∃ x : Initiating A req, c = .initiateExchange authorization req ∧
        seen = x.events ∧ ev.op = .sql (.insertExchange x.row))
    (fun seen r => ∀ authorization req exchangeId, c = .initiateExchange authorization req →
      r = .ok (.exchangeId exchangeId) → ∃ x : Initiating A req, ∃ published,
        seen = x.events ++ [⟨.sql (.insertExchange x.row), some ()⟩, published] ∧
          exchangeId = x.exchangeId) [] (handle A c) := by
  cases c
  case initiateExchange authorization req =>
    refine reply_sat ((initiate_sat authorization req).mono ?_ ?_)
    · intro s ev h k
      obtain ⟨x, hs, ho⟩ := h k
      exact ⟨authorization, req, x, rfl, hs, ho⟩
    · rintro s r h _ _ exchangeId ⟨⟩ eq
      cases r with
      | error err => cases eq
      | ok id =>
          obtain rfl := Reply.exchangeId.inj (Except.ok.inj eq)
          exact h id rfl
  all_goals
    exact Prog.Sat.mono (spared_sat .insertExchange (by decide) rfl) (fun _ _ h => h)
      fun _ _ _ _ _ _ => nofun

theorem handle_purgeExchanges_sat (c : Call) : Prog.Sat
    (fun (seen : List (Event signature)) ev => ev.op.kind = .purgeExchanges →
      ∃ now, c = .purge ∧ seen = [⟨.unixNow, now⟩] ∧ ev.op = .sql (.purgeExchanges (asI64 now)))
    (fun _ _ => True) [] (handle A c) := by
  cases c
  case purge =>
    refine reply_sat (.bind (unixNow_sat (fun _ => nofun) fun now => ?_))
    exact sql_sat (s := .purgeExchanges _) (fun _ _ => ⟨now, rfl, rfl, rfl⟩) (fun _ => trivial)
      trivial
  all_goals exact spared_sat .purgeExchanges (by decide) rfl

end Smqtt
