import Smqtt.Runs.Provenance
import Smqtt.Runs.Deployment

/-!
Who can receive a message. A subscription is checked against the topics of the
token by comparing strings, but the broker delivers by matching filters, and
nothing between a submitted string and a granted filter looks for wildcards.
-/

namespace Smqtt

open AtomicSteps

variable {A : AppState} {h : Log} {w : World}

/-- The strings user `u` has submitted as subscribe topics of relationships. -/
def submitted (A : AppState) (h : Log) (u : String) : List String :=
  h.flatMap fun e =>
    match e.action with
    | .call (.createRelationship authorization req) =>
        if authUser A e.before.clock authorization = some u then req.subscribeTopics else []
    | _ => []

theorem mem_submitted {u t : String} {e : Step} {req : Relationships.CreateRequest}
    (he : e ∈ h) (requests : Requests A e u req) (ht : t ∈ req.subscribeTopics) :
    t ∈ submitted A h u := by
  obtain ⟨authorization, action, auth⟩ := requests
  refine List.mem_flatMap.mpr ⟨e, he, ?_⟩
  rw [action]
  simpa [auth] using ht

/-- A device of `u` has been delivered a message published on the topic. -/
def Delivered (w : World) (u topic : String) : Prop :=
  ∃ m ∈ w.deliveries, m.topic = topic ∧
    ∃ d ∈ w.db.devices, d.deviceId = m.clientId ∧ d.userId = u

instance (w : World) (u topic : String) : Decidable (Delivered w u topic) :=
  inferInstanceAs (Decidable (∃ m ∈ w.deliveries, _ ∧ ∃ d ∈ w.db.devices, _))

/-- Neither told the topic nor its owner, user `u` is delivered nothing on it. -/
def Confidential (A : AppState) (h : Log) (w : World) (u topic : String) : Prop :=
  topic ∉ submitted A h u → topic ≠ A.notifyTopic u → ¬Delivered w u topic

theorem notifyTopic_plain (A : AppState) (u : String) : TopicFilter.Plain (A.notifyTopic u) :=
  TopicFilter.plain_of_chars (Base64Url.encode_chars _)

/-- The filter was granted by a token issued for the client id. -/
def GrantedTo (A : AppState) (h : Log) (clientId filter : String) : Prop :=
  ∃ token claims, IssuedIn A h token claims ∧ claims.dev = clientId ∧ filter ∈ claims.subTopics

theorem GrantedTo.append {clientId filter : String} (g : GrantedTo A h clientId filter)
    (k : Log) : GrantedTo A (h ++ k) clientId filter := by
  obtain ⟨token, claims, issued, dev, mem⟩ := g
  exact ⟨token, claims, issued.append k, dev, mem⟩

/-- Every subscription was granted by a token for the connection's client id. -/
theorem subscription_granted (run : AtomicRun A (Unforged A) h w) {x : Connection}
    (live : x ∈ w.connections) {f : String} (hf : f ∈ x.subscriptions) :
    GrantedTo A h x.clientId f := by
  revert x f
  refine run_induction (I := fun h w => ∀ {x : Connection}, x ∈ w.connections →
    ∀ {f : String}, f ∈ x.subscriptions → GrantedTo A h x.clientId f) run ?_ ?_ ?_
  · intro x live
    cases live
  · intro h w env _ ih _ x live f hf
    have old : x ∈ w.connections := by cases env <;> exact live
    exact (ih old hf).append _
  · intro h w call run ih _ x live f hf
    rcases handle_connection live with
      old | ⟨session, sub, y, rfl, grants, old, id, rfl⟩ | ⟨info, token, claims, rfl, -, -, rfl⟩
    · exact (ih old hf).append _
    · rcases List.mem_append.mp hf with hf | hf
      · exact (ih old hf).append _
      · obtain rfl := List.mem_singleton.mp hf
        obtain ⟨claims, entry, mem⟩ := grants
        obtain ⟨token, issued, dev⟩ := session_issued run entry
        exact ⟨token, claims, issued.append _, dev.trans id.symm, mem⟩
    · cases hf

/-- Every delivered message matched a filter granted to the receiving client id. -/
theorem delivery_granted (run : AtomicRun A (Unforged A) h w) {m : Delivery}
    (hm : m ∈ w.deliveries) :
    ∃ f, GrantedTo A h m.clientId f ∧ TopicFilter.Matches f m.topic := by
  revert m
  refine run_induction (I := fun h w => ∀ {m : Delivery}, m ∈ w.deliveries →
    ∃ f, GrantedTo A h m.clientId f ∧ TopicFilter.Matches f m.topic) run ?_ ?_ ?_
  · intro m hm
    cases hm
  · intro h w env _ ih _ m hm
    have old : m ∈ w.deliveries := by cases env <;> exact hm
    obtain ⟨f, granted, matched⟩ := ih old
    exact ⟨f, granted.append _, matched⟩
  · intro h w call run ih _ m hm
    rcases handle_delivery hm with old | routed
    · obtain ⟨f, granted, matched⟩ := ih old
      exact ⟨f, granted.append _, matched⟩
    · obtain ⟨x, live, ⟨f, hf, matched⟩, he⟩ := mem_deliver.mp routed
      have id : m.clientId = x.clientId := by rw [he]
      exact ⟨f, id ▸ (subscription_granted run live hf).append _, matched⟩

/-- What is granted to a device of `u` is its notification topic or was submitted by it. -/
theorem GrantedTo.submitted (run : AtomicRun A (Unforged A) h w) {clientId f u : String}
    (granted : GrantedTo A h clientId f)
    (device : ∃ d ∈ w.db.devices, d.deviceId = clientId ∧ d.userId = u) :
    f = A.notifyTopic u ∨ f ∈ submitted A h u := by
  obtain ⟨token, claims, issued, dev, mem⟩ := granted
  obtain ⟨d, hd, hid, rfl⟩ := device
  obtain ⟨d', hd', hdev, hsub⟩ := issued.device run
  obtain rfl : d = d' := (run_integrity run).device_eq hd hd' (by rw [hid, hdev, dev])
  obtain ⟨v, hv, -, issues⟩ := issued
  rcases issues.mem_subTopics.mp mem with rfl | ⟨r, hr, owner, ht⟩
  · exact Or.inl (by rw [hsub])
  · obtain ⟨h₁, h₂, rfl⟩ := List.append_of_mem hv
    obtain ⟨e, he, req, requests, -, -, stored⟩ := relationship_requested run.cut.1 hr
    rw [stored, decodeTopics_encode] at ht
    rw [owner, ← hsub] at requests
    exact Or.inr (mem_submitted (List.mem_append_left _ he) requests ht)

/-- A user is delivered nothing on a topic it was not told as long as nothing else
it has submitted matches that topic. -/
theorem confidential_of_unmatched (run : AtomicRun A (Unforged A) h w) {u t : String}
    (unmatched : ∀ s ∈ submitted A h u, s ≠ t → ¬TopicFilter.Matches s t) :
    Confidential A h w u t := by
  rintro untold own ⟨m, hm, rfl, device⟩
  obtain ⟨f, granted, matched⟩ := delivery_granted run hm
  rcases granted.submitted run device with rfl | told
  · exact own (TopicFilter.eq_of_matches_plain (notifyTopic_plain A u) matched).symm
  · exact unmatched f told (fun same => untold (same ▸ told)) matched

section
open Deployment

/-- User 0 grants itself a filter, subscribes to it and asks user 5 for an exchange. -/
def eavesdrop (filter : String) : List Action :=
  [register 0, challenge "0", verify "0" "1" 0 2,
    relate (token "0" "1" 100 [] []) "5" [] [filter],
    challenge "0", verify "0" "1" 0 4, register 1,
    connect "1" (token "0" "1" 100 [] [filter]), subscribe 0 "1" filter,
    .call (.initiateExchange (bearer (token "0" "1" 100 [] [])) ⟨"5", Base64Url.encode (key 2)⟩)]

private theorem eavesdrop_facts :
    (Honest (eavesdrop "#") ∧ Honest (eavesdrop "a")) ∧
    app.notifyTopic "5" ∉ submitted app (history (eavesdrop "#")) "0" ∧
    app.notifyTopic "5" ≠ app.notifyTopic "0" ∧
    Delivered (reached (eavesdrop "#")) "0" (app.notifyTopic "5") ∧
    ∀ s ∈ submitted app (history (eavesdrop "a")) "0", s ≠ app.notifyTopic "5" →
      ¬TopicFilter.Matches s (app.notifyTopic "5") := by
  decide +kernel

/-- A wildcard in a relationship reads the notification topic of another user. -/
theorem not_confidential : ¬∀ h w, AtomicRun app (Unforged app) h w →
    ∀ u t, Confidential app h w u t := by
  intro confidential
  obtain ⟨⟨honest, -⟩, untold, own, delivered, -⟩ := eavesdrop_facts
  exact confidential _ _ (run_history honest) "0" _ untold own delivered

theorem confidential_of_unmatched_eavesdrop :
    Confidential app (history (eavesdrop "a")) (reached (eavesdrop "a")) "0"
      (app.notifyTopic "5") :=
  confidential_of_unmatched (run_history eavesdrop_facts.1.2) eavesdrop_facts.2.2.2.2

end

end Smqtt
