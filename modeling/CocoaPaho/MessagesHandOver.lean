import CocoaPaho.Base.Runs
import CocoaPaho.PahoClient

/-!
The hand-over of received messages. The library queues the arriving messages, invokes
`onMessageArrived` for the first of them, and invokes it again for the same message until it returns
a value other than 0. Each message comes in two buffers that the receiver is to release when it takes
the message, with `MQTTAsync_freeMessage` and `MQTTAsync_free`, and not before.
-/

namespace CocoaPaho

open Base

structure Delivery where
  pending : List Arrival := []
  taken : List Arrival := []
  released : List Release := []

/-- A message arrives, or the library invokes the callback: with the registered context, the clients
as they are by then, and the delegate's answer. -/
inductive DeliveryInput where
  | arrive (arrival : Arrival)
  | invoke (clients : ClientId → PahoClient) (context : Context) (answer : Bool)

namespace Delivery

/-- The addresses of the two buffers are new. -/
def Fresh (s : Delivery) (arrival : Arrival) : Prop :=
  ∀ a ∈ s.pending ++ s.taken, a.msg.address ≠ arrival.msg.address ∧
    a.topicName.address ≠ arrival.topicName.address

instance (s : Delivery) (arrival : Arrival) : Decidable (s.Fresh arrival) :=
  inferInstanceAs (Decidable (∀ a ∈ s.pending ++ s.taken, _))

def step (s : Delivery) : DeliveryInput → Option Delivery
  | .arrive arrival =>
    if s.Fresh arrival then some { s with pending := s.pending ++ [arrival] } else none
  | .invoke clients context answer =>
    match s.pending with
    | [] => none
    | arrival :: rest =>
      let result := onMessageArrived clients context arrival answer
      let s := { s with released := s.released ++ result.released }
      if result.returned = 0 then some s
      else some { s with pending := rest, taken := s.taken ++ [arrival] }

/-- Both buffers of a taken message were released once, none of a message still to be taken. -/
structure HandedOver (s : Delivery) : Prop where
  taken : ∀ a ∈ s.taken, s.released.count (.freeMessage a.msg.address) = 1 ∧
    s.released.count (.free a.topicName.address) = 1
  pending : ∀ a ∈ s.pending, Release.freeMessage a.msg.address ∉ s.released ∧
    Release.free a.topicName.address ∉ s.released

/-- The invocation finds a client with a delegate, and the delegate does not take the message. -/
def Declined : DeliveryInput → Prop
  | .arrive _ => True
  | .invoke clients context answer =>
    (∃ client, checkClient context = some client ∧ (clients client).delegate ≠ none) ∧ answer = false

/-- What has been released: messages of taken arrivals, and no topic name. -/
def ReleasedOfTaken (s : Delivery) : Prop :=
  ∀ r ∈ s.released, ∃ a ∈ s.taken, r = .freeMessage a.msg.address

theorem onMessageArrived_declined {clients : ClientId → PahoClient} {context : Context}
    {arrival : Arrival} {answer : Bool} (h : Declined (.invoke clients context answer)) :
    (onMessageArrived clients context arrival answer).returned = 0 ∧
      (onMessageArrived clients context arrival answer).released = [] := by
  obtain ⟨⟨client, hclient, hdelegate⟩, hanswer⟩ := h
  simp [onMessageArrived, hclient, hdelegate, hanswer]

theorem onMessageArrived_returned {clients : ClientId → PahoClient} {context : Context}
    {arrival : Arrival} {answer : Bool} (h : ¬ Declined (.invoke clients context answer)) :
    (onMessageArrived clients context arrival answer).returned = 1 := by
  unfold onMessageArrived
  cases hclient : checkClient context with
  | none => rfl
  | some client =>
      have htaken : (clients client).delegate = none ∨ answer = true := by
        by_contra hno
        rw [not_or, Bool.not_eq_true] at hno
        exact h ⟨⟨client, hclient, hno.1⟩, hno.2⟩
      simp [htaken]

/-- The callback releases the message or nothing. -/
theorem onMessageArrived_released {clients : ClientId → PahoClient} {context : Context}
    {arrival : Arrival} {answer : Bool} {r : Release}
    (h : r ∈ (onMessageArrived clients context arrival answer).released) :
    r = .freeMessage arrival.msg.address := by
  unfold onMessageArrived at h
  split at h
  · cases h
  · dsimp only at h
    split_ifs at h
    · simpa using h
    · cases h

/-- The steps: an arrival, a declined invocation, which changes nothing, and one that takes the
message. -/
theorem step_cases {s s' : Delivery} {input : DeliveryInput} (h : s.step input = some s') :
    (∃ arrival, input = .arrive arrival ∧ s.Fresh arrival ∧
        s' = { s with pending := s.pending ++ [arrival] }) ∨
      (∃ clients context answer, input = .invoke clients context answer ∧ Declined input ∧ s' = s) ∨
      (∃ clients context answer arrival rest, input = .invoke clients context answer ∧
        ¬ Declined input ∧ s.pending = arrival :: rest ∧
        s' = { pending := rest
               taken := s.taken ++ [arrival]
               released :=
                s.released ++ (onMessageArrived clients context arrival answer).released }) := by
  cases input with
  | arrive arrival =>
      left
      rw [step] at h
      split_ifs at h with hfresh
      exact ⟨arrival, rfl, hfresh, (Option.some.inj h).symm⟩
  | invoke clients context answer =>
      right
      rw [step] at h
      split at h
      · cases h
      · next arrival rest hpending =>
          dsimp only at h
          by_cases hdeclined : Declined (.invoke clients context answer)
          · obtain ⟨hret, hrel⟩ := onMessageArrived_declined hdeclined
            rw [hret, hrel, if_pos rfl, List.append_nil] at h
            exact Or.inl ⟨clients, context, answer, rfl, hdeclined, (Option.some.inj h).symm⟩
          · rw [onMessageArrived_returned hdeclined, if_neg (by decide : (1 : ℤ) ≠ 0)] at h
            exact Or.inr ⟨clients, context, answer, arrival, rest, rfl, hdeclined, hpending,
              (Option.some.inj h).symm⟩

theorem step_releasedOfTaken {s s' : Delivery} {input : DeliveryInput} (hs : s.ReleasedOfTaken)
    (h : s.step input = some s') : s'.ReleasedOfTaken := by
  rcases step_cases h with ⟨arrival, rfl, -, rfl⟩ | ⟨_, _, _, rfl, -, rfl⟩ |
    ⟨clients, context, answer, arrival, rest, rfl, -, -, rfl⟩
  · exact hs
  · exact hs
  · intro r hr
    rcases List.mem_append.1 hr with hr | hr
    · obtain ⟨a, ha, heq⟩ := hs r hr
      exact ⟨a, List.mem_append_left _ ha, heq⟩
    · exact ⟨arrival, by simp, onMessageArrived_released hr⟩

theorem ReleasedOfTaken.free_not_mem {s : Delivery} (hs : s.ReleasedOfTaken) (address : ℕ) :
    Release.free address ∉ s.released := by
  intro hmem
  obtain ⟨_, _, heq⟩ := hs _ hmem
  cases heq

/-- A step keeps the buffers in order exactly when it takes no message: of a message that is taken
the topic name stays behind. -/
theorem step_handedOver_iff {s s' : Delivery} {input : DeliveryInput} (hs : s.ReleasedOfTaken)
    (h : s.step input = some s') : s'.HandedOver ↔ s.HandedOver ∧ Declined input := by
  have hs' := step_releasedOfTaken hs h
  rcases step_cases h with ⟨arrival, rfl, hfresh, rfl⟩ | ⟨_, _, _, rfl, hdeclined, rfl⟩ |
    ⟨clients, context, answer, arrival, rest, rfl, hdeclined, -, rfl⟩
  · rw [Declined, and_true]
    refine ⟨fun hok => ⟨hok.taken, fun a ha => hok.pending a (List.mem_append_left _ ha)⟩,
      fun hok => ⟨hok.taken, fun a ha => ?_⟩⟩
    rcases List.mem_append.1 ha with ha | ha
    · exact hok.pending a ha
    · rw [List.mem_singleton.1 ha]
      refine ⟨fun hmem => ?_, hs.free_not_mem _⟩
      obtain ⟨b, hb, heq⟩ := hs _ hmem
      exact (hfresh b (List.mem_append_right _ hb)).1 (Release.freeMessage.inj heq).symm
  · exact (and_iff_left hdeclined).symm
  · refine iff_of_false (fun hok => ?_) (fun hok => hdeclined hok.2)
    have honce := (hok.taken arrival (by simp)).2
    exact hs'.free_not_mem _ (List.count_pos_iff.1 (honce ▸ Nat.one_pos))

/-- **The hand-over of received messages.** After a run each taken message has had both its buffers
released, and no other, exactly when in the whole run no message was taken: every invocation found a
client whose delegate declined. -/
theorem handedOver_iff_declined {inputs : List DeliveryInput} {s : Delivery}
    (hrun : runFrom step {} inputs = some s) :
    s.HandedOver ↔ ∀ input ∈ inputs, Declined input := by
  have hstart : ({} : Delivery).ReleasedOfTaken := fun r hr => by cases hr
  have hempty : ({} : Delivery).HandedOver :=
    ⟨fun _ ha => absurd ha (by simp), fun _ ha => absurd ha (by simp)⟩
  have hexact := runFrom_iff_allSteps (P := HandedOver) (fun _ _ _ hs h => step_releasedOfTaken hs h)
    (fun _ _ _ hs h => step_handedOver_iff hs h) hstart hrun
  rw [hexact, and_iff_right hempty, allSteps_input_iff hrun]

/-- A message on the topic `a`. -/
def sampleArrival : Arrival where
  topicName := ⟨1, [97, 0]⟩
  topicLen := 0
  msg := ⟨0, {}⟩

/-- Clients with the delegate 0. -/
def sampleClients (client : ClientId) : PahoClient :=
  { PahoClient.initWithClientID client "c" with delegate := some 0 }

/-- A message that the delegate declines twice stays intact. -/
theorem handedOver_declined_twice : HandedOver ⟨[sampleArrival], [], []⟩ := by
  have hrun : runFrom step {} [.arrive sampleArrival,
      .invoke sampleClients (some (.client 0)) false,
      .invoke sampleClients (some (.client 0)) false] = some ⟨[sampleArrival], [], []⟩ := rfl
  exact (handedOver_iff_declined hrun).2 (by simp [Declined, checkClient, sampleClients])

/-- Of a message that the delegate takes the topic name is never released. -/
theorem topicName_of_taken_not_released :
    ¬ ∀ (inputs : List DeliveryInput) (s : Delivery),
      runFrom step {} inputs = some s → s.HandedOver := by
  intro h
  have hok := h [.arrive sampleArrival, .invoke sampleClients (some (.client 0)) true]
    ⟨[], [sampleArrival], [.freeMessage 0]⟩ rfl
  have honce := (hok.taken sampleArrival (by simp)).2
  exact absurd honce (by decide)

end Delivery

end CocoaPaho
