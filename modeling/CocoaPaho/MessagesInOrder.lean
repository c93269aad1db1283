import CocoaPaho.Base.RetryQueue
import CocoaPaho.MessagesHandOver

/-!
The order of received messages. For a client with a delegate the wrapper and the library together are
a queue that offers its first message until the delegate takes it: the delegate is shown the messages
in the order of their arrival, each again and again until it answers yes, and none after that.
-/

namespace CocoaPaho

open Base

namespace Delivery

/-- The delegate calls of one input. -/
def calls (s : Delivery) : DeliveryInput → List DelegateCall
  | .arrive _ => []
  | .invoke clients context answer =>
    match s.pending with
    | [] => []
    | arrival :: _ => (onMessageArrived clients context arrival answer).delegateCalls

/-- The delegate calls of a run. -/
def heard : Delivery → List DeliveryInput → List DelegateCall
  | _, [] => []
  | s, input :: inputs =>
    s.calls input ++ match s.step input with
      | none => []
      | some s' => heard s' inputs

/-- An input as the queue sees it. -/
def offered : DeliveryInput → RetryInput Arrival
  | .arrive arrival => .push arrival
  | .invoke _ _ answer => .offer answer

/-- The message to a delegate that shows an arrival. -/
def shown (delegate : Delegate) (client : ClientId) (arrival : Arrival) : DelegateCall where
  delegate := delegate
  client := client
  message := .didReceiveMessage (PahoMessage.initWithMessage arrival.msg.contents)
    (stringWithUTF8String arrival.topicName.contents)

/-- The invocations of a run are for one client, which has the delegate. -/
def For (delegate : Delegate) (client : ClientId) : DeliveryInput → Prop
  | .arrive _ => True
  | .invoke clients context _ =>
    context = some (.client client) ∧ (clients client).delegate = some delegate

variable {delegate : Delegate} {client : ClientId} {s s' : Delivery} {q : RetryQueue Arrival}

theorem onMessageArrived_calls {clients : ClientId → PahoClient} {context : Context}
    {answer : Bool} (h : For delegate client (.invoke clients context answer)) (arrival : Arrival) :
    (onMessageArrived clients context arrival answer).delegateCalls =
      [shown delegate client arrival] := by
  obtain ⟨rfl, hdelegate⟩ := h
  cases answer <;> simp [onMessageArrived, checkClient, toDelegate, hdelegate, shown]

theorem declined_iff {clients : ClientId → PahoClient} {context : Context} {answer : Bool}
    (h : For delegate client (.invoke clients context answer)) :
    Declined (.invoke clients context answer) ↔ answer = false := by
  obtain ⟨rfl, hdelegate⟩ := h
  refine and_iff_right ⟨client, rfl, ?_⟩
  rw [hdelegate]
  exact Option.some_ne_none delegate

/-- The queue holds the messages of a delivery. -/
structure Tracks (s : Delivery) (q : RetryQueue Arrival) : Prop where
  pending : q.pending = s.pending
  accepted : q.accepted = s.taken

/-- One step of the delivery is one step of the queue, and the delegate is shown the message
offered. -/
theorem step_tracks {input : DeliveryInput} (hq : s.Tracks q) (hfor : For delegate client input)
    (h : s.step input = some s') :
    ∃ q' new, q.step (offered input) = some q' ∧ s'.Tracks q' ∧ q'.offers = q.offers ++ new ∧
      s.calls input = new.map fun offer => shown delegate client offer.1 := by
  rcases step_cases h with ⟨arrival, rfl, -, rfl⟩ | ⟨clients, context, answer, rfl, hdeclined, rfl⟩ |
    ⟨clients, context, answer, arrival, rest, rfl, hdeclined, hpending, rfl⟩
  · refine ⟨_, [], rfl, ⟨?_, hq.accepted⟩, (List.append_nil _).symm, rfl⟩
    dsimp only
    rw [hq.pending]
  · cases hpending : s'.pending with
    | nil =>
        rw [step, hpending] at h
        cases h
    | cons arrival rest =>
        have hanswer := (declined_iff hfor).1 hdeclined
        subst hanswer
        have hwaits : q.pending = arrival :: rest := hq.pending.trans hpending
        refine ⟨⟨q.pending, q.accepted, q.offers ++ [(arrival, false)]⟩, [(arrival, false)], ?_,
          ⟨hq.pending, hq.accepted⟩, rfl, ?_⟩
        · rw [offered, RetryQueue.step, hwaits]
          rfl
        · rw [calls, hpending]
          exact onMessageArrived_calls hfor arrival
  · have hanswer : answer = true := by
      rw [← Bool.not_eq_false, ← declined_iff hfor]
      exact hdeclined
    subst hanswer
    have hwaits : q.pending = arrival :: rest := hq.pending.trans hpending
    refine ⟨⟨rest, q.accepted ++ [arrival], q.offers ++ [(arrival, true)]⟩, [(arrival, true)], ?_,
      ⟨rfl, ?_⟩, rfl, ?_⟩
    · rw [offered, RetryQueue.step, hwaits]
      rfl
    · dsimp only
      rw [hq.accepted]
    · rw [calls, hpending]
      exact onMessageArrived_calls hfor arrival

theorem run_tracks {inputs : List DeliveryInput} (hfor : ∀ input ∈ inputs, For delegate client input)
    (hq : s.Tracks q) (hrun : runFrom step s inputs = some s') :
    ∃ q' new, runFrom RetryQueue.step q (inputs.map offered) = some q' ∧ s'.Tracks q' ∧
      q'.offers = q.offers ++ new ∧
      heard s inputs = new.map fun offer => shown delegate client offer.1 := by
  induction inputs generalizing s q with
  | nil =>
      cases hrun
      exact ⟨q, [], rfl, hq, (List.append_nil _).symm, rfl⟩
  | cons input inputs ih =>
      obtain ⟨s₁, hstep, hrest⟩ := (runFrom_cons_eq_some step).1 hrun
      obtain ⟨q₁, new, hqstep, hq₁, hoffers, hcalls⟩ :=
        step_tracks hq (hfor input (List.mem_cons_self ..)) hstep
      obtain ⟨q', new', hqrun, hq', hoffers', hheard⟩ :=
        ih (fun input' hmem => hfor input' (List.mem_cons_of_mem _ hmem)) hq₁ hrest
      refine ⟨q', new ++ new', ?_, hq', ?_, ?_⟩
      · exact (runFrom_cons_eq_some RetryQueue.step).2 ⟨q₁, hqstep, hqrun⟩
      · rw [hoffers', hoffers, List.append_assoc]
      · rw [heard, hstep, hcalls]
        dsimp only
        rw [hheard, List.map_append]

/-- **Messages in order.** Whatever a delegate answers, it is shown the messages of its client as the
queue offers them that is fed with the arrivals and with its answers: those it takes are the first that
arrived, in their order and each once, and after it has declined a message it is shown no other one
before it has taken it. -/
theorem messages_in_order {inputs : List DeliveryInput}
    (hfor : ∀ input ∈ inputs, For delegate client input)
    (hrun : runFrom step {} inputs = some s) :
    ∃ q : RetryQueue Arrival, runFrom RetryQueue.step {} (inputs.map offered) = some q ∧
      q.InOrder ∧ q.accepted = s.taken ∧ q.pending = s.pending ∧
      q.accepted ++ q.pending = RetryQueue.pushed (inputs.map offered) ∧
      heard {} inputs = q.offers.map fun offer => shown delegate client offer.1 := by
  obtain ⟨q, new, hqrun, hq, hoffers, hheard⟩ := run_tracks (q := {}) hfor ⟨rfl, rfl⟩ hrun
  refine ⟨q, hqrun, RetryQueue.run_inOrder hqrun, hq.accepted, hq.pending,
    RetryQueue.run_accepted_pending hqrun, ?_⟩
  rw [hheard, hoffers]
  rfl

/-- A message on the topic `b`. -/
def laterArrival : Arrival where
  topicName := ⟨3, [98, 0]⟩
  topicLen := 0
  msg := ⟨2, {}⟩

/-- Two messages arrive, and the first is declined once before it is taken. -/
def retriedInputs : List DeliveryInput :=
  [.arrive sampleArrival, .arrive laterArrival, .invoke sampleClients (some (.client 0)) false,
    .invoke sampleClients (some (.client 0)) true]

theorem messages_in_order_retried :
    ∃ s, runFrom step {} retriedInputs = some s ∧ s.taken = [sampleArrival] ∧
      s.pending = [laterArrival] ∧
      heard {} retriedInputs = [shown 0 0 sampleArrival, shown 0 0 sampleArrival] := by
  have hrun : runFrom step {} retriedInputs =
    some ⟨[laterArrival], [sampleArrival], [.freeMessage 0]⟩ := rfl
  have hfor : ∀ input ∈ retriedInputs, For 0 0 input := by
    simp [retriedInputs, For, sampleClients]
  obtain ⟨q, hqrun, -, -, -, -, hheard⟩ := messages_in_order hfor hrun
  have hq : runFrom RetryQueue.step {} (retriedInputs.map offered) =
      some ⟨[laterArrival], [sampleArrival], [(sampleArrival, false), (sampleArrival, true)]⟩ := rfl
  rw [hq] at hqrun
  cases hqrun
  exact ⟨_, hrun, rfl, rfl, hheard⟩

end Delivery

end CocoaPaho
