import CocoaPaho.CallbackDecoding
import CocoaPaho.PropertiesRelay
import CocoaPaho.PublishedPayload

/-!
A message on its way from the client that publishes it to the delegate of one that receives it. The
libraries and the broker carry the topic up to its first NUL, as many bytes of the payload as the
sender announced, and the properties in their order; quality of service, flags and number are theirs to
set. What the delegate is shown is what was published exactly when no string is cut short on the way.
-/

namespace CocoaPaho

open Base

/-- What is carried of the arguments of `MQTTAsync_sendMessage`. -/
structure MQTTAsyncMessage.CarriedAs (destinationName : CString) (msg : MQTTAsyncMessage)
    (arrival : Arrival) : Prop where
  topic : cText arrival.topicName.contents = cText destinationName
  payloadlen : arrival.msg.contents.payloadlen = msg.payloadlen
  payload : ∃ sent received, msg.payload = some sent ∧
    arrival.msg.contents.payload = some received ∧
    readBytes received msg.payloadlen.toNat = readBytes sent msg.payloadlen.toNat
  properties : msg.properties.DeliveredAs arrival.msg.contents.properties

/-- The call publishes a message that arrives somewhere as the given one. -/
def LibCall.ArrivesAs : LibCall → Arrival → Prop
  | .sendMessage _ (some destinationName) msg _, arrival => msg.CarriedAs destinationName arrival
  | _, _ => False

/-- A delegate is shown what was published. -/
structure PahoPublishedMessage.ShownAs (message : PahoPublishedMessage)
    (properties : PahoProperties) (shown : PahoMessage) (topic : Option NSString) : Prop where
  topic : topic = message.topic
  payload : shown.payload = message.payload.sortedKeysText.map utf8
  properties : ∃ decoded, shown.properties.getD (some {}) = some decoded ∧ decoded.Same properties

/-- All strings of an object. -/
def PahoProperties.strings (properties : PahoProperties) : List NSString :=
  properties.responseTopic.toList ++ properties.correlation.toList ++
    (properties.userProperties.getD ∅).entries.flatMap fun entry => [entry.1, entry.2]

variable {ν : Type} {W : JSONWriting ν} {env : Env} {self : ClientId} {w : World}
  {message : PahoPublishedMessage} {properties : PahoProperties} {msg : MQTTAsyncMessage}
  {payload : JSONDictionary ν} {arrival : Arrival}

theorem cText_eq_self_iff {b : CString} : cText b = b ↔ (0 : UInt8) ∉ b := by
  refine ⟨fun h hmem => ?_, cText_of_zero_not_mem⟩
  rw [← h] at hmem
  simpa using List.mem_takeWhile_imp hmem

/-- A topic comes through when it has no U+0000. -/
theorem topic_shown_iff {topic : NSString}
    (h : cText arrival.topicName.contents = cText (utf8 topic)) :
    stringWithUTF8String arrival.topicName.contents = some topic ↔ nulChar ∉ topic.toList := by
  rw [stringWithUTF8String, h, ofUTF8_eq_some, ← zero_mem_utf8, ← cText_eq_self_iff]
  exact eq_comm

/-- The payload of the message that arrives is read as that of the message that was sent. -/
theorem payload_of_carried {destinationName : CString} (h : msg.CarriedAs destinationName arrival) :
    (PahoMessage.initWithMessage arrival.msg.contents).payload =
      (PahoMessage.initWithMessage msg).payload := by
  obtain ⟨sent, received, hsent, hreceived, hbytes⟩ := h.payload
  simp only [PahoMessage.initWithMessage, h.payloadlen, hsent, hreceived, Option.map_some, hbytes]

/-- Properties come back when all their strings can be sent, and not otherwise. -/
theorem PahoProperties.same_delivered_iff {responseTopic correlation : NSString}
    {userProperties : Option (NSDictionary NSString)} {received : MQTTProperties}
    (h : (sentProperties responseTopic correlation userProperties).DeliveredAs received) :
    (∃ decoded, initWithProperties received = some decoded ∧
        decoded.Same ⟨some responseTopic, some correlation, userProperties⟩) ↔
      ∀ string ∈ strings ⟨some responseTopic, some correlation, userProperties⟩,
        Transmissible string := by
  rw [delivered_same_iff h]
  simp only [strings, Option.toList_some, List.cons_append, List.nil_append,
    List.forall_mem_cons, List.forall_mem_flatMap, List.not_mem_nil, false_implies, implies_true,
    and_true]

/-- **A message arrives as it was published**, with its topic, its payload and its properties, exactly
when the topic has no U+0000, the text of the payload has a length that is an `int`, and every string
of the properties is non-empty, without U+0000, and of a length below the largest `int`. -/
theorem message_arrives_iff (hW : W.Lawful) (hpayload : message.payload = payload.jsonObject W)
    (hsends : w.Sends env self message properties msg)
    (harrives : (publishCall self (w.clients self).mqttAsyncHandle message msg).ArrivesAs arrival)
    (clients : ClientId → PahoClient) (receiver : ClientId) (answer : Bool) :
    ∃ shown topic, (onMessageArrived clients (some (.client receiver)) arrival answer).delegateCalls =
        toDelegate clients receiver (.didReceiveMessage shown topic) ∧
      (message.ShownAs properties shown topic ↔
        (∀ topic ∈ message.topic, nulChar ∉ topic.toList) ∧
          (utf8 (payload.text W)).length < 2147483648 ∧
          ∀ string ∈ properties.strings, Transmissible string) := by
  have htext : message.payload.sortedKeysText = some (payload.text W) := by
    rw [hpayload]
    rfl
  obtain ⟨props, hprops, hmsg⟩ := (sends_iff env self w htext msg).1 hsends
  obtain ⟨responseTopic, correlation, hresponse, hcorrelation, rfl⟩ :=
    publishedProperties_eq_some_iff.1 hprops
  obtain ⟨topic, htopic⟩ : ∃ topic, message.topic = some topic := by
    cases htopic : message.topic with
    | none =>
        rw [publishCall, htopic] at harrives
        exact harrives.elim
    | some topic => exact ⟨topic, rfl⟩
  rw [publishCall, htopic] at harrives
  have hcarried : msg.CarriedAs (utf8 topic) arrival := harrives
  refine ⟨_, _, onMessageArrived_delegateCalls clients receiver arrival answer, ?_⟩
  have hdelivered : (PahoProperties.sentProperties responseTopic correlation
      properties.userProperties).DeliveredAs arrival.msg.contents.properties := by
    rw [← hmsg] at hcarried
    exact hcarried.properties
  have hproperties : properties =
      ⟨some responseTopic, some correlation, properties.userProperties⟩ := by
    rw [← hresponse, ← hcorrelation]
  have hshown : ((PahoMessage.initWithMessage arrival.msg.contents).properties.getD (some {})) =
      PahoProperties.initWithProperties arrival.msg.contents.properties := by
    have hpos : arrival.msg.contents.properties.length > 0 := by
      rw [← hdelivered.length_eq]
      exact Nat.succ_pos _
    rw [PahoMessage.initWithMessage, if_pos hpos]
    rfl
  calc message.ShownAs properties (PahoMessage.initWithMessage arrival.msg.contents)
        (stringWithUTF8String arrival.topicName.contents)
      ↔ stringWithUTF8String arrival.topicName.contents = some topic ∧
          (PahoMessage.initWithMessage msg).payload = some (utf8 (payload.text W)) ∧
          ∃ decoded, PahoProperties.initWithProperties arrival.msg.contents.properties =
            some decoded ∧ decoded.Same properties := by
        rw [← payload_of_carried hcarried, ← hshown, ← htopic, ← Option.map_some, ← htext]
        exact ⟨fun h => ⟨h.topic, h.payload, h.properties⟩, fun h => ⟨h.1, h.2.1, h.2.2⟩⟩
    _ ↔ _ := by
        refine and_congr ?_ (and_congr (payload_whole_iff hW hpayload hsends) ?_)
        · rw [topic_shown_iff hcarried.topic, htopic]
          simp
        · rw [hproperties]
          exact PahoProperties.same_delivered_iff hdelivered

/-- A message as it arrives when nothing is lost, with a NUL behind each string. -/
def arrivalOf (topic : NSString) (msg : MQTTAsyncMessage) : Arrival where
  topicName := ⟨1, utf8 topic ++ [0]⟩
  topicLen := 0
  msg := ⟨0, { msg with properties := msg.properties.map (MQTTProperty.followedBy 0) }⟩

/-- A dictionary published with the properties of a request, shown to the delegate of client 1. -/
theorem message_arrives_sample :
    ∃ msg shown topic, freshWorld.Sends obligingEnv 0 (dictionaryMessage sampleDictionary)
        ⟨some "r", some "c", none⟩ msg ∧
      (onMessageArrived freshWorld.clients (some (.client 1)) (arrivalOf "t" msg) true).delegateCalls =
        toDelegate freshWorld.clients 1 (.didReceiveMessage shown topic) ∧
      (dictionaryMessage sampleDictionary).ShownAs ⟨some "r", some "c", none⟩ shown topic := by
  obtain ⟨msg, hsends⟩ := sends_dictionaryMessage sampleDictionary
  have hlawful := JSONWriting.integers_lawful
  obtain ⟨-, hdata⟩ := payload_of_sends hlawful rfl hsends
  have hcarried : msg.CarriedAs (utf8 "t") (arrivalOf "t" msg) :=
    { topic := show cText (utf8 "t" ++ [0]) = cText (utf8 "t") by decide
      payloadlen := rfl
      payload := ⟨_, _, hdata, hdata, rfl⟩
      properties := PahoProperties.deliveredAs_followedBy_zero _ }
  obtain ⟨shown, topic, hcalls, hiff⟩ :=
    message_arrives_iff hlawful rfl hsends hcarried freshWorld.clients 1 true
  refine ⟨msg, shown, topic, hsends, hcalls, hiff.2 ⟨?_, by decide, ?_⟩⟩
  · intro topic htopic
    obtain rfl : "t" = topic := Option.some.inj htopic
    decide
  · simp only [PahoProperties.strings, Option.toList_some, List.cons_append, List.nil_append,
      List.forall_mem_cons]
    exact ⟨⟨by decide, by decide, by decide⟩, ⟨by decide, by decide, by decide⟩,
      List.forall_mem_nil _⟩

end CocoaPaho
