import Mathlib.Tactic.IntervalCases
import CocoaPaho.ClientMethods

/-!
What a callback shows the delegate. An incoming message comes as a structure of six fields and a topic
in one of two representations, an outcome as a structure with a reason code that may be any `int`. Each
object is compared with the structure it is made from, field by field.
-/

namespace CocoaPaho

open Base

/-- Two structures that differ in nothing a message object can show. -/
structure MQTTAsyncMessage.Alike (msg msg' : MQTTAsyncMessage) : Prop where
  payload : ∀ data data', msg.payload = some data → msg'.payload = some data' →
    readBytes data msg.payloadlen.toNat = readBytes data' msg'.payloadlen.toNat
  qos : msg.qos = msg'.qos
  retained : msg.retained = 1 ↔ msg'.retained = 1
  dup : msg.dup = 1 ↔ msg'.dup = 1
  msgid : msg.msgid = msg'.msgid
  noProperties : msg.properties = [] ↔ msg'.properties = []
  properties : PahoProperties.initWithProperties msg.properties =
    PahoProperties.initWithProperties msg'.properties

/-- Whatever the delegate answers, it is handed the message and the topic made from the arrival. -/
theorem onMessageArrived_delegateCalls (clients : ClientId → PahoClient) (client : ClientId)
    (arrival : Arrival) (answer : Bool) :
    (onMessageArrived clients (some (.client client)) arrival answer).delegateCalls =
      toDelegate clients client (.didReceiveMessage
        (PahoMessage.initWithMessage arrival.msg.contents)
        (stringWithUTF8String arrival.topicName.contents)) := by
  unfold onMessageArrived checkClient
  dsimp only
  split_ifs <;> rfl

/-- The full topic name of an arrival, in the representation its `topicLen` selects: the C string, or
the bytes of that length with any NUL among them. -/
def Arrival.fullTopic (arrival : Arrival) : List UInt8 :=
  if 0 < arrival.topicLen then readBytes arrival.topicName.contents arrival.topicLen.toNat
  else cText arrival.topicName.contents

/-- A C string is its first bytes when it ends right behind them. -/
theorem cText_eq_readBytes_iff {b : CString} {n : ℕ} :
    cText b = readBytes b n ↔ (0 : UInt8) ∉ readBytes b n ∧ byteAt b n = 0 := by
  rw [zero_not_mem_readBytes, ← strlen_eq_iff]
  constructor
  · intro h
    rw [strlen, h, length_readBytes]
  · intro h
    have htake : b.take n = cText b := by
      rw [← h, strlen, cText]
      exact (List.prefix_iff_eq_take.1 (List.takeWhile_prefix _)).symm
    rw [readBytes_of_le, htake]
    rw [← h]
    exact (List.takeWhile_prefix _).length_le

/-- The full topic name is well-formed UTF-8. -/
def Arrival.ValidTopic (arrival : Arrival) : Prop := ∃ name, utf8 name = arrival.fullTopic

/-- The full topic name can be read as a C string: it comes as one, or it has no NUL among its bytes
and one right behind them. -/
def Arrival.TopicIsCString (arrival : Arrival) : Prop :=
  arrival.topicLen ≤ 0 ∨ (0 : UInt8) ∉ arrival.fullTopic ∧
    byteAt arrival.topicName.contents arrival.topicLen.toNat = 0

/-- The topic that is shown has the bytes of a valid name exactly when the C string has. -/
theorem stringWithUTF8String_fullTopic_iff {arrival : Arrival} (hvalid : arrival.ValidTopic) :
    (stringWithUTF8String arrival.topicName.contents).map utf8 = some arrival.fullTopic ↔
      arrival.TopicIsCString := by
  obtain ⟨name, hname⟩ := hvalid
  have htext : (stringWithUTF8String arrival.topicName.contents).map utf8 = some arrival.fullTopic ↔
      cText arrival.topicName.contents = arrival.fullTopic := by
    rw [stringWithUTF8String, Option.map_eq_some_iff]
    constructor
    · rintro ⟨string, hstring, hbytes⟩
      rw [← hbytes, ofUTF8_eq_some.1 hstring]
    · intro h
      exact ⟨name, ofUTF8_eq_some.2 (hname.trans h.symm), hname⟩
  rw [htext, Arrival.TopicIsCString]
  by_cases hlen : 0 < arrival.topicLen
  · have hfull : arrival.fullTopic =
        readBytes arrival.topicName.contents arrival.topicLen.toNat := if_pos hlen
    rw [hfull, cText_eq_readBytes_iff]
    exact (or_iff_right (not_le.2 hlen)).symm
  · exact iff_of_true (if_neg hlen).symm (Or.inl (not_lt.1 hlen))

/-- **The topic of an incoming message.** The string the delegate is handed encodes the full topic
name exactly when that name is a C string, and two such names that differ are never shown as one
topic. -/
theorem onMessageArrived_topic_iff (clients : ClientId → PahoClient) (client : ClientId) :
    (∀ arrival answer, arrival.ValidTopic → ∃ message topic,
      (onMessageArrived clients (some (.client client)) arrival answer).delegateCalls =
        toDelegate clients client (.didReceiveMessage message topic) ∧
      (topic.map utf8 = some arrival.fullTopic ↔ arrival.TopicIsCString)) ∧
      ∀ arrival arrival' : Arrival, arrival.ValidTopic → arrival'.ValidTopic →
        arrival.TopicIsCString → arrival'.TopicIsCString →
        stringWithUTF8String arrival.topicName.contents =
          stringWithUTF8String arrival'.topicName.contents →
        arrival.fullTopic = arrival'.fullTopic := by
  constructor
  · intro arrival answer hvalid
    exact ⟨_, _, onMessageArrived_delegateCalls clients client arrival answer,
      stringWithUTF8String_fullTopic_iff hvalid⟩
  · intro arrival arrival' hvalid hvalid' htopic htopic' heq
    have hshown := (stringWithUTF8String_fullTopic_iff hvalid).2 htopic
    have hshown' := (stringWithUTF8String_fullTopic_iff hvalid').2 htopic'
    rw [heq, hshown', Option.some.injEq] at hshown
    exact hshown.symm

/-- An arrival of an empty message whose topic has the given bytes, with a NUL behind them. -/
def arrivalOn (topic : List UInt8) (topicLen : ℤ) : Arrival where
  topicName := ⟨0, topic ++ [0]⟩
  topicLen := topicLen
  msg := ⟨1, {}⟩

theorem onMessageArrived_topic_plain :
    (arrivalOn [97, 98] 0).ValidTopic ∧ ∃ message topic,
      (onMessageArrived (World.initial (fun _ => "c") fun _ => some 0).clients (some (.client 0))
        (arrivalOn [97, 98] 0) true).delegateCalls =
          [⟨0, 0, .didReceiveMessage message topic⟩] ∧ topic.map utf8 = some [97, 98] := by
  have hvalid : (arrivalOn [97, 98] 0).ValidTopic := ⟨"ab", by decide⟩
  obtain ⟨message, topic, hcalls, hiff⟩ :=
    (onMessageArrived_topic_iff (World.initial (fun _ => "c") fun _ => some 0).clients 0).1
      (arrivalOn [97, 98] 0) true hvalid
  exact ⟨hvalid, message, topic, hcalls, hiff.2 (Or.inl le_rfl)⟩

/-- Of the topics `a`, NUL, `b` and `a`, NUL, `c` the delegate is shown the first letter. -/
theorem onMessageArrived_confuses_topics :
    (arrivalOn [97, 0, 98] 3).ValidTopic ∧ (arrivalOn [97, 0, 99] 3).ValidTopic ∧
      (arrivalOn [97, 0, 98] 3).fullTopic ≠ (arrivalOn [97, 0, 99] 3).fullTopic ∧
      stringWithUTF8String (arrivalOn [97, 0, 98] 3).topicName.contents =
        stringWithUTF8String (arrivalOn [97, 0, 99] 3).topicName.contents := by
  refine ⟨⟨"a\x00b", by decide⟩, ⟨"a\x00c", by decide⟩, by decide, by decide⟩

end CocoaPaho
