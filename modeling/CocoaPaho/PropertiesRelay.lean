import Mathlib.Logic.Relation
import CocoaPaho.ClientRequests

/-!
Relaying. A client that receives a message and publishes one with the properties it decoded passes on
what it understood of the list, and no more; from then on nothing is lost, however often the message
is passed on. It can be passed on when both the response topic and the correlation data were
understood.
-/

namespace CocoaPaho

open Base

/-- One hop: some client, in whatever state, publishes a message with the properties decoded from a
list, and the library delivers them to another one as a list of its own. -/
def MQTTProperties.Relayed (L L' : MQTTProperties) : Prop :=
  ∃ (env : Env) (self : ClientId) (w : World) (message : PahoPublishedMessage)
    (properties : PahoProperties) (msg : MQTTAsyncMessage), message.payload.sortedKeysText ≠ none ∧
    PahoProperties.initWithProperties L = some properties ∧
    w.Sends env self message properties msg ∧ msg.properties.DeliveredAs L'

namespace PahoProperties

variable {L L' : MQTTProperties} {properties : PahoProperties}

/-- What has been decoded from a string can be sent: of an overlong string nothing is decoded. -/
theorem transmissible_of_shown {lenString : MQTTLenString} {string : NSString}
    (h : lenString.shown = some string) : Transmissible string := by
  obtain ⟨⟨-, htext⟩, hlong⟩ := MQTTLenString.shown_eq_some.1 h
  obtain ⟨⟨data, hdata, hbytes⟩, hempty, hnul⟩ := MQTTLenString.text_eq_some.1 htext
  have hlt : ¬ 2147483647 ≤ lenString.len := fun hle =>
    hlong ⟨hle, data, hdata, by rwa [← hbytes, zero_mem_utf8]⟩
  refine ⟨hempty, hnul, ?_⟩
  rw [hbytes, length_readBytes]
  omega

theorem transmissible_of_lastEntry {code : MQTTPropertyCode} {string : NSString}
    (h : ((lastEntry code L).bind fun p => p.data.shown) = some string) :
    Transmissible string := by
  obtain ⟨p, -, hstring⟩ := Option.bind_eq_some_iff.1 h
  exact transmissible_of_shown hstring

theorem transmissible_of_userEntry {p : MQTTProperty} {e : Σ _ : NSString, NSString}
    (h : userEntry p = some e) : Transmissible e.1 ∧ Transmissible e.2 := by
  unfold userEntry at h
  split_ifs at h
  obtain ⟨data, hdata, h⟩ := Option.bind_eq_some_iff.1 h
  obtain ⟨value, hvalue, rfl⟩ := Option.map_eq_some_iff.1 h
  exact ⟨transmissible_of_shown hdata, transmissible_of_shown hvalue⟩

/-- Every entry of a decoded dictionary comes from an entry of the list. -/
theorem transmissible_of_mem_entries {e : Σ _ : NSString, NSString}
    (he : e ∈ ((collected L).userProperties.getD ∅).entries) :
    Transmissible e.1 ∧ Transmissible e.2 := by
  have hvalue : (collected L).userValue e.1 = some e.2 := by
    rw [userValue_eq]
    exact AList.mem_lookup_iff.2 he
  rw [collected_userValue] at hvalue
  obtain ⟨p, -, hentry⟩ := List.mem_filterMap.1 (mem_of_lastValue_eq_some hvalue)
  exact transmissible_of_userEntry hentry

/-- What is sent on a hop is an encoding of what was decoded. -/
theorem sent_of_relayed (hL : initWithProperties L = some properties) (h : L.Relayed L') :
    ∃ responseTopic correlation, properties.responseTopic = some responseTopic ∧
      properties.correlation = some correlation ∧
      (sentProperties responseTopic correlation properties.userProperties).DeliveredAs L' := by
  obtain ⟨env, self, w, message, properties', msg, hpayload, hL', hsends, hdelivered⟩ := h
  obtain rfl : properties = properties' := Option.some.inj (hL.symm.trans hL')
  obtain ⟨text, htext⟩ := Option.ne_none_iff_exists'.1 hpayload
  obtain ⟨props, hprops, rfl⟩ := (sends_iff env self w htext msg).1 hsends
  obtain ⟨responseTopic, correlation, htopic, hcorrelation, rfl⟩ :=
    publishedProperties_eq_some_iff.1 hprops
  exact ⟨responseTopic, correlation, htopic, hcorrelation, hdelivered⟩

theorem relayed_iff (hL : initWithProperties L = some properties) :
    (∃ L', L.Relayed L') ↔ properties.responseTopic ≠ none ∧ properties.correlation ≠ none := by
  constructor
  · rintro ⟨L', h⟩
    obtain ⟨responseTopic, correlation, htopic, hcorrelation, -⟩ := sent_of_relayed hL h
    exact ⟨by simp [htopic], by simp [hcorrelation]⟩
  · rintro ⟨htopic, hcorrelation⟩
    obtain ⟨responseTopic, htopic⟩ := Option.ne_none_iff_exists'.1 htopic
    obtain ⟨correlation, hcorrelation⟩ := Option.ne_none_iff_exists'.1 hcorrelation
    have hprops : publishedProperties properties =
        some (sentProperties responseTopic correlation properties.userProperties) :=
      publishedProperties_eq_some_iff.2 ⟨_, _, htopic, hcorrelation, rfl⟩
    exact ⟨_, obligingEnv, 0, freshWorld, emptyMessage, properties, _, by simp [emptyMessage], hL,
      (sends_iff obligingEnv 0 freshWorld rfl _).2 ⟨_, hprops, rfl⟩, deliveredAs_followedBy_zero _⟩

/-- A hop passes on everything that was decoded. -/
theorem same_of_relayed (hL : initWithProperties L = some properties) (h : L.Relayed L') :
    ∃ properties', initWithProperties L' = some properties' ∧ properties'.Same properties := by
  obtain ⟨responseTopic, correlation, htopic, hcorrelation, hdelivered⟩ := sent_of_relayed hL h
  obtain rfl := (initWithProperties_eq_some.1 hL).2
  have htopic' := htopic
  have hcorrelation' := hcorrelation
  rw [collected_responseTopic] at htopic'
  rw [collected_correlation] at hcorrelation'
  obtain ⟨properties', hL', hsame⟩ := (delivered_same_iff hdelivered).2
    ⟨transmissible_of_lastEntry htopic', transmissible_of_lastEntry hcorrelation',
      fun e he => transmissible_of_mem_entries he⟩
  exact ⟨properties', hL', hsame.trans ⟨htopic.symm, hcorrelation.symm, fun _ => rfl⟩⟩

/-- **Relaying keeps the properties.** After any number of hops the decoded properties are those of
the first list, and the message can be passed on once more exactly when the first receiver understood
both its response topic and its correlation data. -/
theorem relay_keeps_properties (hL : initWithProperties L = some properties)
    (h : Relation.ReflTransGen MQTTProperties.Relayed L L') :
    ∃ properties', initWithProperties L' = some properties' ∧ properties'.Same properties ∧
      ((∃ L'', L'.Relayed L'') ↔
        properties.responseTopic ≠ none ∧ properties.correlation ≠ none) := by
  have hsame : ∃ properties', initWithProperties L' = some properties' ∧
      properties'.Same properties := by
    induction h with
    | refl => exact ⟨properties, hL, Same.refl _⟩
    | tail _ hhop ih =>
        obtain ⟨_, hstep, hsame⟩ := ih
        obtain ⟨properties', hL', hsame'⟩ := same_of_relayed hstep hhop
        exact ⟨properties', hL', hsame'.trans hsame⟩
  obtain ⟨properties', hL', hsame⟩ := hsame
  refine ⟨properties', hL', hsame, ?_⟩
  rw [relayed_iff hL', hsame.responseTopic, hsame.correlation]

theorem relay_keeps_request :
    ∃ properties L' L'' properties'',
      initWithProperties (requestWith [105, 100]) = some properties ∧
      (requestWith [105, 100]).Relayed L' ∧ L'.Relayed L'' ∧
      initWithProperties L'' = some properties'' ∧ properties''.Same properties := by
  have hL := initWithProperties_of_not_overlong (@not_overlong_requestWith [105, 100] (by decide))
  have hboth : (collected (requestWith [105, 100])).responseTopic ≠ none ∧
      (collected (requestWith [105, 100])).correlation ≠ none := by decide
  obtain ⟨L', hfirst⟩ := (relayed_iff hL).2 hboth
  obtain ⟨-, -, -, honce⟩ := relay_keeps_properties hL (Relation.ReflTransGen.single hfirst)
  obtain ⟨L'', hsecond⟩ := honce.2 hboth
  obtain ⟨properties'', hL'', hsame, -⟩ :=
    relay_keeps_properties hL ((Relation.ReflTransGen.single hfirst).tail hsecond)
  exact ⟨_, L', L'', properties'', hL, hfirst, hsecond, hL'', hsame⟩

end PahoProperties

end CocoaPaho
