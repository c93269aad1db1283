import CocoaPaho.ClientMethods
import CocoaPaho.PropertiesLength

/-!
The properties of a published message on their way through the library and back. The strings come
back with a NUL behind them, so the decoder reads their texts; what the encoder loses is what lies
behind the first NUL, every empty string, and the strings whose length is no `int`. The decoder in
turn crashes on a string of the largest length an `int` can tell.
-/

namespace CocoaPaho

open Base

/-- Every string the decoder reads of a property is followed by a NUL in memory. -/
structure MQTTProperty.Terminated (p : MQTTProperty) : Prop where
  responseTopic : p.identifier = .responseTopic → p.data.Terminated
  correlation : p.identifier = .correlationData → p.data.Terminated
  key : p.identifier = .userProperty → p.data.Terminated
  value : p.identifier = .userProperty → p.value.Terminated

theorem MQTTProperty.terminated_of_strings {p : MQTTProperty} (hdata : p.data.Terminated)
    (hvalue : p.value.Terminated) : p.Terminated :=
  ⟨fun _ => hdata, fun _ => hdata, fun _ => hdata, fun _ => hvalue⟩

theorem MQTTProperty.Terminated.read {p : MQTTProperty} (h : p.Terminated) :
    ∀ a ∈ p.read, a.Terminated := by
  intro a ha
  unfold MQTTProperty.read at ha
  split at ha
  · next hid => exact List.mem_singleton.1 ha ▸ h.responseTopic hid
  · next hid => exact List.mem_singleton.1 ha ▸ h.correlation hid
  · next hid =>
      rcases List.mem_pair.1 ha with rfl | rfl
      · exact h.key hid
      · exact h.value hid
  · cases ha

theorem MQTTProperty.Terminated.shown_eq {p : MQTTProperty} (h : p.Terminated)
    (hlong : ¬ p.Overlong) {a : MQTTLenString} (ha : a ∈ p.read) : a.shown = a.text :=
  MQTTLenString.shown_of_terminated (h.read a ha) fun ha' => hlong ⟨a, ha, ha'⟩

theorem MQTTProperty.Terminated.crashes_iff {p : MQTTProperty} (h : p.Terminated) :
    p.Crashes ↔ p.Overlong :=
  exists_congr fun a => and_congr_right fun ha =>
    nsStringFromMQTTLenString_eq_none.trans (and_iff_left (h.read a ha))

/-- A property as the library returns it: the same data, followed by a NUL. -/
structure MQTTProperty.DeliveredAs (p q : MQTTProperty) : Prop extends p.AgreeOnLen q where
  dataTerminated : q.data.Terminated
  valueTerminated : q.value.Terminated

/-- A property list as the library returns it. -/
abbrev MQTTProperties.DeliveredAs (sent received : MQTTProperties) : Prop :=
  List.Forall₂ MQTTProperty.DeliveredAs sent received

theorem MQTTProperties.DeliveredAs.agreeOnLen {sent received : MQTTProperties}
    (h : sent.DeliveredAs received) : sent.AgreeOnLen received :=
  h.imp fun _ _ hpq => hpq.toAgreeOnLen

theorem MQTTProperties.DeliveredAs.terminated {sent received : MQTTProperties}
    (h : sent.DeliveredAs received) : ∀ q ∈ received, q.Terminated := by
  induction h with
  | nil => exact List.forall_mem_nil _
  | cons hpq _ ih =>
      exact List.forall_mem_cons.2
        ⟨MQTTProperty.terminated_of_strings hpq.dataTerminated hpq.valueTerminated, ih⟩

/-- The strings that survive, with a length below the largest `int`. -/
structure Transmissible (string : NSString) : Prop where
  ne_empty : string ≠ ""
  nul_not_mem : nulChar ∉ string.toList
  length_lt : (utf8 string).length < 2147483647

theorem strlen_utf8 {string : NSString} (h : nulChar ∉ string.toList) :
    strlen (utf8 string) = (utf8 string).length := by
  rw [strlen, cText_of_zero_not_mem (mt (zero_mem_utf8 string).1 h)]

theorem len_mqttLenString {string : NSString} (h : Transmissible string) :
    (mqttLenString string).len = (utf8 string).length := by
  have hlt := h.length_lt
  rw [mqttLenString_len, strlen_utf8 h.nul_not_mem, cInt_of_lt (by omega)]

theorem text_mqttLenString {string : NSString} (h : Transmissible string) :
    (mqttLenString string).text = some string := by
  refine MQTTLenString.text_eq_some.2 ⟨⟨utf8 string, rfl, ?_⟩, h.ne_empty, h.nul_not_mem⟩
  rw [len_mqttLenString h, Int.toNat_natCast, readBytes_of_le le_rfl, List.take_length]

theorem not_overlong_mqttLenString {string : NSString} (h : Transmissible string) :
    ¬ (mqttLenString string).Overlong := by
  rintro ⟨hlong, -⟩
  have hlt := h.length_lt
  rw [len_mqttLenString h] at hlong
  omega

/-- Whatever is read back from an encoded string could have been sent. -/
theorem transmissible_of_text {sent string : NSString} (hlong : ¬ (mqttLenString sent).Overlong)
    (h : (mqttLenString sent).text = some string) : Transmissible string := by
  obtain ⟨⟨data, hdata, hbytes⟩, hempty, hnul⟩ := MQTTLenString.text_eq_some.1 h
  have hlen := cInt_lt (strlen (utf8 sent))
  have hlt : ¬ 2147483647 ≤ (mqttLenString sent).len := fun hle =>
    hlong ⟨hle, data, hdata, by rwa [← hbytes, zero_mem_utf8]⟩
  refine ⟨hempty, hnul, ?_⟩
  rw [hbytes, length_readBytes]
  omega

namespace PahoProperties

/-- The user entry of a property, by the texts of its strings. -/
def textEntry (p : MQTTProperty) : Option (Σ _ : NSString, NSString) :=
  if p.identifier = .userProperty then
    p.data.text.bind fun data => p.value.text.map fun value => ⟨data, value⟩
  else none

/-- Where NULs follow, a list is decoded unless a string the decoder reads is overlong. -/
theorem initWithProperties_terminated {L : MQTTProperties} (hL : ∀ p ∈ L, p.Terminated)
    {result : PahoProperties} :
    initWithProperties L = some result ↔ (∀ p ∈ L, ¬ p.Overlong) ∧ collected L = result :=
  initWithProperties_eq_some.trans (and_congr_left fun _ =>
    forall₂_congr fun p hp => not_congr (hL p hp).crashes_iff)

/-- Where NULs follow, a user property is read by its texts. -/
theorem userEntry_of_terminated {p : MQTTProperty} (h : p.Terminated) (hlong : ¬ p.Overlong) :
    userEntry p = textEntry p := by
  unfold userEntry textEntry
  split_ifs with hid
  · rw [h.shown_eq hlong (by simp [MQTTProperty.read, hid]),
      h.shown_eq hlong (by simp [MQTTProperty.read, hid])]
  · rfl

theorem userEntries_of_terminated {L : MQTTProperties} (hL : ∀ p ∈ L, p.Terminated)
    (hlong : ∀ p ∈ L, ¬ p.Overlong) : userEntries L = L.filterMap textEntry :=
  List.filterMap_congr fun p hp => userEntry_of_terminated (hL p hp) (hlong p hp)

/-- A list and what is delivered of it have the same texts. -/
theorem filterMap_textEntry_agree {L L' : MQTTProperties} (h : L.AgreeOnLen L') :
    L'.filterMap textEntry = L.filterMap textEntry := by
  induction h with
  | nil => rfl
  | @cons p q _ _ hpq _ ih =>
      have hentry : textEntry q = textEntry p := by
        rw [textEntry, textEntry, hpq.identifier, hpq.data.text_eq, hpq.value.text_eq]
      rw [List.filterMap_cons, List.filterMap_cons, hentry, ih]

theorem lastEntry_text_agree (code : MQTTPropertyCode) {L L' : MQTTProperties}
    (h : L.AgreeOnLen L') :
    ((lastEntry code L').bind fun q => q.data.text) =
      (lastEntry code L).bind fun p => p.data.text := by
  have hrel := lastEntry_rel (fun _ _ hpq => hpq.identifier) code h
  generalize lastEntry code L = a, lastEntry code L' = b at hrel
  cases hrel with
  | none => rfl
  | some hpq => exact hpq.data.text_eq.symm

/-- Of the strings the decoder reads of the last entries, the texts are shown. -/
theorem lastEntry_shown {code : MQTTPropertyCode} {L : MQTTProperties}
    (hcode : code = .responseTopic ∨ code = .correlationData) (hL : ∀ p ∈ L, p.Terminated)
    (hlong : ∀ p ∈ L, ¬ p.Overlong) :
    ((lastEntry code L).bind fun p => p.data.shown) =
      (lastEntry code L).bind fun p => p.data.text := by
  cases hp : lastEntry code L with
  | none => rfl
  | some p =>
      have hmem := mem_of_lastEntry hp
      have hread : p.data ∈ p.read := by
        have hid := identifier_of_lastEntry hp
        rcases hcode with rfl | rfl <;> simp [MQTTProperty.read, hid]
      exact (hL p hmem).shown_eq (hlong p hmem) hread

/-- The property of one user entry. -/
def userProperty (e : Σ _ : NSString, NSString) : MQTTProperty :=
  { identifier := .userProperty, data := mqttLenString e.1, value := mqttLenString e.2 }

theorem userProperty_read (e : Σ _ : NSString, NSString) :
    (userProperty e).read = [mqttLenString e.1, mqttLenString e.2] := rfl

/-- What is sent of an object with both strings, as `publish:properties:token:` builds it. -/
def sentProperties (responseTopic correlation : NSString)
    (userProperties : Option (NSDictionary NSString)) : MQTTProperties :=
  [{ identifier := .responseTopic, data := mqttLenString responseTopic },
    { identifier := .correlationData, data := mqttLenString correlation }] ++
      (userProperties.getD ∅).entries.map userProperty

theorem publishedProperties_eq (responseTopic correlation : NSString)
    (userProperties : Option (NSDictionary NSString)) :
    publishedProperties ⟨some responseTopic, some correlation, userProperties⟩ =
      some (sentProperties responseTopic correlation userProperties) := by
  simp only [publishedProperties, mqttLenStringFromNSString, Option.map_some, Option.bind_some]
  exact congrArg some (foldl_mqttPropertiesAdd userProperty _ _)

theorem textEntry_of_ne {p : MQTTProperty} (h : p.identifier ≠ .userProperty) :
    textEntry p = none := if_neg h

theorem filter_userProperties {code : MQTTPropertyCode} (h : code ≠ .userProperty)
    (es : List (Σ _ : NSString, NSString)) :
    (es.map userProperty).filter (fun p => p.identifier = code) = [] := by
  rw [List.filter_eq_nil_iff]
  intro p hp
  obtain ⟨e, -, rfl⟩ := List.mem_map.1 hp
  rw [decide_eq_true_eq]
  exact Ne.symm h

theorem filter_sentProperties_responseTopic (responseTopic correlation : NSString)
    (userProperties : Option (NSDictionary NSString)) :
    (sentProperties responseTopic correlation userProperties).filter
        (fun p => p.identifier = .responseTopic) =
      [{ identifier := .responseTopic, data := mqttLenString responseTopic }] := by
  simp [sentProperties, filter_userProperties]

theorem filter_sentProperties_correlation (responseTopic correlation : NSString)
    (userProperties : Option (NSDictionary NSString)) :
    (sentProperties responseTopic correlation userProperties).filter
        (fun p => p.identifier = .correlationData) =
      [{ identifier := .correlationData, data := mqttLenString correlation }] := by
  simp [sentProperties, filter_userProperties]

theorem textEntry_userProperty {e : Σ _ : NSString, NSString} (hkey : Transmissible e.1)
    (hvalue : Transmissible e.2) : textEntry (userProperty e) = some e := by
  simp only [textEntry, userProperty, if_true, text_mqttLenString hkey, text_mqttLenString hvalue,
    Option.bind_some, Option.map_some]

theorem transmissible_of_textEntry {e d : Σ _ : NSString, NSString}
    (hlong : ¬ (userProperty e).Overlong) (h : textEntry (userProperty e) = some d) :
    Transmissible d.1 ∧ Transmissible d.2 := by
  simp only [textEntry, userProperty, if_true, Option.bind_eq_some_iff] at h
  obtain ⟨data, hdata, h⟩ := h
  obtain ⟨value, hvalue, rfl⟩ := Option.map_eq_some_iff.1 h
  exact ⟨transmissible_of_text (fun hkey => hlong ⟨_, by simp [userProperty_read], hkey⟩) hdata,
    transmissible_of_text (fun hvalue => hlong ⟨_, by simp [userProperty_read], hvalue⟩) hvalue⟩

/-- No string that could be sent is overlong. -/
theorem not_overlong_sentProperties {responseTopic correlation : NSString}
    {userProperties : Option (NSDictionary NSString)} (htopic : Transmissible responseTopic)
    (hcorrelation : Transmissible correlation)
    (huser : ∀ e ∈ (userProperties.getD ∅).entries, Transmissible e.1 ∧ Transmissible e.2) :
    ∀ p ∈ sentProperties responseTopic correlation userProperties, ¬ p.Overlong := by
  rintro p hp ⟨a, ha, hlong⟩
  rcases List.mem_append.1 hp with hp | hp
  · rcases List.mem_pair.1 hp with rfl | rfl
    · obtain rfl := List.mem_singleton.1 ha
      exact not_overlong_mqttLenString htopic hlong
    · obtain rfl := List.mem_singleton.1 ha
      exact not_overlong_mqttLenString hcorrelation hlong
  · obtain ⟨e, he, rfl⟩ := List.mem_map.1 hp
    rcases List.mem_pair.1 ha with rfl | rfl
    · exact not_overlong_mqttLenString (huser e he).1 hlong
    · exact not_overlong_mqttLenString (huser e he).2 hlong

section Delivered

variable {responseTopic correlation : NSString} {userProperties : Option (NSDictionary NSString)}
  {received : MQTTProperties}
  (h : (sentProperties responseTopic correlation userProperties).DeliveredAs received)

include h

/-- What is sent comes back without a crash when nothing sent is overlong. -/
theorem delivered_eq_some {result : PahoProperties} :
    initWithProperties received = some result ↔
      (∀ p ∈ sentProperties responseTopic correlation userProperties, ¬ p.Overlong) ∧
        collected received = result := by
  refine (initWithProperties_terminated h.terminated).trans (and_congr_left fun _ => ?_)
  constructor
  · intro hreceived p hp hlong
    obtain ⟨q, hq, hqp⟩ := exists_agreeOnLen_of_mem h.agreeOnLen.symm hp
    exact hreceived q hq (hqp.symm.overlong hlong)
  · intro hsent q hq hlong
    obtain ⟨p, hp, hpq⟩ := exists_agreeOnLen_of_mem h.agreeOnLen hq
    exact hsent p hp (hpq.symm.overlong hlong)

variable (hlong : ∀ p ∈ received, ¬ p.Overlong)

include hlong

theorem delivered_responseTopic :
    (collected received).responseTopic = (mqttLenString responseTopic).text := by
  rw [collected_responseTopic, lastEntry_shown (Or.inl rfl) h.terminated hlong,
    lastEntry_text_agree _ h.agreeOnLen, lastEntry, filter_sentProperties_responseTopic,
    List.getLast?_singleton, Option.bind_some]

theorem delivered_correlation :
    (collected received).correlation = (mqttLenString correlation).text := by
  rw [collected_correlation, lastEntry_shown (Or.inr rfl) h.terminated hlong,
    lastEntry_text_agree _ h.agreeOnLen, lastEntry, filter_sentProperties_correlation,
    List.getLast?_singleton, Option.bind_some]

theorem delivered_userValue (key : NSString) :
    (collected received).userValue key = lastValue key
      ((userProperties.getD ∅).entries.filterMap fun e => textEntry (userProperty e)) := by
  have htopic : textEntry { identifier := .responseTopic
                            data := mqttLenString responseTopic } = none :=
    textEntry_of_ne (by simp)
  have hcorrelation : textEntry { identifier := .correlationData
                                  data := mqttLenString correlation } = none :=
    textEntry_of_ne (by simp)
  rw [collected_userValue, userEntries_of_terminated h.terminated hlong,
    filterMap_textEntry_agree h.agreeOnLen, sentProperties, List.filterMap_append,
    List.filterMap_map, List.filterMap_cons_none htopic,
    List.filterMap_cons_none hcorrelation, List.filterMap_nil, List.nil_append]
  rfl

end Delivered

/-- The dictionary comes back when all its strings can be sent. -/
theorem filterMap_textEntry {d : NSDictionary NSString}
    (h : ∀ e ∈ d.entries, Transmissible e.1 ∧ Transmissible e.2) :
    d.entries.filterMap (fun e => textEntry (userProperty e)) = d.entries := by
  rw [List.filterMap_congr fun e he => textEntry_userProperty (h e he).1 (h e he).2]
  exact List.filterMap_some

/-- Properties come back when all their strings can be sent, and not otherwise. -/
theorem delivered_same_iff {responseTopic correlation : NSString}
    {userProperties : Option (NSDictionary NSString)} {received : MQTTProperties}
    (h : (sentProperties responseTopic correlation userProperties).DeliveredAs received) :
    (∃ properties, initWithProperties received = some properties ∧
        properties.Same ⟨some responseTopic, some correlation, userProperties⟩) ↔
      Transmissible responseTopic ∧ Transmissible correlation ∧
        ∀ e ∈ (userProperties.getD ∅).entries, Transmissible e.1 ∧ Transmissible e.2 := by
  constructor
  · rintro ⟨properties, hproperties, hsame⟩
    obtain ⟨hsent, rfl⟩ := (delivered_eq_some h).1 hproperties
    have hlong := ((initWithProperties_terminated h.terminated).1 hproperties).1
    have htopic := (delivered_responseTopic h hlong).symm.trans hsame.responseTopic
    have hcorrelation := (delivered_correlation h hlong).symm.trans hsame.correlation
    have htopicLong : ¬ (mqttLenString responseTopic).Overlong := fun ha =>
      hsent _ List.mem_cons_self ⟨_, List.mem_singleton_self _, ha⟩
    have hcorrelationLong : ¬ (mqttLenString correlation).Overlong := fun ha =>
      hsent _ (List.mem_cons_of_mem _ List.mem_cons_self) ⟨_, List.mem_singleton_self _, ha⟩
    refine ⟨transmissible_of_text htopicLong htopic,
      transmissible_of_text hcorrelationLong hcorrelation, ?_⟩
    intro e he
    have hvalue := (delivered_userValue h hlong e.1).symm.trans (hsame.userValue e.1)
    rw [userValue_eq, AList.mem_lookup_iff.2 he] at hvalue
    obtain ⟨e', hmem, he'⟩ := List.mem_filterMap.1 (mem_of_lastValue_eq_some hvalue)
    have huserLong : ¬ (userProperty e').Overlong :=
      hsent _ (List.mem_append_right _ (List.mem_map_of_mem hmem))
    exact transmissible_of_textEntry huserLong he'
  · rintro ⟨htopic, hcorrelation, huser⟩
    have hproperties := (delivered_eq_some h).2
      ⟨not_overlong_sentProperties htopic hcorrelation huser, rfl⟩
    have hlong := ((initWithProperties_terminated h.terminated).1 hproperties).1
    refine ⟨_, hproperties, ?_, ?_, fun key => ?_⟩
    · rw [delivered_responseTopic h hlong, text_mqttLenString htopic]
    · rw [delivered_correlation h hlong, text_mqttLenString hcorrelation]
    · rw [delivered_userValue h hlong, filterMap_textEntry huser, lastValue_entries, userValue_eq]

/-- **The round trip of message properties.** The properties published come back exactly when every
string is non-empty, has no U+0000, and has a length below the largest `int`. -/
theorem publish_roundTrip_iff (responseTopic correlation : NSString)
    (userProperties : Option (NSDictionary NSString)) :
    ∃ sent, publishedProperties ⟨some responseTopic, some correlation, userProperties⟩ = some sent ∧
      ∀ received, sent.DeliveredAs received →
        ((∃ properties, initWithProperties received = some properties ∧
            properties.Same ⟨some responseTopic, some correlation, userProperties⟩) ↔
          Transmissible responseTopic ∧ Transmissible correlation ∧
            ∀ e ∈ (userProperties.getD ∅).entries, Transmissible e.1 ∧ Transmissible e.2) :=
  ⟨_, publishedProperties_eq responseTopic correlation userProperties, fun _ h =>
    delivered_same_iff h⟩

theorem deliveredAs_followedBy_zero (L : MQTTProperties) :
    L.DeliveredAs (L.map (MQTTProperty.followedBy 0)) := by
  rw [MQTTProperties.DeliveredAs, List.forall₂_map_right_iff, List.forall₂_same]
  intro p _
  exact
    { identifier := rfl
      data := p.data.agreeOnLen_followedBy 0
      value := p.value.agreeOnLen_followedBy 0
      dataTerminated := (p.data.terminated_followedBy 0).2 (Or.inl rfl)
      valueTerminated := (p.value.terminated_followedBy 0).2 (Or.inl rfl) }

/-- The letter `a`, a number of times. -/
def letters (n : ℕ) : NSString := String.ofList (List.replicate n 'a')

theorem length_utf8_letters (n : ℕ) : (utf8 (letters n)).length = n := by
  rw [letters, utf8_eq_flatMap, String.toList_ofList]
  induction n with
  | zero => rfl
  | succ n ih =>
      rw [List.replicate_succ, List.flatMap_cons, List.length_append, ih, Nat.add_comm]
      rfl

theorem nul_not_mem_letters (n : ℕ) : nulChar ∉ (letters n).toList := by
  rw [letters, String.toList_ofList]
  intro h
  exact absurd (List.eq_of_mem_replicate h) (by decide)

theorem letters_ne_empty {n : ℕ} (h : n ≠ 0) : letters n ≠ "" := by
  intro heq
  rw [← utf8_eq_nil, ← List.length_eq_zero_iff, length_utf8_letters] at heq
  exact h heq

/-- A response topic of `2 ^ 31` letters is non-empty and has no U+0000, and does not come back. -/
theorem publish_roundTrip_loses_long_topic :
    ¬ ∀ (responseTopic correlation : NSString) (userProperties : Option (NSDictionary NSString)),
      ∃ sent, publishedProperties ⟨some responseTopic, some correlation, userProperties⟩ = some sent ∧
        ∀ received, sent.DeliveredAs received →
          ((∃ properties, initWithProperties received = some properties ∧
              properties.Same ⟨some responseTopic, some correlation, userProperties⟩) ↔
            (responseTopic ≠ "" ∧ nulChar ∉ responseTopic.toList) ∧
              (correlation ≠ "" ∧ nulChar ∉ correlation.toList) ∧
              ∀ e ∈ (userProperties.getD ∅).entries,
                (e.1 ≠ "" ∧ nulChar ∉ e.1.toList) ∧ (e.2 ≠ "" ∧ nulChar ∉ e.2.toList)) := by
  intro h
  obtain ⟨sent, hsent, hiff⟩ := h (letters 2147483648) "b" none
  rw [publishedProperties_eq, Option.some.injEq] at hsent
  subst hsent
  have hdelivered := deliveredAs_followedBy_zero
    (sentProperties (letters 2147483648) "b" none)
  have hnonempty : letters 2147483648 ≠ "" := letters_ne_empty (by decide)
  obtain ⟨properties, hproperties, hsame⟩ := (hiff _ hdelivered).2
    ⟨⟨hnonempty, nul_not_mem_letters _⟩, ⟨by decide, by decide⟩, fun e he => absurd he (by simp)⟩
  obtain ⟨hlong, rfl⟩ := (initWithProperties_terminated hdelivered.terminated).1 hproperties
  have htext := (delivered_responseTopic hdelivered hlong).symm.trans hsame.responseTopic
  have hlost : ¬ (mqttLenString (letters 2147483648)).Overlong := by
    rintro ⟨hle, -⟩
    rw [mqttLenString_len, strlen_utf8 (nul_not_mem_letters _), length_utf8_letters] at hle
    unfold cInt at hle
    exact absurd hle (by decide)
  have hlt := (transmissible_of_text hlost htext).length_lt
  rw [length_utf8_letters] at hlt
  omega

end PahoProperties

end CocoaPaho
