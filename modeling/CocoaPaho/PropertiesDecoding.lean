import CocoaPaho.PropertiesRoundTrip

/-!
The meaning of a received property list. The decoder is a loop that overwrites what it has, skips what
it cannot decode, and creates the user dictionary on demand; its result is given here by what stands
last in the list, and does not depend on the entries it skips nor on the order of distinct ones.
-/

namespace CocoaPaho

open Base

theorem MQTTLenString.terminated_of_nul {len : ℤ} {data : CString}
    (h : byteAt data len.toNat = 0) : MQTTLenString.Terminated ⟨len, some data⟩ := by
  intro data' hdata
  obtain rfl := Option.some.inj hdata
  exact h

theorem MQTTLenString.terminated_null (len : ℤ) : MQTTLenString.Terminated ⟨len, none⟩ :=
  fun _ hdata => absurd hdata.symm (Option.some_ne_none _)

/-- A user property whose name and value both have texts. -/
def MQTTProperty.LegibleUser (p : MQTTProperty) : Prop :=
  p.identifier = .userProperty ∧ p.data.text ≠ none ∧ p.value.text ≠ none

namespace PahoProperties

/-- What a property list says: of the response topics and of the correlation data the last counts,
with its text if it has one; of the legible user properties with one name the last. -/
structure Means (properties : PahoProperties) (L : MQTTProperties) : Prop where
  responseTopic : ∀ string, properties.responseTopic = some string ↔
    ∃ p, IsLast (fun q => q.identifier = .responseTopic) L p ∧ p.data.text = some string
  correlation : ∀ string, properties.correlation = some string ↔
    ∃ p, IsLast (fun q => q.identifier = .correlationData) L p ∧ p.data.text = some string
  userValue : ∀ key value, properties.userValue key = some value ↔
    ∃ p, IsLast (fun q => q.LegibleUser ∧ q.data.text = some key) L p ∧ p.value.text = some value
  noUserProperties : properties.userProperties = none ↔ ∀ p ∈ L, ¬ p.LegibleUser

theorem textEntry_eq_some {p : MQTTProperty} {key value : NSString} :
    textEntry p = some ⟨key, value⟩ ↔
      p.identifier = .userProperty ∧ p.data.text = some key ∧ p.value.text = some value := by
  unfold textEntry
  split_ifs with hid
  · simp [hid, Option.bind_eq_some_iff]
  · simp [hid]

theorem textEntry_eq_none {p : MQTTProperty} : textEntry p = none ↔ ¬ p.LegibleUser := by
  rw [Option.eq_none_iff_forall_ne_some, MQTTProperty.LegibleUser]
  constructor
  · rintro h ⟨hid, hdata, hvalue⟩
    obtain ⟨key, hkey⟩ := Option.ne_none_iff_exists'.1 hdata
    obtain ⟨value, hvalue⟩ := Option.ne_none_iff_exists'.1 hvalue
    exact h ⟨key, value⟩ (textEntry_eq_some.2 ⟨hid, hkey, hvalue⟩)
  · rintro h ⟨key, value⟩ hsome
    obtain ⟨hid, hkey, hvalue⟩ := textEntry_eq_some.1 hsome
    exact h ⟨hid, by simp [hkey], by simp [hvalue]⟩

theorem lastEntry_eq_some {code : MQTTPropertyCode} {L : MQTTProperties} {p : MQTTProperty} :
    lastEntry code L = some p ↔ IsLast (fun q => q.identifier = code) L p := by
  induction L using List.reverseRecOn with
  | nil => exact iff_of_false (by simp [lastEntry]) not_isLast_nil
  | append_singleton L q ih =>
      rw [lastEntry_append_singleton, isLast_append_singleton, ← ih]
      split_ifs with hcode
      · simp [hcode, eq_comm]
      · simp [hcode]

theorem lastText_eq_some {code : MQTTPropertyCode} {L : MQTTProperties} {string : NSString} :
    ((lastEntry code L).bind fun p => p.data.text) = some string ↔
      ∃ p, IsLast (fun q => q.identifier = code) L p ∧ p.data.text = some string := by
  rw [Option.bind_eq_some_iff]
  exact exists_congr fun p => and_congr_left fun _ => lastEntry_eq_some

theorem lastValue_textEntries {L : MQTTProperties} {key value : NSString} :
    lastValue key (L.filterMap textEntry) = some value ↔
      ∃ p, IsLast (fun q => q.LegibleUser ∧ q.data.text = some key) L p ∧
        p.value.text = some value := by
  induction L using List.reverseRecOn with
  | nil => exact iff_of_false (by simp) fun ⟨p, hlast, _⟩ => not_isLast_nil hlast
  | append_singleton L q ih =>
      rw [List.filterMap_append]
      simp only [isLast_append_singleton]
      cases hq : textEntry q with
      | none =>
          have hlegible : ¬ q.LegibleUser := textEntry_eq_none.1 hq
          rw [List.filterMap_cons_none hq, List.filterMap_nil, List.append_nil, ih]
          simp [hlegible]
      | some e =>
          obtain ⟨key', value'⟩ := e
          obtain ⟨hid, hkey, hvalue⟩ := textEntry_eq_some.1 hq
          have hlegible : q.LegibleUser := ⟨hid, by simp [hkey], by simp [hvalue]⟩
          rw [List.filterMap_cons_some hq, List.filterMap_nil, lastValue_append_singleton]
          by_cases hsame : key' = key
          · simp [hlegible, hkey, hvalue, hsame]
          · simp [hlegible, hkey, hsame, ih]

/-- What the decoder collects of a list. -/
theorem means_collected {L : MQTTProperties} (hL : ∀ p ∈ L, p.Terminated)
    (hlong : ∀ p ∈ L, ¬ p.Overlong) : (collected L).Means L where
  responseTopic := fun string => by
    rw [collected_responseTopic, lastEntry_shown (Or.inl rfl) hL hlong, lastText_eq_some]
  correlation := fun string => by
    rw [collected_correlation, lastEntry_shown (Or.inr rfl) hL hlong, lastText_eq_some]
  userValue := fun key value => by
    rw [collected_userValue, userEntries_of_terminated hL hlong, lastValue_textEntries]
  noUserProperties := by
    rw [collected_userProperties, userEntries_of_terminated hL hlong,
      ite_eq_left_iff, imp_iff_not (by simp), not_not, List.filterMap_eq_nil_iff]
    exact forall₂_congr fun p _ => textEntry_eq_none

/-- A property the decoder takes notice of. -/
def relevant (p : MQTTProperty) : Bool :=
  match p.identifier with
  | .responseTopic => true
  | .correlationData => true
  | .userProperty => (textEntry p).isSome
  | _ => false

/-- A property of another kind, or a user property without texts, is passed over. -/
theorem collect_of_not_relevant {p : MQTTProperty} (h : relevant p = false)
    (self : PahoProperties) : self.collect p = self := by
  unfold collect
  unfold relevant at h
  split
  · next hid => simp [hid] at h
  · next hid => simp [hid] at h
  · next hid =>
      rw [hid] at h
      have hentry : textEntry p = none := by simpa using h
      split
      · next data value hdata hvalue =>
          have hlegible : p.LegibleUser := by
            refine ⟨hid, ?_, ?_⟩
            · simp [(MQTTLenString.shown_eq_some.1 hdata).1.2]
            · simp [(MQTTLenString.shown_eq_some.1 hvalue).1.2]
          exact absurd hlegible (textEntry_eq_none.1 hentry)
      · rfl
  · rfl

theorem collected_filter (L : MQTTProperties) : collected (L.filter relevant) = collected L := by
  induction L using List.reverseRecOn with
  | nil => rfl
  | append_singleton L p ih =>
      rw [List.filter_append, collected_append_singleton, ← ih]
      cases hp : relevant p with
      | true =>
          rw [List.filter_cons_of_pos hp, List.filter_nil, collected_append_singleton]
      | false =>
          rw [List.filter_cons_of_neg (by simp [hp]), List.filter_nil, List.append_nil,
            collect_of_not_relevant hp]

/-- A list in which no two properties compete: at most one response topic, at most one correlation
data, and no two legible user properties with one name. -/
structure Distinct (L : MQTTProperties) : Prop where
  responseTopic : (L.filter fun p => p.identifier = .responseTopic).length ≤ 1
  correlation : (L.filter fun p => p.identifier = .correlationData).length ≤ 1
  keys : (L.filterMap textEntry).NodupKeys

theorem lastEntry_perm {code : MQTTPropertyCode} {L L' : MQTTProperties} (h : L.Perm L')
    (hone : (L.filter fun p => p.identifier = code).length ≤ 1) :
    lastEntry code L = lastEntry code L' := by
  have hfilter : (L.filter fun p => p.identifier = code).Perm
      (L'.filter fun p => p.identifier = code) := h.filter _
  unfold lastEntry
  cases hL : L.filter fun p => p.identifier = code with
  | nil =>
      rw [hL, List.nil_perm] at hfilter
      rw [hfilter]
  | cons p rest =>
      rw [hL, List.length_cons] at hone
      obtain rfl : rest = [] := List.length_eq_zero_iff.1 (by omega)
      rw [hL, List.singleton_perm] at hfilter
      rw [← hfilter]

theorem collected_perm {L L' : MQTTProperties} (hL : ∀ p ∈ L, p.Terminated)
    (hlong : ∀ p ∈ L, ¬ p.Overlong) (h : L.Perm L') (hdistinct : Distinct L) :
    (collected L').Same (collected L) ∧
      ((collected L').userProperties = none ↔ (collected L).userProperties = none) := by
  have hL' : ∀ p ∈ L', p.Terminated := fun p hp => hL p (h.mem_iff.2 hp)
  have hlong' : ∀ p ∈ L', ¬ p.Overlong := fun p hp => hlong p (h.mem_iff.2 hp)
  constructor
  · refine ⟨?_, ?_, fun key => ?_⟩
    · rw [collected_responseTopic, collected_responseTopic,
        lastEntry_perm h hdistinct.responseTopic]
    · rw [collected_correlation, collected_correlation,
        lastEntry_perm h hdistinct.correlation]
    · rw [collected_userValue, collected_userValue,
        userEntries_of_terminated hL hlong, userEntries_of_terminated hL' hlong']
      exact (lastValue_perm key hdistinct.keys (h.filterMap textEntry)).symm
  · rw [(means_collected hL hlong).noUserProperties, (means_collected hL' hlong').noUserProperties]
    exact forall_congr' fun p => imp_congr_left h.mem_iff.symm

theorem initWithProperties_of_not_overlong {L : MQTTProperties} (h : ∀ p ∈ L, ¬ p.Overlong) :
    initWithProperties L = some (collected L) :=
  initWithProperties_of_not_crashes fun p hp hcrash => h p hp hcrash.overlong

/-- **The meaning of a property list.** Where each string is followed by a NUL and none is overlong,
the decoder finds what the last entries say; a list with the same relevant entries in the same order
is decoded to the same object, and one with the same entries in any order to the same properties if no
two compete. -/
theorem initWithProperties_meaning {L : MQTTProperties} (hL : ∀ p ∈ L, p.Terminated)
    (hlong : ∀ p ∈ L, ¬ p.Overlong) :
    ∃ properties, initWithProperties L = some properties ∧ properties.Means L ∧
      (∀ L' : MQTTProperties, (∀ p ∈ L', ¬ p.Overlong) → L'.filter relevant = L.filter relevant →
        initWithProperties L' = some properties) ∧
      ∀ L' : MQTTProperties, L.Perm L' → Distinct L →
        ∃ properties', initWithProperties L' = some properties' ∧ properties'.Same properties ∧
          (properties'.userProperties = none ↔ properties.userProperties = none) := by
  refine ⟨collected L, initWithProperties_of_not_overlong hlong, means_collected hL hlong,
    fun L' hlong' h => ?_, fun L' h hdistinct => ?_⟩
  · rw [initWithProperties_of_not_overlong hlong', ← collected_filter L', h, collected_filter]
  · exact ⟨_, initWithProperties_of_not_overlong fun p hp => hlong p (h.mem_iff.2 hp),
      collected_perm hL hlong h hdistinct⟩

/-- A response topic of the largest length an `int` can tell, with a NUL behind it, is not decoded:
the decoder crashes. -/
theorem initWithProperties_crashes_on_overlong :
    ¬ ∀ L : MQTTProperties, (∀ p ∈ L, p.Terminated) →
      ∃ properties, initWithProperties L = some properties ∧ properties.Means L := by
  intro h
  have hbytes : (0 : UInt8) ∉ utf8 (letters 2147483647) :=
    mt (zero_mem_utf8 _).1 (nul_not_mem_letters _)
  have hread : readBytes (utf8 (letters 2147483647) ++ [0]) 2147483647 =
      utf8 (letters 2147483647) := by
    have hlen := readBytes_append_length (utf8 (letters 2147483647)) [0]
    rwa [length_utf8_letters] at hlen
  have hnul : byteAt (utf8 (letters 2147483647) ++ [0]) 2147483647 = 0 := by
    have hlen := length_utf8_letters 2147483647
    simp [byteAt, hlen]
  have hterminated : MQTTLenString.Terminated
      ⟨2147483647, some (utf8 (letters 2147483647) ++ [0])⟩ :=
    MQTTLenString.terminated_of_nul hnul
  have hoverlong : MQTTLenString.Overlong
      ⟨2147483647, some (utf8 (letters 2147483647) ++ [0])⟩ :=
    ⟨Int.le_refl _, _, rfl, hread.symm ▸ hbytes⟩
  have hL : ∀ p ∈ [(⟨.responseTopic, ⟨2147483647, some (utf8 (letters 2147483647) ++ [0])⟩,
      ⟨0, none⟩⟩ : MQTTProperty)], p.Terminated :=
    List.forall_mem_singleton.2
      (MQTTProperty.terminated_of_strings hterminated (MQTTLenString.terminated_null 0))
  obtain ⟨properties, hproperties, -⟩ := h _ hL
  have hlong := ((initWithProperties_terminated hL).1 hproperties).1
  exact List.forall_mem_singleton.1 hlong ⟨_, List.mem_singleton_self _, hoverlong⟩

/-- A response topic, a content type, and two user properties, the second without a name. -/
def mixedList : MQTTProperties :=
  [{ identifier := .responseTopic, data := ⟨1, some [97, 0]⟩ },
    { identifier := .contentType, data := ⟨1, some [98, 0]⟩ },
    { identifier := .userProperty, data := ⟨1, some [107, 0]⟩, value := ⟨1, some [118, 0]⟩ },
    { identifier := .userProperty, data := ⟨0, some [0]⟩, value := ⟨1, some [119, 0]⟩ }]

theorem mixedList_terminated : ∀ p ∈ mixedList, p.Terminated := by
  have hnull := MQTTLenString.terminated_null 0
  have hone : ∀ byte : UInt8, MQTTLenString.Terminated ⟨1, some [byte, 0]⟩ :=
    fun _ => MQTTLenString.terminated_of_nul rfl
  simp only [mixedList, List.forall_mem_cons]
  exact ⟨MQTTProperty.terminated_of_strings (hone _) hnull,
    MQTTProperty.terminated_of_strings (hone _) hnull,
    MQTTProperty.terminated_of_strings (hone _) (hone _),
    MQTTProperty.terminated_of_strings (MQTTLenString.terminated_of_nul rfl) (hone _),
    List.forall_mem_nil _⟩

theorem mixedList_not_overlong : ∀ p ∈ mixedList, ¬ p.Overlong := by
  have hshort : ∀ (len : ℤ) (data : Option CString), len < 2147483647 →
      ¬ MQTTLenString.Overlong ⟨len, data⟩ := fun len data hlen h => absurd h.1 (Int.not_le.2 hlen)
  rintro p hp ⟨a, ha, hlong⟩
  simp only [mixedList, List.mem_cons, List.not_mem_nil, or_false] at hp
  rcases hp with rfl | rfl | rfl | rfl <;>
    simp only [MQTTProperty.read, List.mem_cons, List.not_mem_nil, or_false] at ha
  · exact hshort _ _ (by decide) (ha ▸ hlong)
  · rcases ha with rfl | rfl <;> exact hshort _ _ (by decide) hlong
  · rcases ha with rfl | rfl <;> exact hshort _ _ (by decide) hlong

theorem initWithProperties_meaning_mixedList :
    ∃ properties, initWithProperties mixedList = some properties ∧ properties.Means mixedList ∧
      initWithProperties (mixedList.filter relevant) = some properties ∧
      ∃ properties', initWithProperties mixedList.reverse = some properties' ∧
        properties'.Same properties := by
  obtain ⟨properties, hproperties, hmeans, hrelevant, hperm⟩ :=
    initWithProperties_meaning mixedList_terminated mixedList_not_overlong
  have hkeys : mixedList.filterMap textEntry = [⟨"k", "v"⟩] := by decide
  have hdistinct : Distinct mixedList :=
    ⟨by decide, by decide, by rw [hkeys]; exact List.nodupKeys_singleton _⟩
  obtain ⟨properties', hreverse, hsame, -⟩ := hperm _ mixedList.reverse_perm.symm hdistinct
  refine ⟨properties, hproperties, hmeans, hrelevant _ ?_ ?_, properties', hreverse, hsame⟩
  · exact fun p hp => mixedList_not_overlong p (List.mem_filter.1 hp).1
  · simp [List.filter_filter]

end PahoProperties

end CocoaPaho
