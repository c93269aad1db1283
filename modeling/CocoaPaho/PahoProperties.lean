import Mathlib.Data.List.Forall2
import CocoaPaho.Base.LastWins
import CocoaPaho.PahoHelper

/-!
`PahoProperties.m`: decoding a received property list. The decoder is a loop over the list that
overwrites; where none of its conversions crashes, it is characterized below by the last entry of each
kind.
-/

namespace CocoaPaho

open Base

/-- `NSDictionary` with string keys, together with the order in which it enumerates its entries. -/
abbrev NSDictionary (α : Type) := AList fun _ : NSString => α

structure PahoProperties where
  responseTopic : Option NSString := none
  correlation : Option NSString := none
  userProperties : Option (NSDictionary NSString) := none

/-- The strings of a property that the decoder reads. -/
def MQTTProperty.read (property : MQTTProperty) : List MQTTLenString :=
  match property.identifier with
  | .responseTopic => [property.data]
  | .correlationData => [property.data]
  | .userProperty => [property.data, property.value]
  | _ => []

/-- The decoder crashes on a property when one of the conversions does. -/
def MQTTProperty.Crashes (property : MQTTProperty) : Prop :=
  ∃ lenStr ∈ property.read, nsStringFromMQTTLenString lenStr = none

/-- A property with an overlong string where the decoder reads it. -/
def MQTTProperty.Overlong (property : MQTTProperty) : Prop :=
  ∃ lenStr ∈ property.read, lenStr.Overlong

theorem MQTTProperty.Crashes.overlong {property : MQTTProperty} (h : property.Crashes) :
    property.Overlong := by
  obtain ⟨lenStr, hread, hnone⟩ := h
  exact ⟨lenStr, hread, (nsStringFromMQTTLenString_eq_none.1 hnone).1⟩

namespace PahoProperties

/-- `analysisProperty:`, `none` when a conversion crashes. An undecodable user property returns early;
a user dictionary is created when the first decodable one arrives. -/
def analysisProperty (self : PahoProperties) (property : MQTTProperty) : Option PahoProperties :=
  match property.identifier with
  | .responseTopic =>
    (nsStringFromMQTTLenString property.data).map fun responseTopic =>
      { self with responseTopic := responseTopic }
  | .correlationData =>
    (nsStringFromMQTTLenString property.data).map fun correlation =>
      { self with correlation := correlation }
  | .userProperty =>
    (nsStringFromMQTTLenString property.data).bind fun data =>
      (nsStringFromMQTTLenString property.value).map fun value =>
        match data, value with
        | some data, some value =>
          let userProperties := self.userProperties.getD ∅
          { self with userProperties := some (userProperties.insert data value) }
        | _, _ => self
  | _ => some self

/-- `initWithProperties:`, `none` when a conversion crashes. -/
def initWithProperties (properties : MQTTProperties) : Option PahoProperties :=
  properties.foldlM analysisProperty {}

/-- What a property adds to an object, where no conversion crashes. -/
def collect (self : PahoProperties) (property : MQTTProperty) : PahoProperties :=
  match property.identifier with
  | .responseTopic => { self with responseTopic := property.data.shown }
  | .correlationData => { self with correlation := property.data.shown }
  | .userProperty =>
    match property.data.shown, property.value.shown with
    | some data, some value =>
      { self with userProperties := some ((self.userProperties.getD ∅).insert data value) }
    | _, _ => self
  | _ => self

def collected (properties : MQTTProperties) : PahoProperties := properties.foldl collect {}

/-- The value shown for a user key; `nil` shows none for every key, as an empty dictionary does. -/
def userValue (self : PahoProperties) (key : NSString) : Option NSString :=
  self.userProperties.bind (AList.lookup key)

theorem userValue_eq (self : PahoProperties) (key : NSString) :
    self.userValue key = (self.userProperties.getD ∅).lookup key := by
  rw [userValue]
  cases self.userProperties with
  | none => rfl
  | some userProperties => rfl

/-- Equality of the three properties, a `nil` user dictionary counting as an empty one. -/
structure Same (p q : PahoProperties) : Prop where
  responseTopic : p.responseTopic = q.responseTopic
  correlation : p.correlation = q.correlation
  userValue : ∀ key, p.userValue key = q.userValue key

theorem Same.refl (p : PahoProperties) : p.Same p := ⟨rfl, rfl, fun _ => rfl⟩

theorem Same.symm {p q : PahoProperties} (h : p.Same q) : q.Same p :=
  ⟨h.responseTopic.symm, h.correlation.symm, fun key => (h.userValue key).symm⟩

theorem Same.trans {p q r : PahoProperties} (h : p.Same q) (h' : q.Same r) : p.Same r :=
  ⟨h.responseTopic.trans h'.responseTopic, h.correlation.trans h'.correlation,
    fun key => (h.userValue key).trans (h'.userValue key)⟩

/-- One round of the decoder: it crashes, or adds what the property has to add. -/
theorem analysisProperty_eq_some {self result : PahoProperties} {property : MQTTProperty} :
    self.analysisProperty property = some result ↔
      ¬ property.Crashes ∧ self.collect property = result := by
  have hconvert : ∀ lenStr : MQTTLenString, nsStringFromMQTTLenString lenStr = none ∨
      nsStringFromMQTTLenString lenStr = some lenStr.shown := fun lenStr =>
    (em _).imp_right nsStringFromMQTTLenString_eq_shown
  unfold analysisProperty collect MQTTProperty.Crashes MQTTProperty.read
  split
  · rcases hconvert property.data with hdata | hdata <;> simp [hdata]
  · rcases hconvert property.data with hdata | hdata <;> simp [hdata]
  · rcases hconvert property.data with hdata | hdata
    · simp [hdata]
    · rcases hconvert property.value with hvalue | hvalue <;> simp [hdata, hvalue]
  · simp

theorem foldlM_analysisProperty {properties : MQTTProperties} {self result : PahoProperties} :
    properties.foldlM analysisProperty self = some result ↔
      (∀ p ∈ properties, ¬ p.Crashes) ∧ properties.foldl collect self = result := by
  induction properties generalizing self with
  | nil => simp
  | cons property properties ih =>
      rw [List.foldlM_cons, List.foldl_cons, List.forall_mem_cons]
      simp only [Option.bind_eq_bind, Option.bind_eq_some_iff, analysisProperty_eq_some, ih]
      constructor
      · rintro ⟨_, ⟨hproperty, rfl⟩, hrest, rfl⟩
        exact ⟨⟨hproperty, hrest⟩, rfl⟩
      · rintro ⟨⟨hproperty, hrest⟩, rfl⟩
        exact ⟨_, ⟨hproperty, rfl⟩, hrest, rfl⟩

/-- **The decoder.** It crashes on the first property it crashes on, and otherwise collects what the
properties have to add. -/
theorem initWithProperties_eq_some {properties : MQTTProperties} {result : PahoProperties} :
    initWithProperties properties = some result ↔
      (∀ p ∈ properties, ¬ p.Crashes) ∧ collected properties = result :=
  foldlM_analysisProperty

theorem initWithProperties_of_not_crashes {properties : MQTTProperties}
    (h : ∀ p ∈ properties, ¬ p.Crashes) : initWithProperties properties = some (collected properties) :=
  initWithProperties_eq_some.2 ⟨h, rfl⟩

/-- The last entry of a list with a given identifier. -/
def lastEntry (code : MQTTPropertyCode) (properties : MQTTProperties) : Option MQTTProperty :=
  (properties.filter fun property => property.identifier = code).getLast?

/-- The key and value a property adds to the user dictionary, if it adds one. -/
def userEntry (property : MQTTProperty) : Option (Σ _ : NSString, NSString) :=
  if property.identifier = .userProperty then
    property.data.shown.bind fun data =>
      property.value.shown.map fun value => ⟨data, value⟩
  else none

def userEntries (properties : MQTTProperties) : List (Σ _ : NSString, NSString) :=
  properties.filterMap userEntry

@[simp] theorem collected_nil : collected [] = {} := rfl

theorem collected_append_singleton (properties : MQTTProperties) (property : MQTTProperty) :
    collected (properties ++ [property]) =
      (collected properties).collect property := by
  rw [collected, List.foldl_append]
  rfl

theorem lastEntry_append_singleton (code : MQTTPropertyCode) (properties : MQTTProperties)
    (property : MQTTProperty) :
    lastEntry code (properties ++ [property]) =
      if property.identifier = code then some property else lastEntry code properties := by
  unfold lastEntry
  rw [List.filter_append]
  by_cases h : property.identifier = code <;> simp [h]

theorem mem_of_lastEntry {code : MQTTPropertyCode} {L : MQTTProperties} {p : MQTTProperty}
    (h : lastEntry code L = some p) : p ∈ L :=
  (List.mem_filter.1 (List.mem_of_getLast? h)).1

theorem identifier_of_lastEntry {code : MQTTPropertyCode} {L : MQTTProperties} {p : MQTTProperty}
    (h : lastEntry code L = some p) : p.identifier = code :=
  of_decide_eq_true (List.mem_filter.1 (List.mem_of_getLast? h)).2

/-- Lists related entry by entry have related last entries. -/
theorem lastEntry_rel {R : MQTTProperty → MQTTProperty → Prop}
    (hR : ∀ p q, R p q → p.identifier = q.identifier) (code : MQTTPropertyCode)
    {L L' : MQTTProperties} (h : List.Forall₂ R L L') :
    Option.Rel R (lastEntry code L) (lastEntry code L') := by
  have hfilter : List.Forall₂ R (L.filter fun p => p.identifier = code)
      (L'.filter fun p => p.identifier = code) :=
    List.rel_filter (fun p q hpq => by simp [hR p q hpq]) h
  unfold lastEntry
  rw [List.getLast?_eq_head?_reverse, List.getLast?_eq_head?_reverse]
  generalize hl : (L.filter fun p => p.identifier = code).reverse = l
  generalize hl' : (L'.filter fun p => p.identifier = code).reverse = l'
  have hrev : List.Forall₂ R l l' := by
    rw [← hl, ← hl', List.forall₂_reverse_iff]
    exact hfilter
  cases hrev with
  | nil => exact .none
  | cons hp _ => exact .some hp

theorem collect_responseTopic (self : PahoProperties) (property : MQTTProperty) :
    (self.collect property).responseTopic =
      if property.identifier = .responseTopic then property.data.shown
      else self.responseTopic := by
  unfold collect
  split <;> simp_all
  split <;> rfl

theorem collect_correlation (self : PahoProperties) (property : MQTTProperty) :
    (self.collect property).correlation =
      if property.identifier = .correlationData then property.data.shown
      else self.correlation := by
  unfold collect
  split <;> simp_all
  split <;> rfl

theorem collect_userProperties (self : PahoProperties) (property : MQTTProperty) :
    (self.collect property).userProperties =
      match userEntry property with
      | some e => some ((self.userProperties.getD ∅).insert e.1 e.2)
      | none => self.userProperties := by
  unfold collect userEntry
  split
  · next h => rw [if_neg (by simp [h])]
  · next h => rw [if_neg (by simp [h])]
  · next h =>
      rw [if_pos h]
      cases hdata : property.data.shown with
      | none => rfl
      | some data =>
          cases hvalue : property.value.shown with
          | none => rfl
          | some value => rfl
  · next _ _ h => rw [if_neg h]

theorem collected_responseTopic (properties : MQTTProperties) :
    (collected properties).responseTopic =
      (lastEntry .responseTopic properties).bind fun p => p.data.shown := by
  induction properties using List.reverseRecOn with
  | nil => rfl
  | append_singleton properties property ih =>
      rw [collected_append_singleton, collect_responseTopic,
        lastEntry_append_singleton, ih]
      split_ifs <;> rfl

theorem collected_correlation (properties : MQTTProperties) :
    (collected properties).correlation =
      (lastEntry .correlationData properties).bind fun p => p.data.shown := by
  induction properties using List.reverseRecOn with
  | nil => rfl
  | append_singleton properties property ih =>
      rw [collected_append_singleton, collect_correlation,
        lastEntry_append_singleton, ih]
      split_ifs <;> rfl

/-- The user dictionary is the decodable user entries inserted in order, `nil` if there are none. -/
theorem collected_userProperties (properties : MQTTProperties) :
    (collected properties).userProperties =
      if userEntries properties = [] then none
      else some ((userEntries properties).foldl (fun d e => d.insert e.1 e.2) ∅) := by
  induction properties using List.reverseRecOn with
  | nil => rfl
  | append_singleton properties property ih =>
      rw [collected_append_singleton, collect_userProperties, ih]
      have happend : userEntries (properties ++ [property]) =
          userEntries properties ++ (userEntry property).toList := by
        rw [userEntries, List.filterMap_append, ← userEntries]
        cases h : userEntry property with
        | none => rw [List.filterMap_cons_none h]; rfl
        | some e => rw [List.filterMap_cons_some h]; rfl
      rw [happend]
      cases userEntry property with
      | none => rw [Option.toList_none, List.append_nil]
      | some e =>
          have hne : userEntries properties ++ (some e).toList ≠ [] := by simp
          rw [if_neg hne]
          by_cases hes : userEntries properties = []
          · simp [hes]
          · simp [hes, List.foldl_append]

theorem collected_userValue (properties : MQTTProperties) (key : NSString) :
    (collected properties).userValue key = lastValue key (userEntries properties) := by
  rw [userValue, collected_userProperties]
  split_ifs with h
  · rw [h]
    rfl
  · rw [Option.bind_some, lookup_foldl_insert, AList.lookup_empty, Option.or_none]

end PahoProperties

end CocoaPaho
