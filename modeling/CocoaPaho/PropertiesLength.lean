import CocoaPaho.PahoProperties

/-!
What a decoded property list depends on. `MQTTProperties.h` promises strings delimited by their
length; the conversion compares the length with `strlen`, hence reads past the data. Two memories
are compared that agree on the data of every string and differ in what follows: the decoded
properties agree for all of them exactly when the list holds nothing to decode.
-/

namespace CocoaPaho

open Base

/-- Equal lengths and equal data; the bytes after the data may differ. -/
structure MQTTLenString.AgreeOnLen (a b : MQTTLenString) : Prop where
  len : a.len = b.len
  isNull : a.data = none ↔ b.data = none
  bytes : ∀ x y, a.data = some x → b.data = some y →
    readBytes x a.len.toNat = readBytes y b.len.toNat

structure MQTTProperty.AgreeOnLen (p q : MQTTProperty) : Prop where
  identifier : p.identifier = q.identifier
  data : p.data.AgreeOnLen q.data
  value : p.value.AgreeOnLen q.value

/-- One property list in two memories that agree on the data of its strings. -/
abbrev MQTTProperties.AgreeOnLen (L L' : MQTTProperties) : Prop :=
  List.Forall₂ MQTTProperty.AgreeOnLen L L'

theorem MQTTLenString.AgreeOnLen.text_eq {a b : MQTTLenString} (h : a.AgreeOnLen b) :
    a.text = b.text := by
  obtain ⟨len, data⟩ := a
  obtain ⟨len', data'⟩ := b
  cases data with
  | none =>
      have hnone : data' = none := h.isNull.1 rfl
      rw [MQTTLenString.text, MQTTLenString.text, hnone]
      rfl
  | some x =>
      cases data' with
      | none => exact absurd (h.isNull.2 rfl) (by simp)
      | some y => simp only [MQTTLenString.text, Option.bind_some, h.bytes x y rfl rfl]

/-- Whether a string is overlong shows in its data. -/
theorem MQTTLenString.AgreeOnLen.overlong {a b : MQTTLenString} (h : a.AgreeOnLen b)
    (ha : a.Overlong) : b.Overlong := by
  obtain ⟨hlen, x, hx, hzero⟩ := ha
  obtain ⟨y, hy⟩ : ∃ y, b.data = some y :=
    Option.ne_none_iff_exists'.1 fun hnone => by simp [h.isNull.2 hnone] at hx
  exact ⟨h.len ▸ hlen, y, hy, h.bytes x y hx hy ▸ hzero⟩

theorem MQTTLenString.AgreeOnLen.symm {a b : MQTTLenString} (h : a.AgreeOnLen b) :
    b.AgreeOnLen a :=
  ⟨h.len.symm, h.isNull.symm, fun y x hy hx => (h.bytes x y hx hy).symm⟩

theorem MQTTProperty.AgreeOnLen.overlong {p q : MQTTProperty} (h : p.AgreeOnLen q)
    (hp : p.Overlong) : q.Overlong := by
  have hread : List.Forall₂ MQTTLenString.AgreeOnLen p.read q.read := by
    unfold MQTTProperty.read
    rw [← h.identifier]
    split
    · exact .cons h.data .nil
    · exact .cons h.data .nil
    · exact .cons h.data (.cons h.value .nil)
    · exact .nil
  obtain ⟨a, ha, hlong⟩ := hp
  obtain ⟨i, hi, rfl⟩ := List.getElem_of_mem ha
  have hi' : i < q.read.length := hread.length_eq ▸ hi
  exact ⟨q.read[i], List.getElem_mem hi', (hread.get hi hi').overlong hlong⟩

theorem MQTTProperty.AgreeOnLen.symm {p q : MQTTProperty} (h : p.AgreeOnLen q) : q.AgreeOnLen p :=
  ⟨h.identifier.symm, h.data.symm, h.value.symm⟩

theorem MQTTProperties.AgreeOnLen.symm {L L' : MQTTProperties} (h : L.AgreeOnLen L') :
    L'.AgreeOnLen L :=
  h.flip.imp fun _ _ hpq => hpq.symm

/-- The string with a given byte right after its data. -/
def MQTTLenString.followedBy (b : UInt8) (a : MQTTLenString) : MQTTLenString :=
  { a with data := a.data.map fun data => readBytes data a.len.toNat ++ [b] }

def MQTTProperty.followedBy (b : UInt8) (p : MQTTProperty) : MQTTProperty :=
  { p with data := p.data.followedBy b, value := p.value.followedBy b }

theorem MQTTLenString.agreeOnLen_followedBy (b : UInt8) (a : MQTTLenString) :
    a.AgreeOnLen (a.followedBy b) where
  len := rfl
  isNull := by simp [followedBy]
  bytes := by
    rintro x y hx hy
    simp only [followedBy, hx, Option.map_some, Option.some.injEq] at hy
    rw [← hy]
    simpa [followedBy] using (readBytes_append_length (readBytes x a.len.toNat) [b]).symm

theorem MQTTProperty.agreeOnLen_followedBy (b : UInt8) (p : MQTTProperty) :
    p.AgreeOnLen (p.followedBy b) :=
  ⟨rfl, p.data.agreeOnLen_followedBy b, p.value.agreeOnLen_followedBy b⟩

theorem MQTTProperties.agreeOnLen_followedBy (b : UInt8) (L : MQTTProperties) :
    L.AgreeOnLen (L.map (MQTTProperty.followedBy b)) := by
  rw [MQTTProperties.AgreeOnLen, List.forall₂_map_right_iff, List.forall₂_same]
  exact fun p _ => p.agreeOnLen_followedBy b

theorem MQTTLenString.terminated_followedBy (b : UInt8) (a : MQTTLenString) :
    (a.followedBy b).Terminated ↔ b = 0 ∨ a.data = none := by
  obtain ⟨len, data⟩ := a
  cases data with
  | none => simp [Terminated, followedBy]
  | some data => simp [Terminated, followedBy, byteAt]

theorem MQTTLenString.shown_followedBy {b : UInt8} (hb : b ≠ 0) (a : MQTTLenString) :
    (a.followedBy b).shown = none := by
  rw [Option.eq_none_iff_forall_ne_some]
  intro string hstring
  obtain ⟨⟨hterm, htext⟩, -⟩ := MQTTLenString.shown_eq_some.1 hstring
  have hnull := ((a.terminated_followedBy b).1 hterm).resolve_left hb
  simp [MQTTLenString.followedBy, MQTTLenString.text, hnull] at htext

theorem MQTTProperty.read_followedBy (b : UInt8) (p : MQTTProperty) :
    (p.followedBy b).read = p.read.map (MQTTLenString.followedBy b) := by
  have hidentifier : (p.followedBy b).identifier = p.identifier := rfl
  unfold MQTTProperty.read
  rw [hidentifier]
  split <;> rfl

/-- Without a NUL behind its strings no property crashes the decoder. -/
theorem MQTTProperty.not_crashes_followedBy {b : UInt8} (hb : b ≠ 0) (p : MQTTProperty) :
    ¬ (p.followedBy b).Crashes := by
  rintro ⟨a, ha, hnone⟩
  rw [MQTTProperty.read_followedBy] at ha
  obtain ⟨a, -, rfl⟩ := List.mem_map.1 ha
  obtain ⟨⟨-, data, hdata, -⟩, hterm⟩ := nsStringFromMQTTLenString_eq_none.1 hnone
  have hnull := ((a.terminated_followedBy b).1 hterm).resolve_left hb
  simp [MQTTLenString.followedBy, hnull] at hdata

/-- With a NUL behind them, one with an overlong string does. -/
theorem MQTTProperty.Overlong.crashes_followedBy_zero {p : MQTTProperty} (h : p.Overlong) :
    (p.followedBy 0).Crashes := by
  obtain ⟨a, ha, hlong⟩ := h
  refine ⟨a.followedBy 0, ?_, nsStringFromMQTTLenString_eq_none.2
    ⟨(a.agreeOnLen_followedBy 0).overlong hlong, (a.terminated_followedBy 0).2 (Or.inl rfl)⟩⟩
  rw [MQTTProperty.read_followedBy]
  exact List.mem_map_of_mem ha

namespace PahoProperties

/-- Nothing of the list has a text: not its last response topic, not its last correlation data, and
no user property has one for both its name and its value; and no string the decoder reads is
overlong. -/
structure Illegible (L : MQTTProperties) : Prop where
  responseTopic : ∀ p, lastEntry .responseTopic L = some p → p.data.text = none
  correlation : ∀ p, lastEntry .correlationData L = some p → p.data.text = none
  userProperties : ∀ p ∈ L, p.identifier = .userProperty → p.data.text = none ∨ p.value.text = none
  not_overlong : ∀ p ∈ L, ¬ p.Overlong

theorem exists_agreeOnLen_of_mem {L L' : MQTTProperties} (h : L.AgreeOnLen L') {q : MQTTProperty}
    (hq : q ∈ L') : ∃ p ∈ L, p.AgreeOnLen q := by
  induction h with
  | nil => cases hq
  | cons hp _ ih =>
      rcases List.mem_cons.1 hq with rfl | hq
      · exact ⟨_, List.mem_cons_self, hp⟩
      · obtain ⟨p, hmem, hpq⟩ := ih hq
        exact ⟨p, List.mem_cons_of_mem _ hmem, hpq⟩

/-- Whether a list is legible shows in the data of its strings. -/
theorem Illegible.agreeOnLen {L L' : MQTTProperties} (hL : Illegible L) (h : L.AgreeOnLen L') :
    Illegible L' := by
  have hlast : ∀ code, (∀ p, lastEntry code L = some p → p.data.text = none) →
      ∀ q, lastEntry code L' = some q → q.data.text = none := by
    intro code hcode q hq
    have hrel := lastEntry_rel (fun _ _ hpq => hpq.identifier) code h
    rw [hq] at hrel
    cases hp : lastEntry code L with
    | none => rw [hp] at hrel; cases hrel
    | some p =>
        rw [hp] at hrel
        cases hrel with
        | some hpq => rw [← hpq.data.text_eq, hcode p hp]
  refine ⟨hlast _ hL.responseTopic, hlast _ hL.correlation, fun q hq hid => ?_, fun q hq hlong => ?_⟩
  · obtain ⟨p, hp, hpq⟩ := exists_agreeOnLen_of_mem h hq
    rw [← hpq.data.text_eq, ← hpq.value.text_eq]
    exact hL.userProperties p hp (hpq.identifier.trans hid)
  · obtain ⟨p, hp, hpq⟩ := exists_agreeOnLen_of_mem h hq
    exact hL.not_overlong p hp (hpq.symm.overlong hlong)

theorem userEntry_eq_none_iff (p : MQTTProperty) :
    userEntry p = none ↔
      (p.identifier = .userProperty → p.data.shown = none ∨ p.value.shown = none) := by
  unfold userEntry
  split_ifs with hid
  · cases p.data.shown <;> simp [hid]
  · simp [hid]

/-- When nothing is collected. -/
theorem collected_same_empty_iff (L : MQTTProperties) :
    (collected L).Same {} ↔
      (∀ p, lastEntry .responseTopic L = some p → p.data.shown = none) ∧
      (∀ p, lastEntry .correlationData L = some p → p.data.shown = none) ∧
      ∀ p ∈ L, userEntry p = none := by
  have huser : (∀ key, (collected L).userValue key = none) ↔ userEntries L = [] := by
    simp only [collected_userValue, lastValue_eq_none_iff]
    refine ⟨fun h => List.eq_nil_iff_forall_not_mem.2 fun e he => h e.1 e he rfl, fun h => ?_⟩
    simp [h]
  rw [userEntries, List.filterMap_eq_nil_iff] at huser
  rw [← huser, ← Option.bind_eq_none_iff, ← Option.bind_eq_none_iff,
    ← collected_responseTopic, ← collected_correlation]
  exact ⟨fun h => ⟨h.responseTopic, h.correlation, h.userValue⟩, fun h => ⟨h.1, h.2.1, h.2.2⟩⟩

theorem shown_of_text_eq_none {a : MQTTLenString} (h : a.text = none) : a.shown = none := by
  rw [Option.eq_none_iff_forall_ne_some]
  intro string hstring
  rw [(MQTTLenString.shown_eq_some.1 hstring).1.2] at h
  cases h

/-- From an illegible list nothing is decoded, wherever NULs happen to lie. -/
theorem Illegible.initWithProperties_same {L : MQTTProperties} (hL : Illegible L) :
    ∃ result, initWithProperties L = some result ∧ result.Same {} := by
  refine ⟨_, initWithProperties_of_not_crashes fun p hp hcrash => hL.not_overlong p hp hcrash.overlong,
    (collected_same_empty_iff L).2 ⟨fun p hp => ?_, fun p hp => ?_, fun p hp => ?_⟩⟩
  · exact shown_of_text_eq_none (hL.responseTopic p hp)
  · exact shown_of_text_eq_none (hL.correlation p hp)
  · exact (userEntry_eq_none_iff p).2 fun hid =>
      (hL.userProperties p hp hid).imp shown_of_text_eq_none shown_of_text_eq_none

/-- With no NUL behind any string nothing is decoded. -/
theorem initWithProperties_followedBy_same {b : UInt8} (hb : b ≠ 0) (L : MQTTProperties) :
    ∃ result, initWithProperties (L.map (MQTTProperty.followedBy b)) = some result ∧
      result.Same {} := by
  have hcrash : ∀ p ∈ L.map (MQTTProperty.followedBy b), ¬ p.Crashes := by
    intro p hp
    obtain ⟨p, -, rfl⟩ := List.mem_map.1 hp
    exact p.not_crashes_followedBy hb
  have hnone : ∀ p ∈ L.map (MQTTProperty.followedBy b), p.data.shown = none := by
    intro p hp
    obtain ⟨p, -, rfl⟩ := List.mem_map.1 hp
    exact p.data.shown_followedBy hb
  refine ⟨_, initWithProperties_of_not_crashes hcrash,
    (collected_same_empty_iff _).2 ⟨fun p hp => ?_, fun p hp => ?_, fun p hp => ?_⟩⟩
  · exact hnone p (mem_of_lastEntry hp)
  · exact hnone p (mem_of_lastEntry hp)
  · exact (userEntry_eq_none_iff p).2 fun _ => Or.inl (hnone p hp)

/-- With a NUL behind every string, only from an illegible list nothing is decoded. -/
theorem illegible_of_followedBy_zero {L : MQTTProperties} {result : PahoProperties}
    (hresult : initWithProperties (L.map (MQTTProperty.followedBy 0)) = some result)
    (h : result.Same {}) : Illegible L := by
  obtain ⟨hcrash, rfl⟩ := initWithProperties_eq_some.1 hresult
  have hlong : ∀ p ∈ L, ¬ p.Overlong := fun p hp hp' =>
    hcrash _ (List.mem_map_of_mem hp) hp'.crashes_followedBy_zero
  have htext : ∀ q ∈ L.map (MQTTProperty.followedBy 0), ∀ a ∈ q.read,
      a.shown = none → a.text = none := by
    intro q hq a ha hnone
    obtain ⟨p, hp, rfl⟩ := List.mem_map.1 hq
    rw [MQTTProperty.read_followedBy] at ha
    obtain ⟨a, hread, rfl⟩ := List.mem_map.1 ha
    have hterminated := (a.terminated_followedBy 0).2 (Or.inl rfl)
    rwa [MQTTLenString.shown_of_terminated hterminated fun ha' =>
      hlong p hp ⟨a, hread, (a.agreeOnLen_followedBy 0).symm.overlong ha'⟩] at hnone
  obtain ⟨htopic, hcorrelation, huser⟩ := (collected_same_empty_iff _).1 h
  refine Illegible.agreeOnLen
    ⟨fun q hq => ?_, fun q hq => ?_, fun q hq hid => ?_, fun q hq hlong' => ?_⟩
    (L.agreeOnLen_followedBy 0).symm
  · exact htext q (mem_of_lastEntry hq) _ (by simp [MQTTProperty.read, identifier_of_lastEntry hq])
      (htopic q hq)
  · exact htext q (mem_of_lastEntry hq) _ (by simp [MQTTProperty.read, identifier_of_lastEntry hq])
      (hcorrelation q hq)
  · exact ((userEntry_eq_none_iff q).1 (huser q hq) hid).imp
      (htext q hq _ (by simp [MQTTProperty.read, hid]))
      (htext q hq _ (by simp [MQTTProperty.read, hid]))
  · obtain ⟨p, hp, rfl⟩ := List.mem_map.1 hq
    exact hlong p hp ((p.agreeOnLen_followedBy 0).symm.overlong hlong')

/-- **What is decoded depends on the bytes behind the strings.** The outcome of decoding is the same
in every memory that agrees on the data of the list's strings exactly when the list is illegible. -/
theorem initWithProperties_agree_iff_illegible (L : MQTTProperties) :
    (∀ L' : MQTTProperties, L.AgreeOnLen L' →
      Option.Rel Same (initWithProperties L) (initWithProperties L')) ↔ Illegible L := by
  constructor
  · intro h
    have hnul := h _ (L.agreeOnLen_followedBy 0)
    have hother := h _ (L.agreeOnLen_followedBy 1)
    obtain ⟨empty, hempty, hsame⟩ :=
      initWithProperties_followedBy_same (by decide : (1 : UInt8) ≠ 0) L
    rw [hempty] at hother
    cases hL : initWithProperties L with
    | none =>
        rw [hL] at hother
        cases hother
    | some result =>
        rw [hL] at hnul hother
        cases hresult : initWithProperties (L.map (MQTTProperty.followedBy 0)) with
        | none =>
            rw [hresult] at hnul
            cases hnul
        | some result' =>
            rw [hresult] at hnul
            cases hnul with
            | some hnul =>
                cases hother with
                | some hother =>
                    exact illegible_of_followedBy_zero hresult
                      (hnul.symm.trans (hother.trans hsame))
  · intro hL L' hagree
    obtain ⟨result, hresult, hsame⟩ := hL.initWithProperties_same
    obtain ⟨result', hresult', hsame'⟩ := (hL.agreeOnLen hagree).initWithProperties_same
    rw [hresult, hresult']
    exact .some (hsame.trans hsame'.symm)

/-- The response topic `a` is decoded with a NUL behind it, and lost with a `b` there. -/
theorem initWithProperties_reads_past_len :
    ¬ ∀ L L' : MQTTProperties, L.AgreeOnLen L' →
      Option.Rel Same (initWithProperties L) (initWithProperties L') := by
  intro h
  have hagree : MQTTLenString.AgreeOnLen ⟨1, some [97, 0]⟩ ⟨1, some [97, 98]⟩ :=
    ⟨rfl, by simp, by rintro _ _ ⟨⟩ ⟨⟩; rfl⟩
  have hsame := h [⟨.responseTopic, ⟨1, some [97, 0]⟩, ⟨0, none⟩⟩]
    [⟨.responseTopic, ⟨1, some [97, 98]⟩, ⟨0, none⟩⟩]
    (.cons ⟨rfl, hagree, ⟨rfl, by simp, by simp⟩⟩ .nil)
  have hdecoded : nsStringFromMQTTLenString ⟨1, some [97, 0]⟩ = some (some "a") := by
    have htext : MQTTLenString.text ⟨1, some [97, 0]⟩ = some "a" :=
      MQTTLenString.text_eq_some.2 ⟨⟨_, rfl, by decide⟩, by decide⟩
    rw [nsStringFromMQTTLenString_of_strlen (by decide) (by decide), if_neg (by decide), htext]
  have hlost : nsStringFromMQTTLenString ⟨1, some [97, 98]⟩ = some none := rfl
  have hkept : initWithProperties [⟨.responseTopic, ⟨1, some [97, 0]⟩, ⟨0, none⟩⟩] =
      some { responseTopic := some "a" } := by
    simp [initWithProperties, analysisProperty, hdecoded]
  have hnothing : initWithProperties [⟨.responseTopic, ⟨1, some [97, 98]⟩, ⟨0, none⟩⟩] =
      some { responseTopic := none } := by
    simp [initWithProperties, analysisProperty, hlost]
  rw [hkept, hnothing] at hsame
  cases hsame with
  | some hsame => cases hsame.responseTopic

end PahoProperties

end CocoaPaho
