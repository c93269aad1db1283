import Mathlib.Data.String.Basic
import CocoaPaho.NSJSONSerialization
import CocoaPaho.ClientRequests

/-!
Payloads of published messages. A dictionary is written as a text that does not depend on the order in
which dictionaries enumerate their entries, that no other dictionary shares, and in which no NUL
occurs, so that the message carries it whole.
-/

namespace CocoaPaho

open Base

namespace JSONWriting

variable {ν : Type} {W : JSONWriting ν}

/-- The characters of a number. -/
def isNumberChar (c : Char) : Bool := c.isDigit || c ∈ ['-', '+', '.', 'e', 'E']

/-- What is known of the system's numbers and keys: different numbers are written differently, as
JSON numbers, and keys are sorted in a linear order. -/
structure Lawful (W : JSONWriting ν) : Prop where
  number_chars : ∀ n, ∀ c ∈ W.numberText n, isNumberChar c = true
  number_ne_nil : ∀ n, W.numberText n ≠ []
  number_injective : Function.Injective W.numberText
  keys_total : ∀ key key', W.keyLE key key' = true ∨ W.keyLE key' key = true
  keys_trans : ∀ key key' key'', W.keyLE key key' = true → W.keyLE key' key'' = true →
    W.keyLE key key'' = true
  keys_antisymm : ∀ key key', W.keyLE key key' = true → W.keyLE key' key = true → key = key'

/-- An integer in decimal digits. -/
def integerText (n : ℤ) : List Char :=
  if n < 0 then '-' :: Nat.toDigits 10 n.natAbs else Nat.toDigits 10 n.natAbs

/-- Payloads whose numbers are integers, with the keys in lexicographic order. -/
def integers : JSONWriting ℤ where
  numberText := integerText
  keyLE key key' := key ≤ key'

theorem mem_integerText {n : ℤ} {c : Char} (h : c ∈ integerText n) : c = '-' ∨ c.isDigit = true := by
  unfold integerText at h
  split_ifs at h
  · rcases List.mem_cons.1 h with h | h
    · exact Or.inl h
    · exact Or.inr (Nat.isDigit_of_mem_toDigits (by decide) (by decide) h)
  · exact Or.inr (Nat.isDigit_of_mem_toDigits (by decide) (by decide) h)

theorem integerText_injective : Function.Injective integerText := by
  have hdigits : ∀ {m k : ℕ}, Nat.toDigits 10 m = Nat.toDigits 10 k → m = k := by
    intro m k h
    have hm : Nat.ofDigitChars 10 (Nat.toDigits 10 m) 0 = m := Nat.ofDigitChars_ten_toDigits
    rw [h, Nat.ofDigitChars_ten_toDigits] at hm
    exact hm.symm
  have hminus : ∀ {m : ℕ} {l : List Char}, '-' :: l ≠ Nat.toDigits 10 m := by
    intro m l h
    have hdigit : ('-' : Char).isDigit = true :=
      Nat.isDigit_of_mem_toDigits (by decide) (by decide) (h ▸ List.mem_cons_self)
    cases hdigit
  intro n n' h
  unfold integerText at h
  split_ifs at h
  · have habs := hdigits (List.cons.inj h).2
    omega
  · exact absurd h hminus
  · exact absurd h.symm hminus
  · have habs := hdigits h
    omega

theorem integers_lawful : integers.Lawful where
  number_chars := fun n c hc => by
    rcases mem_integerText hc with rfl | hdigit
    · decide
    · rw [isNumberChar, hdigit]
      rfl
  number_ne_nil := fun n h => by
    have htext : integerText n = [] := h
    unfold integerText at htext
    split_ifs at htext
    exact Nat.toDigits_ne_nil htext
  number_injective := integerText_injective
  keys_total := fun key key' => by simpa [integers] using le_total key key'
  keys_trans := fun key key' key'' => by simpa [integers] using le_trans
  keys_antisymm := fun key key' => by simpa [integers] using le_antisymm

def hexVal (c : Char) : ℕ := if c.toNat < 58 then c.toNat - 48 else c.toNat - 87

/-- The character that an escape sequence, or a character that needs none, stands for. -/
def unescape : List Char → Option (Char × List Char)
  | [] => none
  | c :: rest =>
    if c ≠ solidus then some (c, rest)
    else match rest with
    | 'b' :: rest => some (Char.ofNat 8, rest)
    | 'f' :: rest => some (Char.ofNat 12, rest)
    | 'n' :: rest => some (Char.ofNat 10, rest)
    | 'r' :: rest => some (Char.ofNat 13, rest)
    | 't' :: rest => some (Char.ofNat 9, rest)
    | 'u' :: _ :: _ :: high :: low :: rest =>
        some (Char.ofNat (16 * hexVal high + hexVal low), rest)
    | c :: rest => some (c, rest)
    | [] => none

theorem hexVal_hexDigit : ∀ n < 16, hexVal (hexDigit n) = n := by decide

/-- What stands after a reverse solidus is read back as the character it was put for. -/
theorem shortName_eq_some {c name : Char} (h : shortName c = some name) (rest : List Char) :
    unescape (solidus :: name :: rest) = some (c, rest) ∧ name ≠ nulChar := by
  have hof : ∀ {n : ℕ}, c.toNat = n → Char.ofNat n = c := by
    rintro n rfl
    exact Char.ofNat_toNat c
  unfold shortName at h
  split at h
  case h_9 => cases h
  all_goals
    rename_i hc
    cases h
    rw [← hof hc]
    exact ⟨rfl, by decide⟩

theorem ne_of_shortName_eq_none {c : Char} (h : shortName c = none) : c ≠ solidus ∧ c ≠ quote := by
  constructor
  · rintro rfl
    cases h
  · rintro rfl
    cases h

theorem unescape_escaped (c : Char) (rest : List Char) :
    unescape (escaped c ++ rest) = some (c, rest) := by
  unfold escaped
  cases hname : shortName c with
  | some name => exact (shortName_eq_some hname rest).1
  | none =>
      dsimp only
      split_ifs with hcontrol
      · show some (Char.ofNat (16 * hexVal (hexDigit (c.toNat / 16)) +
          hexVal (hexDigit (c.toNat % 16))), rest) = some (c, rest)
        rw [hexVal_hexDigit _ (by omega), hexVal_hexDigit _ (by omega), Nat.div_add_mod,
          Char.ofNat_toNat]
      · show (if c ≠ solidus then some (c, rest) else _) = some (c, rest)
        rw [if_pos (ne_of_shortName_eq_none hname).1]

theorem beginsOther_escaped (c : Char) : BeginsOther quote (escaped c) := by
  have hsolidus : solidus ≠ quote := by decide
  unfold escaped
  cases hname : shortName c with
  | some name => exact ⟨solidus, _, rfl, hsolidus⟩
  | none =>
      dsimp only
      split_ifs with hcontrol
      · exact ⟨solidus, _, rfl, hsolidus⟩
      · exact ⟨c, [], rfl, (ne_of_shortName_eq_none hname).2⟩

/-- A string ends with the quotation mark that is not escaped. -/
theorem splits_stringText (stop : Char → Prop) (s s' : NSString) :
    Splits stop (stringText s) (stringText s') (s = s') := by
  have hbody : Splits stop (s.toList.flatMap escaped ++ [quote]) (s'.toList.flatMap escaped ++ [quote])
      (s.toList = s'.toList) :=
    splits_flatMap (splits_of_reader unescape_escaped) beginsOther_escaped s.toList s'.toList
  exact (hbody.imp String.toList_inj.1).cons quote

theorem hexDigit_ne_nul : ∀ n < 16, hexDigit n ≠ nulChar := by decide

theorem nul_not_mem_escaped (c : Char) : nulChar ∉ escaped c := by
  have hsolidus : nulChar ≠ solidus := by decide
  unfold escaped
  cases hname : shortName c with
  | some name =>
      have hne := (shortName_eq_some hname []).2.symm
      simp [hsolidus, hne]
  | none =>
      dsimp only
      split_ifs with hcontrol
      · have hhigh := (hexDigit_ne_nul (c.toNat / 16) (by omega)).symm
        have hlow := (hexDigit_ne_nul (c.toNat % 16) (by omega)).symm
        have hletters : nulChar ≠ 'u' ∧ nulChar ≠ '0' := by decide
        simp [hsolidus, hletters, hhigh, hlow]
      · rw [List.mem_singleton]
        rintro rfl
        exact hcontrol (by decide)

theorem nul_not_mem_stringText (s : NSString) : nulChar ∉ stringText s := by
  have hquote : nulChar ≠ quote := by decide
  simp only [stringText, List.mem_cons, List.mem_append, List.mem_flatMap, List.not_mem_nil,
    or_false, hquote, false_or, not_exists, not_and]
  exact fun c _ => nul_not_mem_escaped c

end JSONWriting

inductive JSONKind where
  | null
  | bool
  | number
  | string
  | array
  | dictionary

def JSONValue.kind {ν : Type} : JSONValue ν → JSONKind
  | null => .null
  | bool _ => .bool
  | number _ => .number
  | string _ => .string
  | array _ => .array
  | dictionary _ => .dictionary

namespace JSONWriting

variable {ν : Type} {W : JSONWriting ν}

/-- The kind of value a text begins, seen from its first character. -/
def leadKind (c : Char) : Option JSONKind :=
  if isNumberChar c then some .number
  else if c = 'n' then some .null
  else if c = 't' ∨ c = 'f' then some .bool
  else if c = quote then some .string
  else if c = '[' then some .array
  else if c = '{' then some .dictionary
  else none

theorem head_text (hW : W.Lawful) (value : JSONValue ν) :
    ∃ c rest, W.text value = c :: rest ∧ leadKind c = some value.kind := by
  cases value with
  | null => exact ⟨_, _, rfl, by rfl⟩
  | bool b => cases b <;> exact ⟨_, _, rfl, by rfl⟩
  | number n =>
      obtain ⟨c, rest, htext⟩ := List.exists_cons_of_ne_nil (hW.number_ne_nil n)
      have hc := hW.number_chars n c (htext ▸ List.mem_cons_self)
      exact ⟨c, rest, htext, by rw [leadKind, if_pos hc]; rfl⟩
  | string s => exact ⟨_, _, rfl, by rfl⟩
  | array values => exact ⟨_, _, rfl, by rfl⟩
  | dictionary entries => exact ⟨_, _, rfl, by rfl⟩

/-- What may follow a value within a larger one. -/
def ValueStop (c : Char) : Prop := c = ',' ∨ c = ']' ∨ c = '}'

theorem valueStop_comma : ValueStop ',' := Or.inl rfl

theorem valueStop_bracket : ValueStop ']' := Or.inr (Or.inl rfl)

theorem valueStop_brace : ValueStop '}' := Or.inr (Or.inr rfl)

theorem ValueStop.leadKind_eq {c : Char} (hc : ValueStop c) : leadKind c = none := by
  rcases hc with rfl | rfl | rfl <;> rfl

theorem beginsOther_text (hW : W.Lawful) (value : JSONValue ν) {c : Char} (hc : ValueStop c) :
    BeginsOther c (W.text value) := by
  obtain ⟨d, rest, htext, hd⟩ := head_text hW value
  refine ⟨d, rest, htext, ?_⟩
  rintro rfl
  rw [hc.leadKind_eq] at hd
  cases hd

theorem splits_of_kind_ne (hW : W.Lawful) {stop : Char → Prop} {value value' : JSONValue ν}
    {P : Prop} (h : value.kind ≠ value'.kind) : Splits stop (W.text value) (W.text value') P := by
  obtain ⟨c, rest, htext, hc⟩ := head_text hW value
  obtain ⟨c', rest', htext', hc'⟩ := head_text hW value'
  rw [htext, htext']
  refine splits_of_head_ne ?_
  rintro rfl
  exact h (Option.some.inj (hc.symm.trans hc'))

def sortedEntries (W : JSONWriting ν) (entries : List (NSString × JSONValue ν)) :
    List (NSString × JSONValue ν) :=
  entries.insertionSort fun entry entry' => W.keyLE entry.1 entry'.1 = true

theorem mem_sortedEntries {entries : List (NSString × JSONValue ν)} {entry : NSString × JSONValue ν} :
    entry ∈ W.sortedEntries entries ↔ entry ∈ entries := List.mem_insertionSort _

/-- The text of an entry. -/
def entryText (W : JSONWriting ν) (entry : NSString × JSONValue ν) : List Char :=
  memberText (entry.1, W.text entry.2)

theorem text_dictionary (W : JSONWriting ν) (entries : List (NSString × JSONValue ν)) :
    W.text (.dictionary entries) =
      '{' :: ([','].intercalate ((W.sortedEntries entries).map W.entryText) ++ ['}']) := by
  have hsorted : W.sortedMembers (W.members entries) =
      (W.sortedEntries entries).map fun entry => (entry.1, W.text entry.2) := by
    rw [members_eq, sortedMembers, sortedEntries]
    exact (List.map_insertionSort
      (fun entry entry' : NSString × JSONValue ν => W.keyLE entry.1 entry'.1 = true)
      (fun entry entry' : NSString × List Char => W.keyLE entry.1 entry'.1 = true)
      (fun entry => (entry.1, W.text entry.2)) entries fun _ _ _ _ => Iff.rfl).symm
  rw [text, hsorted, List.map_map]
  rfl

/-- Lists of entries with distinct keys that are equal up to their order are sorted alike. -/
theorem sortedMembers_eq_of_perm (hW : W.Lawful) {members members' : List (NSString × List Char)}
    (hkeys : (members.map Prod.fst).Nodup) (h : members.Perm members') :
    W.sortedMembers members = W.sortedMembers members' := by
  have htotal : Std.Total fun entry entry' : NSString × List Char =>
      W.keyLE entry.1 entry'.1 = true := ⟨fun a b => hW.keys_total a.1 b.1⟩
  have htrans : IsTrans (NSString × List Char) fun entry entry' =>
      W.keyLE entry.1 entry'.1 = true := ⟨fun a b c => hW.keys_trans a.1 b.1 c.1⟩
  have hperm : (W.sortedMembers members).Perm (W.sortedMembers members') :=
    (List.perm_insertionSort _ _).trans (h.trans (List.perm_insertionSort _ _).symm)
  refine List.Perm.eq_of_pairwise (fun a b ha hb hab hba => ?_)
    (List.pairwise_insertionSort _ members) (List.pairwise_insertionSort _ members') hperm
  have ha' : a ∈ members := (List.mem_insertionSort _).1 ha
  have hb' : b ∈ members := h.mem_iff.2 ((List.mem_insertionSort _).1 hb)
  exact List.inj_on_of_nodup_map hkeys ha' hb' (hW.keys_antisymm _ _ hab hba)

theorem members_keys (W : JSONWriting ν) (entries : List (NSString × JSONValue ν)) :
    (W.members entries).map Prod.fst = entries.map Prod.fst := by
  rw [members_eq, List.map_map]
  rfl

/-- Dictionaries with the same keys, and under each key values that are written alike, have the same
members. -/
theorem members_perm {entries entries' : List (NSString × JSONValue ν)}
    (hnodup : (entries.map Prod.fst).Nodup) (hnodup' : (entries'.map Prod.fst).Nodup)
    (hkeys : ∀ key, key ∈ entries.map Prod.fst ↔ key ∈ entries'.map Prod.fst)
    (h : ∀ entry ∈ entries, ∀ entry' ∈ entries', entry.1 = entry'.1 →
      W.text entry.2 = W.text entry'.2) : (W.members entries).Perm (W.members entries') := by
  rw [List.perm_ext_iff_of_nodup (List.Nodup.of_map Prod.fst (by rwa [members_keys]))
    (List.Nodup.of_map Prod.fst (by rwa [members_keys]))]
  rintro ⟨key, t⟩
  simp only [members_eq, List.mem_map, Prod.mk.injEq]
  constructor
  · rintro ⟨entry, hentry, rfl, rfl⟩
    obtain ⟨entry', hentry', heq⟩ := List.mem_map.1 ((hkeys _).1 (List.mem_map_of_mem hentry))
    exact ⟨entry', hentry', heq, (h entry hentry entry' hentry' heq.symm).symm⟩
  · rintro ⟨entry', hentry', rfl, rfl⟩
    obtain ⟨entry, hentry, heq⟩ := List.mem_map.1 ((hkeys _).2 (List.mem_map_of_mem hentry'))
    exact ⟨entry, hentry, heq, h entry hentry entry' hentry' heq⟩

/-- **Equal dictionaries are written alike**, in whatever order they enumerate their entries. -/
theorem text_eq_of_same (hW : W.Lawful) {value value' : JSONValue ν} (h : value.Same value')
    (hvalue : value.WellFormed) (hvalue' : value'.WellFormed) : W.text value = W.text value' := by
  induction h with
  | null => rfl
  | bool b => rfl
  | number n => rfl
  | string s => rfl
  | @array values values' hlength _ ih =>
      cases hvalue with
      | array hvalues =>
        cases hvalue' with
        | array hvalues' =>
          have htexts : values.map W.text = values'.map W.text := by
            rw [← List.forall₂_eq_eq_eq, List.forall₂_map_left_iff, List.forall₂_map_right_iff,
              List.forall₂_iff_zip]
            exact ⟨hlength, fun hmem => ih _ hmem (hvalues _ (List.of_mem_zip hmem).1)
              (hvalues' _ (List.of_mem_zip hmem).2)⟩
          rw [text, text, texts_eq, texts_eq, htexts]
  | @dictionary entries entries' hkeys _ ih =>
      cases hvalue with
      | dictionary hnodup hentries =>
        cases hvalue' with
        | dictionary hnodup' hentries' =>
          have hperm : (W.members entries).Perm (W.members entries') :=
            members_perm hnodup hnodup' hkeys fun entry hentry entry' hentry' heq =>
              ih entry hentry entry' hentry' heq (hentries entry hentry) (hentries' entry' hentry')
          rw [text, text, sortedMembers_eq_of_perm hW (by rwa [members_keys]) hperm]

theorem splits_of_kind (hW : W.Lawful) {stop : Char → Prop} {value value' : JSONValue ν} {P : Prop}
    (h : value.kind = value'.kind → Splits stop (W.text value) (W.text value') P) :
    Splits stop (W.text value) (W.text value') P := by
  by_cases hkind : value.kind = value'.kind
  · exact h hkind
  · exact splits_of_kind_ne hW hkind

theorem beginsOther_entryText (entry : NSString × JSONValue ν) :
    BeginsOther '}' (W.entryText entry) := ⟨quote, _, rfl, by decide⟩

/-- Entries in one order, with the same keys and under each key the same, are the same. -/
theorem same_dictionary_of_sorted {entries entries' : List (NSString × JSONValue ν)}
    (hkeys' : (entries'.map Prod.fst).Nodup)
    (h : List.Forall₂ (fun entry entry' => entry.1 = entry'.1 ∧ entry.2.Same entry'.2)
      (W.sortedEntries entries) (W.sortedEntries entries')) :
    (JSONValue.dictionary entries).Same (.dictionary entries') := by
  have hfst : (W.sortedEntries entries).map Prod.fst = (W.sortedEntries entries').map Prod.fst := by
    rw [← List.forall₂_eq_eq_eq, List.forall₂_map_left_iff, List.forall₂_map_right_iff]
    exact h.imp fun _ _ hentry => hentry.1
  have hmap : ∀ (es : List (NSString × JSONValue ν)) (key : NSString),
      key ∈ (W.sortedEntries es).map Prod.fst ↔ key ∈ es.map Prod.fst := by
    intro es key
    simp only [List.mem_map, mem_sortedEntries]
  refine .dictionary (fun key => ?_) fun entry hentry entry' hentry' heq => ?_
  · rw [← hmap, hfst, hmap]
  · obtain ⟨i, hi, rfl⟩ := List.getElem_of_mem (mem_sortedEntries (W := W).2 hentry)
    have hi' : i < (W.sortedEntries entries').length := h.length_eq ▸ hi
    obtain ⟨hkey, hsame⟩ := h.get hi hi'
    have hmem := mem_sortedEntries.1 (List.getElem_mem hi')
    have hunique : (W.sortedEntries entries')[i] = entry' :=
      List.inj_on_of_nodup_map hkeys' hmem hentry' (hkey.symm.trans heq)
    rw [← hunique]
    exact hsame

theorem splits_number (hW : W.Lawful) (n n' : ν) :
    Splits ValueStop (W.text (.number n)) (W.text (.number n'))
      ((JSONValue.number n).Same (.number n')) := by
  have hchars : ∀ m, ∀ c ∈ W.numberText m, ¬ ValueStop c := by
    intro m c hc hstop
    have hlead := hstop.leadKind_eq
    rw [leadKind, if_pos (hW.number_chars m c hc)] at hlead
    cases hlead
  refine (splits_of_no_stop (hchars n) (hchars n')).imp fun htext => ?_
  rw [hW.number_injective htext]
  exact .number n'

/-- Arrays are told apart when their elements are. -/
theorem splits_array (hW : W.Lawful) {values values' : List (JSONValue ν)}
    (h : ∀ v ∈ values, ∀ v' ∈ values', Splits ValueStop (W.text v) (W.text v') (v.Same v')) :
    Splits ValueStop (W.text (.array values)) (W.text (.array values'))
      ((JSONValue.array values).Same (.array values')) := by
  rw [text, text, texts_eq, texts_eq]
  have hlist : Splits ValueStop ([','].intercalate (values.map W.text) ++ [']'])
      ([','].intercalate (values'.map W.text) ++ [']'])
      (List.Forall₂ JSONValue.Same values values') :=
    splits_intercalate valueStop_comma valueStop_bracket (by decide) h
      (fun v _ => beginsOther_text hW v valueStop_bracket)
      fun v' _ => beginsOther_text hW v' valueStop_bracket
  refine (hlist.imp fun hsame => ?_).cons '['
  obtain ⟨hlength, hzip⟩ := List.forall₂_iff_zip.1 hsame
  exact .array hlength fun p hp => hzip hp

/-- Dictionaries are told apart when their values are. -/
theorem splits_dictionary {entries entries' : List (NSString × JSONValue ν)}
    (hkeys' : (entries'.map Prod.fst).Nodup)
    (h : ∀ entry ∈ entries, ∀ entry' ∈ entries',
      Splits ValueStop (W.text entry.2) (W.text entry'.2) (entry.2.Same entry'.2)) :
    Splits ValueStop (W.text (.dictionary entries)) (W.text (.dictionary entries'))
      ((JSONValue.dictionary entries).Same (.dictionary entries')) := by
  rw [text_dictionary, text_dictionary]
  have hentry : ∀ entry ∈ W.sortedEntries entries, ∀ entry' ∈ W.sortedEntries entries',
      Splits ValueStop (W.entryText entry) (W.entryText entry')
        (entry.1 = entry'.1 ∧ entry.2.Same entry'.2) := by
    intro entry hmem entry' hmem'
    exact (splits_stringText _ _ _).append
      ((h entry (mem_sortedEntries.1 hmem) entry' (mem_sortedEntries.1 hmem')).cons ':')
  have hlist : Splits ValueStop
      ([','].intercalate ((W.sortedEntries entries).map W.entryText) ++ ['}'])
      ([','].intercalate ((W.sortedEntries entries').map W.entryText) ++ ['}'])
      (List.Forall₂ (fun entry entry' => entry.1 = entry'.1 ∧ entry.2.Same entry'.2)
        (W.sortedEntries entries) (W.sortedEntries entries')) :=
    splits_intercalate valueStop_comma valueStop_brace (by decide) hentry
      (fun entry _ => beginsOther_entryText entry)
      fun entry' _ => beginsOther_entryText entry'
  exact (hlist.imp fun hsame => same_dictionary_of_sorted hkeys' hsame).cons '{'

/-- **A text is written for one value only.** Two values whose texts begin the same longer text are
the same, and their texts end at the same place. -/
theorem splits_text (hW : W.Lawful) (value : JSONValue ν) :
    ∀ value', value.WellFormed → value'.WellFormed →
      Splits ValueStop (W.text value) (W.text value') (value.Same value') := by
  induction value using JSONValue.induction with
  | null =>
      intro value' _ _
      refine splits_of_kind hW fun hkind => ?_
      cases value' with
      | null => exact splits_self .null
      | _ => cases hkind
  | bool b =>
      intro value' _ _
      refine splits_of_kind hW fun hkind => ?_
      cases value' with
      | bool b' =>
          cases b <;> cases b'
          · exact splits_self (.bool false)
          · exact splits_of_head_ne (by decide)
          · exact splits_of_head_ne (by decide)
          · exact splits_self (.bool true)
      | _ => cases hkind
  | number n =>
      intro value' _ _
      refine splits_of_kind hW fun hkind => ?_
      cases value' with
      | number n' => exact splits_number hW n n'
      | _ => cases hkind
  | string s =>
      intro value' _ _
      refine splits_of_kind hW fun hkind => ?_
      cases value' with
      | string s' =>
          refine (splits_stringText ValueStop s s').imp fun hs => ?_
          rw [hs]
          exact .string s'
      | _ => cases hkind
  | array values ih =>
      intro value' hvalue hvalue'
      refine splits_of_kind hW fun hkind => ?_
      cases value' with
      | array values' =>
          cases hvalue with
          | array hvalues =>
            cases hvalue' with
            | array hvalues' =>
              exact splits_array hW fun v hv v' hv' => ih v hv v' (hvalues v hv) (hvalues' v' hv')
      | _ => cases hkind
  | dictionary entries ih =>
      intro value' hvalue hvalue'
      refine splits_of_kind hW fun hkind => ?_
      cases value' with
      | dictionary entries' =>
          cases hvalue with
          | dictionary _ hentries =>
            cases hvalue' with
            | dictionary hkeys' hentries' =>
              exact splits_dictionary hkeys' fun entry hentry entry' hentry' =>
                ih entry hentry entry'.2 (hentries entry hentry) (hentries' entry' hentry')
      | _ => cases hkind

/-- Two values are written alike exactly when they are the same. -/
theorem text_eq_iff (hW : W.Lawful) {value value' : JSONValue ν} (hvalue : value.WellFormed)
    (hvalue' : value'.WellFormed) : W.text value = W.text value' ↔ value.Same value' := by
  have hnil : Stops ValueStop [] := fun a ha => by cases ha
  exact ⟨fun h => (splits_text hW value value' hvalue hvalue' [] [] hnil hnil (by rw [h])).1,
    fun h => text_eq_of_same hW h hvalue hvalue'⟩

theorem nul_not_mem_intercalate {ls : List (List Char)} (h : ∀ l ∈ ls, nulChar ∉ l) :
    nulChar ∉ [','].intercalate ls := by
  intro hmem
  obtain hsep | ⟨l, hl, hnul⟩ := mem_intercalate hmem
  · exact absurd hsep (by decide)
  · exact h l hl hnul

theorem nul_not_mem_enclosed {opening closing : Char} {l : List Char} (hopening : nulChar ≠ opening)
    (hclosing : nulChar ≠ closing) (h : nulChar ∉ l) : nulChar ∉ opening :: (l ++ [closing]) := by
  simp [hopening, hclosing, h]

/-- A NUL in a string is escaped, and occurs nowhere else. -/
theorem nul_not_mem_text (hW : W.Lawful) (value : JSONValue ν) : nulChar ∉ W.text value := by
  induction value using JSONValue.induction with
  | null =>
      rw [text]
      decide
  | bool b =>
      rw [text]
      cases b <;> decide
  | number n => exact fun h => absurd (hW.number_chars n _ h) (by decide)
  | string s => exact nul_not_mem_stringText s
  | array values ih =>
      rw [text, texts_eq]
      refine nul_not_mem_enclosed (by decide) (by decide) (nul_not_mem_intercalate fun l hl => ?_)
      obtain ⟨value, hvalue, rfl⟩ := List.mem_map.1 hl
      exact ih value hvalue
  | dictionary entries ih =>
      rw [text_dictionary]
      refine nul_not_mem_enclosed (by decide) (by decide) (nul_not_mem_intercalate fun l hl => ?_)
      obtain ⟨entry, hentry, rfl⟩ := List.mem_map.1 hl
      have hvalue := ih entry (mem_sortedEntries.1 hentry)
      have hkey := nul_not_mem_stringText entry.1
      have hcolon : nulChar ≠ ':' := by decide
      simp [entryText, memberText, hkey, hvalue, hcolon]

end JSONWriting

section Publish

variable {ν : Type} {W : JSONWriting ν} {env : Env} {self : ClientId} {w : World}
  {message : PahoPublishedMessage} {properties : PahoProperties} {msg : MQTTAsyncMessage}
  {payload : JSONDictionary ν}

theorem JSONDictionary.nul_not_mem_text (hW : W.Lawful) (payload : JSONDictionary ν) :
    nulChar ∉ (payload.text W).toList := by
  rw [text, String.toList_ofList]
  exact JSONWriting.nul_not_mem_text hW _

theorem JSONDictionary.text_ne_empty (payload : JSONDictionary ν) : payload.text W ≠ "" := by
  intro h
  have htext := congrArg String.toList h
  rw [text, String.toList_ofList] at htext
  cases htext

/-- What a publish sends of a dictionary, and a receiver of the message gets. -/
theorem payload_of_sends (hW : W.Lawful) (hpayload : message.payload = payload.jsonObject W)
    (h : w.Sends env self message properties msg) :
    msg.payloadlen = cInt (utf8 (payload.text W)).length ∧
      msg.payload = some (utf8 (payload.text W)) := by
  have htext : message.payload.sortedKeysText = some (payload.text W) := by
    rw [hpayload]
    rfl
  obtain ⟨props, -, rfl⟩ := (sends_iff env self w htext msg).1 h
  refine ⟨?_, rfl⟩
  show cInt (strlen (utf8 (payload.text W))) = cInt (utf8 (payload.text W)).length
  rw [strlen_utf8 (payload.nul_not_mem_text hW)]

/-- The message a publish sends is read back as the bytes of the text, all of them, exactly when their
number is an `int`. -/
theorem payload_whole_iff (hW : W.Lawful) (hpayload : message.payload = payload.jsonObject W)
    (h : w.Sends env self message properties msg) :
    (PahoMessage.initWithMessage msg).payload = some (utf8 (payload.text W)) ↔
      (utf8 (payload.text W)).length < 2147483648 := by
  obtain ⟨hlen, hdata⟩ := payload_of_sends hW hpayload h
  have hread : (PahoMessage.initWithMessage msg).payload =
      if msg.payloadlen > 0 then some (readBytes (utf8 (payload.text W)) msg.payloadlen.toNat)
      else none := by
    rw [PahoMessage.initWithMessage, hdata]
    rfl
  constructor
  · intro hwhole
    rw [hread] at hwhole
    split_ifs at hwhole with hpos
    have hlength := congrArg List.length (Option.some.inj hwhole)
    rw [length_readBytes, hlen] at hlength
    have hlt := cInt_lt (utf8 (payload.text W)).length
    omega
  · intro hshort
    have hpos : 0 < (utf8 (payload.text W)).length := by
      rw [List.length_pos_iff, ne_eq, utf8_eq_nil]
      exact payload.text_ne_empty
    rw [cInt_of_lt hshort] at hlen
    rw [hread, if_pos (by omega), hlen, Int.toNat_natCast, readBytes_of_le le_rfl, List.take_length]

/-- **Payloads are told apart.** Receivers of two messages get the same bytes exactly when the same
dictionary was published, whichever way its entries, and those of the dictionaries in it, are
enumerated. -/
theorem publish_payload_eq_iff {env' : Env} {self' : ClientId} {w' : World}
    {message' : PahoPublishedMessage} {properties' : PahoProperties} {msg' : MQTTAsyncMessage}
    {payload' : JSONDictionary ν} (hW : W.Lawful)
    (hpayload : message.payload = payload.jsonObject W)
    (hpayload' : message'.payload = payload'.jsonObject W)
    (hshort : (utf8 (payload.text W)).length < 2147483648)
    (hshort' : (utf8 (payload'.text W)).length < 2147483648)
    (h : w.Sends env self message properties msg)
    (h' : w'.Sends env' self' message' properties' msg') :
    (PahoMessage.initWithMessage msg).payload = (PahoMessage.initWithMessage msg').payload ↔
      (JSONValue.dictionary payload.entries).Same (.dictionary payload'.entries) := by
  rw [(payload_whole_iff hW hpayload h).2 hshort,
    (payload_whole_iff hW hpayload' h').2 hshort', Option.some.injEq,
    utf8_injective.eq_iff, ← JSONWriting.text_eq_iff hW payload.wellFormed payload'.wellFormed]
  constructor
  · intro htext
    have hlist := congrArg String.toList htext
    rwa [JSONDictionary.text, JSONDictionary.text, String.toList_ofList,
      String.toList_ofList] at hlist
  · exact congrArg String.ofList

end Publish

/-- A dictionary with two entries, and the same with the entries the other way round. -/
def sampleDictionary : JSONDictionary ℤ where
  entries := [("b", .array [.number (-12), .null]), ("a", .string "x")]
  wellFormed := by
    refine .dictionary (by decide) ?_
    simp only [List.forall_mem_cons]
    exact ⟨.array (by simp [JSONValue.WellFormed.number, JSONValue.WellFormed.null]), .string _,
      List.forall_mem_nil _⟩

def turnedDictionary : JSONDictionary ℤ where
  entries := [("a", .string "x"), ("b", .array [.number (-12), .null])]
  wellFormed := by
    refine .dictionary (by decide) ?_
    simp only [List.forall_mem_cons]
    exact ⟨.string _, .array (by simp [JSONValue.WellFormed.number, JSONValue.WellFormed.null]),
      List.forall_mem_nil _⟩

example : sampleDictionary.text JSONWriting.integers =
    "\x7b\"a\":\"x\",\"b\":[-12,null]\x7d" := by decide

/-- A message to the topic `t` with a given dictionary as payload. -/
def dictionaryMessage (payload : JSONDictionary ℤ) : PahoPublishedMessage :=
  { topic := some "t", payload := payload.jsonObject JSONWriting.integers }

theorem sends_dictionaryMessage (payload : JSONDictionary ℤ) :
    ∃ msg, freshWorld.Sends obligingEnv 0 (dictionaryMessage payload)
      ⟨some "r", some "c", none⟩ msg :=
  ⟨_, (sends_iff obligingEnv 0 freshWorld rfl _).2 ⟨_, rfl, rfl⟩⟩

theorem publish_payload_eq_turned :
    ∃ msg msg', freshWorld.Sends obligingEnv 0 (dictionaryMessage sampleDictionary)
        ⟨some "r", some "c", none⟩ msg ∧
      freshWorld.Sends obligingEnv 0 (dictionaryMessage turnedDictionary)
        ⟨some "r", some "c", none⟩ msg' ∧
      (PahoMessage.initWithMessage msg).payload = (PahoMessage.initWithMessage msg').payload := by
  obtain ⟨msg, hsends⟩ := sends_dictionaryMessage sampleDictionary
  obtain ⟨msg', hsends'⟩ := sends_dictionaryMessage turnedDictionary
  refine ⟨msg, msg', hsends, hsends', (publish_payload_eq_iff JSONWriting.integers_lawful rfl rfl
    (by decide) (by decide) hsends hsends').2 ?_⟩
  exact (JSONWriting.text_eq_iff JSONWriting.integers_lawful sampleDictionary.wellFormed
    turnedDictionary.wellFormed).1 (by decide)

end CocoaPaho
