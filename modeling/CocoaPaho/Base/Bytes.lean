import Mathlib.Data.List.TakeWhile

/-!
C strings and UTF-8. The memory a `char *` points into is the list of the bytes from that address
on; whatever lies past the end of the list reads as NUL, so that every C string ends. A string of
Unicode scalar values is Lean's `String`, whose bytes are its UTF-8 encoding.
-/

namespace CocoaPaho.Base

/-- The bytes memory holds from the address a `char *` denotes on. -/
abbrev CString := List UInt8

/-- The characters of a C string: the bytes before the first NUL. -/
def cText (b : CString) : List UInt8 := b.takeWhile (· ≠ 0)

def strlen (b : CString) : ℕ := (cText b).length

/-- The byte at an offset from the pointer. -/
def byteAt (b : CString) (i : ℕ) : UInt8 := b.getD i 0

theorem cText_of_zero_not_mem {b : CString} (h : (0 : UInt8) ∉ b) : cText b = b := by
  rw [cText, List.takeWhile_eq_self_iff]
  intro x hx
  simpa using fun h0 : x = 0 => h (h0 ▸ hx)

theorem cText_append_nul {b : CString} (h : (0 : UInt8) ∉ b) (rest : CString) :
    cText (b ++ 0 :: rest) = b := by
  have hb := cText_of_zero_not_mem h
  rw [cText] at hb ⊢
  rw [List.takeWhile_append, hb, if_pos rfl]
  simp

/-- `strlen` finds its argument exactly at the first NUL. -/
theorem strlen_eq_iff (b : CString) (n : ℕ) :
    strlen b = n ↔ (∀ i < n, byteAt b i ≠ 0) ∧ byteAt b n = 0 := by
  induction b generalizing n with
  | nil =>
      cases n with
      | zero => simp [strlen, cText, byteAt]
      | succ n => simpa [strlen, cText, byteAt] using ⟨0, by omega⟩
  | cons x b ih =>
      by_cases hx : x = 0
      · subst hx
        cases n with
        | zero => simp [strlen, cText, byteAt]
        | succ n =>
            simp only [strlen, cText, byteAt, List.takeWhile_cons]
            simpa using fun h => absurd rfl (h 0 (by omega))
      · have hcons : strlen (x :: b) = strlen b + 1 := by simp [strlen, cText, hx]
        cases n with
        | zero => simp [hcons, byteAt, hx]
        | succ n =>
            rw [hcons, Nat.add_right_cancel_iff, ih]
            refine and_congr ⟨fun h i hi => ?_, fun h i hi => h (i + 1) (Nat.succ_lt_succ hi)⟩ Iff.rfl
            cases i with
            | zero => exact hx
            | succ i => exact h i (Nat.lt_of_succ_lt_succ hi)

/-- The first `n` bytes from the pointer, as `memcpy` reads them. -/
def readBytes (b : CString) (n : ℕ) : List UInt8 := (List.range n).map (byteAt b)

@[simp] theorem length_readBytes (b : CString) (n : ℕ) : (readBytes b n).length = n := by
  simp [readBytes]

theorem readBytes_of_le {b : CString} {n : ℕ} (h : n ≤ b.length) : readBytes b n = b.take n := by
  apply List.ext_getElem
  · rw [length_readBytes, List.length_take, Nat.min_eq_left h]
  · intro i hi _
    rw [length_readBytes] at hi
    have hlt : i < b.length := Nat.lt_of_lt_of_le hi h
    simp [readBytes, byteAt, List.getElem?_eq_getElem hlt]

theorem readBytes_append_length (b rest : CString) : readBytes (b ++ rest) b.length = b := by
  rw [readBytes_of_le (by simp)]
  simp

theorem zero_not_mem_readBytes {b : CString} {n : ℕ} :
    (0 : UInt8) ∉ readBytes b n ↔ ∀ i < n, byteAt b i ≠ 0 := by
  simp [readBytes]

/-- The UTF-8 encoding of a string. -/
def utf8 (s : String) : List UInt8 := s.toByteArray.data.toList

/-- The string a byte sequence encodes, if it is well-formed UTF-8. -/
def ofUTF8 (b : List UInt8) : Option String := String.fromUTF8? b.toByteArray

theorem utf8_injective : Function.Injective utf8 := by
  intro s t h
  apply String.toByteArray_inj.1
  apply ByteArray.ext
  exact Array.toList_inj.1 h

theorem ofUTF8_eq_some {b : List UInt8} {s : String} : ofUTF8 b = some s ↔ utf8 s = b := by
  rw [ofUTF8, String.fromUTF8?]
  constructor
  · intro h
    split at h
    · cases h
      simp [utf8, String.fromUTF8]
    · cases h
  · intro h
    have hb : b.toByteArray = s.toByteArray := by
      apply ByteArray.ext
      apply Array.toList_inj.1
      rw [List.toList_data_toByteArray, ← h, utf8]
    rw [dif_pos (hb ▸ s.isValidUTF8)]
    congr 1
    exact String.toByteArray_inj.1 hb

theorem utf8_eq_flatMap (s : String) : utf8 s = s.toList.flatMap String.utf8EncodeChar := by
  rw [utf8, ← String.utf8Encode_toList, List.utf8Encode, List.toList_data_toByteArray]

@[simp] theorem utf8_empty : utf8 "" = [] := by
  simp [utf8_eq_flatMap]

@[simp] theorem utf8_eq_nil {s : String} : utf8 s = [] ↔ s = "" := by
  rw [← utf8_empty]
  exact utf8_injective.eq_iff

/-- The character U+0000. -/
def nulChar : Char := Char.ofNat 0

/-- Only U+0000 is encoded with a zero byte: the lead and continuation bytes of longer sequences
have their high bit set. -/
theorem zero_mem_utf8EncodeChar (c : Char) :
    (0 : UInt8) ∈ String.utf8EncodeChar c ↔ c = nulChar := by
  have hc : c = nulChar ↔ c.val.toNat = 0 := by
    rw [Char.ext_iff, ← UInt32.toNat_inj]
    rfl
  have hbyte : ∀ n : ℕ, (0 : UInt8) = UInt8.ofNat n ↔ n % 256 = 0 := by
    intro n
    rw [← UInt8.toNat_inj, UInt8.toNat_ofNat']
    exact eq_comm
  rw [hc, String.utf8EncodeChar]
  split_ifs with h1 h2 h3
  · simp only [List.mem_singleton, hbyte]
    omega
  · simp only [List.mem_cons, List.not_mem_nil, or_false, hbyte]
    omega
  · simp only [List.mem_cons, List.not_mem_nil, or_false, hbyte]
    omega
  · simp only [List.mem_cons, List.not_mem_nil, or_false, hbyte]
    omega

theorem zero_mem_utf8 (s : String) : (0 : UInt8) ∈ utf8 s ↔ nulChar ∈ s.toList := by
  simp [utf8_eq_flatMap, zero_mem_utf8EncodeChar]

end CocoaPaho.Base
