import Mathlib.Data.List.Sort
import CocoaPaho.Base.SelfDelimiting
import CocoaPaho.PahoMessages

/-!
`NSJSONSerialization` as `MQTTLenStringFromJSONObject` uses it: a dictionary is written as JSON text
with sorted keys and no white space. How a number is written and in which order keys are sorted is the
system's affair and taken as given. A dictionary is the list of its entries in the order in which it
enumerates them.
-/

namespace CocoaPaho

open Base

/-- An object that can be serialized; `ν` are the numbers. -/
inductive JSONValue (ν : Type) where
  | null
  | bool (b : Bool)
  | number (n : ν)
  | string (s : NSString)
  | array (values : List (JSONValue ν))
  | dictionary (entries : List (NSString × JSONValue ν))

/-- The text of a number, and the order of keys. -/
structure JSONWriting (ν : Type) where
  numberText : ν → List Char
  keyLE : NSString → NSString → Bool

namespace JSONWriting

/-- The quotation mark. -/
def quote : Char := Char.ofNat 34

/-- The reverse solidus. -/
def solidus : Char := Char.ofNat 92

def hexDigit (n : ℕ) : Char := if n < 10 then Char.ofNat (48 + n) else Char.ofNat (87 + n)

/-- The characters that follow a reverse solidus in the place of another one. -/
def shortName (c : Char) : Option Char :=
  match c.toNat with
  | 34 => some quote
  | 92 => some solidus
  | 47 => some '/'
  | 8 => some 'b'
  | 12 => some 'f'
  | 10 => some 'n'
  | 13 => some 'r'
  | 9 => some 't'
  | _ => none

/-- A character between quotation marks; control characters without a short name are written by their
number. -/
def escaped (c : Char) : List Char :=
  match shortName c with
  | some name => [solidus, name]
  | none =>
    if c.toNat < 32 then
      [solidus, 'u', '0', '0', hexDigit (c.toNat / 16), hexDigit (c.toNat % 16)]
    else [c]

def stringText (s : NSString) : List Char := quote :: (s.toList.flatMap escaped ++ [quote])

variable {ν : Type} (W : JSONWriting ν)

def memberText (entry : NSString × List Char) : List Char := stringText entry.1 ++ ':' :: entry.2

def sortedMembers (members : List (NSString × List Char)) : List (NSString × List Char) :=
  members.insertionSort fun entry entry' => W.keyLE entry.1 entry'.1 = true

mutual

/-- The text of a value, with sorted keys. -/
def text : JSONValue ν → List Char
  | .null => ['n', 'u', 'l', 'l']
  | .bool b => if b then ['t', 'r', 'u', 'e'] else ['f', 'a', 'l', 's', 'e']
  | .number n => W.numberText n
  | .string s => stringText s
  | .array values => '[' :: ([','].intercalate (texts values) ++ [']'])
  | .dictionary entries =>
      '{' :: ([','].intercalate ((W.sortedMembers (members entries)).map memberText) ++ ['}'])

def texts : List (JSONValue ν) → List (List Char)
  | [] => []
  | value :: values => text value :: texts values

/-- The entries of a dictionary, each value as its text. -/
def members : List (NSString × JSONValue ν) → List (NSString × List Char)
  | [] => []
  | (key, value) :: entries => (key, text value) :: members entries

end

theorem texts_eq (values : List (JSONValue ν)) : W.texts values = values.map W.text := by
  induction values with
  | nil => rfl
  | cons value values ih => rw [texts, ih, List.map_cons]

theorem members_eq (entries : List (NSString × JSONValue ν)) :
    W.members entries = entries.map fun entry => (entry.1, W.text entry.2) := by
  induction entries with
  | nil => rfl
  | cons entry entries ih => rw [members, ih, List.map_cons]

end JSONWriting

namespace JSONValue

variable {ν : Type}

/-- Induction over a value and all that is in it. -/
theorem induction {P : JSONValue ν → Prop} (null : P .null) (bool : ∀ b, P (.bool b))
    (number : ∀ n, P (.number n)) (string : ∀ s, P (.string s))
    (array : ∀ values : List (JSONValue ν), (∀ value ∈ values, P value) → P (.array values))
    (dictionary : ∀ entries : List (NSString × JSONValue ν),
      (∀ entry ∈ entries, P entry.2) → P (.dictionary entries)) : ∀ value, P value
  | .null => null
  | .bool b => bool b
  | .number n => number n
  | .string s => string s
  | .array values => array values fun value _ =>
      induction null bool number string array dictionary value
  | .dictionary entries => dictionary entries fun entry _ =>
      induction null bool number string array dictionary entry.2
termination_by value => sizeOf value
decreasing_by
  · have hlt := List.sizeOf_lt_of_mem ‹_›
    simp only [JSONValue.array.sizeOf_spec]
    omega
  · have hlt := List.sizeOf_lt_of_mem ‹entry ∈ entries›
    obtain ⟨key, value⟩ := entry
    simp only [Prod.mk.sizeOf_spec, JSONValue.dictionary.sizeOf_spec] at hlt ⊢
    omega

/-- Every dictionary in the value has distinct keys. -/
inductive WellFormed : JSONValue ν → Prop
  | null : WellFormed .null
  | bool (b : Bool) : WellFormed (.bool b)
  | number (n : ν) : WellFormed (.number n)
  | string (s : NSString) : WellFormed (.string s)
  | array {values : List (JSONValue ν)} (h : ∀ value ∈ values, WellFormed value) :
      WellFormed (.array values)
  | dictionary {entries : List (NSString × JSONValue ν)} (hkeys : (entries.map Prod.fst).Nodup)
      (h : ∀ entry ∈ entries, WellFormed entry.2) : WellFormed (.dictionary entries)

/-- Equal objects: dictionaries have the same keys, and under each key equal objects, in whatever
order they enumerate them. -/
inductive Same : JSONValue ν → JSONValue ν → Prop
  | null : Same .null .null
  | bool (b : Bool) : Same (.bool b) (.bool b)
  | number (n : ν) : Same (.number n) (.number n)
  | string (s : NSString) : Same (.string s) (.string s)
  | array {values values' : List (JSONValue ν)} (hlength : values.length = values'.length)
      (h : ∀ p ∈ values.zip values', Same p.1 p.2) : Same (.array values) (.array values')
  | dictionary {entries entries' : List (NSString × JSONValue ν)}
      (hkeys : ∀ key, key ∈ entries.map Prod.fst ↔ key ∈ entries'.map Prod.fst)
      (h : ∀ entry ∈ entries, ∀ entry' ∈ entries', entry.1 = entry'.1 → Same entry.2 entry'.2) :
      Same (.dictionary entries) (.dictionary entries')

end JSONValue

/-- A dictionary that can be serialized, all keys in it being distinct. -/
structure JSONDictionary (ν : Type) where
  entries : List (NSString × JSONValue ν)
  wellFormed : (JSONValue.dictionary entries).WellFormed

namespace JSONDictionary

variable {ν : Type} (W : JSONWriting ν) (payload : JSONDictionary ν)

def text : NSString := String.ofList (W.text (.dictionary payload.entries))

/-- A dictionary as the payload of a message. -/
def jsonObject : JSONObject where
  sortedKeysText := some (payload.text W)

end JSONDictionary

end CocoaPaho
