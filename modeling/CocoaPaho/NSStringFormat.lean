import Mathlib.Data.List.Infix
import CocoaPaho.PahoHelper

/-!
Formatted strings, with the conversions the wrapper uses. How a collection is described, and in which
encoding `%s` reads, is the system's affair and taken as given. A conversion that meets no argument of
its kind is undefined behaviour.
-/

namespace CocoaPaho

open Base

/-- What the system puts into a formatted string. -/
structure Foundation where
  arrayDescription : List NSString → NSString
  dictionaryDescription : List (NSString × NSString) → NSString
  systemString : CString → NSString

/-- An object as `%@` sees it. -/
inductive FormatObject where
  | null
  | string (text : NSString)
  | array (elements : List NSString)
  | dictionary (entries : List (NSString × NSString))

/-- The kinds of arguments: `%@`, `%d`, `%ld` and `%s`. -/
inductive Conversion where
  | object
  | int
  | long
  | cString
  deriving DecidableEq

inductive FormatArg where
  | object (object : FormatObject)
  | int (value : ℤ)
  | long (value : ℤ)
  | cString (string : Option CString)

def FormatArg.conversion : FormatArg → Conversion
  | object _ => .object
  | int _ => .int
  | long _ => .long
  | cString _ => .cString

def FormatObject.description (foundation : Foundation) : FormatObject → NSString
  | null => "(null)"
  | string text => text
  | array elements => foundation.arrayDescription elements
  | dictionary entries => foundation.dictionaryDescription entries

def FormatArg.text (foundation : Foundation) : FormatArg → NSString
  | object shown => shown.description foundation
  | int value => toString value
  | long value => toString value
  | cString none => "(null)"
  | cString (some bytes) => foundation.systemString (cText bytes)

inductive FormatPiece where
  | text (c : Char)
  | conversion (kind : Conversion)

/-- The pieces of a format, if it has no other conversions. -/
def formatPieces : List Char → Option (List FormatPiece)
  | [] => some []
  | '%' :: '@' :: rest => (formatPieces rest).map (.conversion .object :: ·)
  | '%' :: 'd' :: rest => (formatPieces rest).map (.conversion .int :: ·)
  | '%' :: 'l' :: 'd' :: rest => (formatPieces rest).map (.conversion .long :: ·)
  | '%' :: 's' :: rest => (formatPieces rest).map (.conversion .cString :: ·)
  | '%' :: '%' :: rest => (formatPieces rest).map (.text '%' :: ·)
  | '%' :: _ => none
  | c :: rest => (formatPieces rest).map (.text c :: ·)

/-- The text of the pieces, each conversion taking the next argument; arguments left over are not
looked at. -/
def renderPieces (foundation : Foundation) : List FormatPiece → List FormatArg → Option (List Char)
  | [], _ => some []
  | .text c :: pieces, args => (renderPieces foundation pieces args).map (c :: ·)
  | .conversion kind :: pieces, arg :: args =>
      if arg.conversion = kind then
        (renderPieces foundation pieces args).map ((arg.text foundation).toList ++ ·)
      else none
  | .conversion _ :: _, [] => none

/-- `initWithFormat:arguments:`; `none` when its behaviour is undefined. -/
def initWithFormat (foundation : Foundation) (format : NSString) (args : List FormatArg) :
    Option NSString :=
  (formatPieces format.toList).bind fun pieces =>
    (renderPieces foundation pieces args).map String.ofList

def FormatPiece.taken : FormatPiece → Option Conversion
  | text _ => none
  | conversion kind => some kind

/-- The kinds of arguments a format takes. -/
def formatConversions (format : NSString) : Option (List Conversion) :=
  (formatPieces format.toList).map (List.filterMap FormatPiece.taken)

theorem renderPieces_isSome_iff (foundation : Foundation) (pieces : List FormatPiece)
    (args : List FormatArg) :
    (renderPieces foundation pieces args).isSome ↔
      pieces.filterMap FormatPiece.taken <+: args.map FormatArg.conversion := by
  induction pieces generalizing args with
  | nil => simp [renderPieces]
  | cons piece pieces ih =>
      cases piece with
      | text c =>
          have htaken : (FormatPiece.text c).taken = none := rfl
          rw [renderPieces, Option.isSome_map, List.filterMap_cons_none htaken]
          exact ih args
      | conversion kind =>
          have htaken : (FormatPiece.conversion kind).taken = some kind := rfl
          rw [List.filterMap_cons_some htaken]
          cases args with
          | nil => simp [renderPieces]
          | cons arg args =>
              rw [renderPieces, List.map_cons, List.cons_prefix_cons]
              split_ifs with hkind
              · rw [Option.isSome_map, ih, hkind]
                exact (and_iff_right rfl).symm
              · exact iff_of_false (by simp) fun h => hkind h.1.symm

/-- A format is defined on arguments of the kinds it takes. -/
theorem initWithFormat_isSome {format : NSString} {args : List FormatArg}
    (h : formatConversions format = some (args.map FormatArg.conversion)) (foundation : Foundation) :
    ∃ text, initWithFormat foundation format args = some text := by
  obtain ⟨pieces, hpieces, htaken⟩ := Option.map_eq_some_iff.1 h
  have hrendered : (renderPieces foundation pieces args).isSome :=
    (renderPieces_isSome_iff foundation pieces args).2 (by rw [htaken])
  obtain ⟨text, htext⟩ := Option.isSome_iff_exists.1 hrendered
  exact ⟨String.ofList text, by rw [initWithFormat, hpieces, Option.bind_some, htext]; rfl⟩

end CocoaPaho
