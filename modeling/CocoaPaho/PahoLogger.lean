import CocoaPaho.NSJSONSerialization
import CocoaPaho.NSStringFormat

/-!
`PahoLogger.m`, with the descriptions of the objects that are logged. A log statement offers a line to
the logger, which makes a message of it for its delegate when the level asks for it.
-/

namespace CocoaPaho

open Base

def PahoTopic.description (self : PahoTopic) : NSString :=
  "[PahoTopic] topic: " ++ self.topic ++ ", qos: " ++ toString self.qos

/-- Whether a payload has entries: a dictionary without any is written as two braces. -/
def JSONObject.isEmpty (jsonObj : JSONObject) : Bool := jsonObj.sortedKeysText = some "\x7b\x7d"

def PahoPublishedMessage.description (self : PahoPublishedMessage) : NSString :=
  let payload := if self.payload.isEmpty then "" else "[Payload ...]"
  "topic: " ++ self.topic.getD "(null)" ++ " [" ++ toString self.qos ++ "] " ++ payload

def PahoFailedMessage.description (self : PahoFailedMessage) : NSString :=
  "[AsyncFailed] Action: " ++ toString self.action.rawValue ++ ", Token: " ++ toString self.token ++
    ", Code: " ++ toString self.code ++ ", Reason: " ++ toString self.reasonCode.rawValue ++
    ", Message: " ++ self.message.getD "(null)"

theorem JSONDictionary.isEmpty_jsonObject {ν : Type} (W : JSONWriting ν)
    (payload : JSONDictionary ν) :
    (payload.jsonObject W).isEmpty = true ↔ payload.entries = [] := by
  have hbraces : (payload.jsonObject W).isEmpty = true ↔
      W.text (.dictionary payload.entries) = ['{', '}'] := by
    rw [JSONObject.isEmpty, decide_eq_true_eq, JSONDictionary.jsonObject, Option.some_inj,
      JSONDictionary.text, ← String.toList_inj, String.toList_ofList]
    rfl
  rw [hbraces, JSONWriting.text, JSONWriting.members_eq]
  constructor
  · intro h
    by_contra hne
    have hlength := congrArg List.length h
    obtain ⟨entry, entries, heq⟩ := List.exists_cons_of_ne_nil
      (l := W.sortedMembers (payload.entries.map fun entry => (entry.1, W.text entry.2)))
      (by
        rw [← List.length_pos_iff, JSONWriting.sortedMembers, List.length_insertionSort,
          List.length_map]
        exact List.length_pos_iff.2 hne)
    rw [heq, List.map_cons, intercalate_cons_eq] at hlength
    simp [JSONWriting.memberText, JSONWriting.stringText] at hlength
  · intro h
    rw [h]
    rfl

inductive PahoLogLevel where
  | error
  | warn
  | info
  | debug
  | silent
  deriving DecidableEq

/-- The numbers of the enumeration. -/
def PahoLogLevel.rawValue : PahoLogLevel → ℕ
  | error => 0
  | warn => 1
  | info => 2
  | debug => 3
  | silent => 4

/-- A log statement with what it is given; its moment is the number of events that have happened. The
function is named as in the source. -/
structure LogLine where
  moment : ℕ
  category : NSString
  level : PahoLogLevel
  function : NSString
  line : ℕ
  clientID : NSString
  format : NSString
  args : List FormatArg

structure PahoLogMessage where
  date : ℕ
  function : NSString
  category : NSString
  clientID : NSString
  message : NSString
  line : ℕ
  logLevel : PahoLogLevel

abbrev LogDelegate := ℕ

structure PahoLogger where
  logLevel : PahoLogLevel
  delegate : Option LogDelegate := none

/-- `shared`, when it is made. -/
def PahoLogger.shared : PahoLogger where
  logLevel := .info

/-- What is given about the application's log delegates and the system. -/
structure LogEnv where
  foundation : Foundation
  /-- Which delegates respond to `receivedPahoLog:`. -/
  responds : LogDelegate → Bool

/-- A system that describes collections by nothing, and a delegate that takes every message. -/
def plainLogEnv : LogEnv where
  foundation :=
    { arrayDescription := fun _ => ""
      dictionaryDescription := fun _ => ""
      systemString := fun bytes => (ofUTF8 bytes).getD "" }
  responds := fun _ => true

/-- `logWithCategory:level:file:function:line:clientID:message:`: the messages delegates receive;
`none` when formatting is undefined. -/
def PahoLogger.logWithCategory (logEnv : LogEnv) (self : PahoLogger) (offer : LogLine) :
    Option (List (LogDelegate × PahoLogMessage)) :=
  if offer.level.rawValue > self.logLevel.rawValue then some []
  else
    match self.delegate with
    | none => some []
    | some delegate =>
      if logEnv.responds delegate then
        (initWithFormat logEnv.foundation offer.format offer.args).map fun logContent =>
          [(delegate,
            { date := offer.moment
              function := offer.function
              category := offer.category
              clientID := offer.clientID
              message := logContent
              line := offer.line
              logLevel := offer.level })]
      else some []

/-- Several lines, one after another. -/
def PahoLogger.logAll (logEnv : LogEnv) (self : PahoLogger) :
    List LogLine → Option (List (LogDelegate × PahoLogMessage))
  | [] => some []
  | offer :: offers =>
    (self.logWithCategory logEnv offer).bind fun messages =>
      (logAll logEnv self offers).map (messages ++ ·)

/-- The conversions of the format are met by the arguments. -/
def LogLine.Matched (offer : LogLine) : Prop :=
  formatConversions offer.format = some (offer.args.map FormatArg.conversion)

theorem PahoLogger.logAll_isSome (logEnv : LogEnv) (self : PahoLogger) {offers : List LogLine}
    (h : ∀ offer ∈ offers, offer.Matched) : ∃ messages, self.logAll logEnv offers = some messages := by
  induction offers with
  | nil => exact ⟨[], rfl⟩
  | cons offer offers ih =>
      obtain ⟨rest, hrest⟩ := ih fun offer' hmem => h offer' (List.mem_cons_of_mem _ hmem)
      have hfirst : ∃ messages, self.logWithCategory logEnv offer = some messages := by
        obtain ⟨text, htext⟩ := initWithFormat_isSome (h offer (List.mem_cons_self ..))
          logEnv.foundation
        unfold PahoLogger.logWithCategory
        rw [htext]
        split
        · exact ⟨_, rfl⟩
        · split
          · exact ⟨_, rfl⟩
          · split_ifs <;> exact ⟨_, rfl⟩
      obtain ⟨messages, hmessages⟩ := hfirst
      exact ⟨messages ++ rest, by rw [logAll, hmessages, Option.bind_some, hrest]; rfl⟩

end CocoaPaho
