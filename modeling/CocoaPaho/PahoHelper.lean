import CocoaPaho.MQTTProperties
import CocoaPaho.PahoConstants

/-!
`PahoHelper.m`: conversions between the library's length-delimited strings and `NSString`, and from
the library's reason codes. An `NSString` is a sequence of Unicode scalar values; `nil` is `none`.
-/

namespace CocoaPaho

open Base

abbrev NSString := String

/-- `-[NSString UTF8String]`; a message to `nil` returns `NULL`. -/
def utf8String (string : Option NSString) : Option CString := string.map utf8

/-- `+[NSString stringWithUTF8String:]`: `nil` when the C string is not well-formed UTF-8. -/
def stringWithUTF8String (data : CString) : Option NSString := ofUTF8 (cText data)

/-- `NSStringFromMQTTLenString`; `none` when it crashes. The comparison with `strlen` is between an
`int` and a `size_t`: a negative `len` turns into a number no string reaches. The size of the copy is
computed as an `int`, too: where `len + 1` overflows, `malloc` is asked for more than all memory, and
the closing NUL is written through `NULL`. -/
def nsStringFromMQTTLenString (lenStr : MQTTLenString) : Option (Option NSString) :=
  match lenStr.data with
  | none => some none
  | some data =>
    if lenStr.len = 0 then some none
    else if lenStr.len ≠ strlen data then some none
    else if 2147483648 ≤ lenStr.len + 1 then none
    else
      let mystr := readBytes data lenStr.len.toNat ++ [0]
      some (stringWithUTF8String mystr)

/-- The text of a length-delimited string, read by its length alone: its first `len` bytes if they
are some, none of them NUL, and well-formed UTF-8. -/
def MQTTLenString.text (lenStr : MQTTLenString) : Option NSString :=
  lenStr.data.bind fun data =>
    let bytes := readBytes data lenStr.len.toNat
    if bytes = [] ∨ 0 ∈ bytes then none else ofUTF8 bytes

/-- The byte that follows the data of a length-delimited string is NUL. -/
def MQTTLenString.Terminated (lenStr : MQTTLenString) : Prop :=
  ∀ data, lenStr.data = some data → byteAt data lenStr.len.toNat = 0

theorem MQTTLenString.text_eq_some {lenStr : MQTTLenString} {string : NSString} :
    lenStr.text = some string ↔
      (∃ data, lenStr.data = some data ∧ utf8 string = readBytes data lenStr.len.toNat) ∧
        string ≠ "" ∧ nulChar ∉ string.toList := by
  rw [MQTTLenString.text, Option.bind_eq_some_iff, ← exists_and_right]
  refine exists_congr fun data => ?_
  rw [and_assoc]
  refine and_congr_right fun _ => ?_
  rw [← ofUTF8_eq_some, ← zero_mem_utf8, ne_eq, ← utf8_eq_nil]
  constructor
  · intro h
    dsimp only at h
    split_ifs at h with hbad
    have hbytes := ofUTF8_eq_some.1 h
    rw [← hbytes] at hbad
    exact ⟨h, (not_or.1 hbad).1, (not_or.1 hbad).2⟩
  · rintro ⟨h, hnil, hzero⟩
    have hbytes := ofUTF8_eq_some.1 h
    rw [hbytes] at hnil hzero
    rw [if_neg (not_or.2 ⟨hnil, hzero⟩), h]

theorem len_eq_strlen_iff (len : ℤ) (data : CString) :
    len = strlen data ↔
      0 ≤ len ∧ 0 ∉ readBytes data len.toNat ∧ byteAt data len.toNat = 0 := by
  rw [zero_not_mem_readBytes, ← strlen_eq_iff]
  omega

/-- A string as long as an `int` can tell, with no NUL among its bytes. -/
def MQTTLenString.Overlong (lenStr : MQTTLenString) : Prop :=
  2147483647 ≤ lenStr.len ∧
    ∃ data, lenStr.data = some data ∧ (0 : UInt8) ∉ readBytes data lenStr.len.toNat

/-- A string that is not empty and ends at the first NUL is copied. -/
theorem nsStringFromMQTTLenString_of_strlen {len : ℤ} {data : CString} (hpos : 0 < len)
    (h : len = strlen data) :
    nsStringFromMQTTLenString ⟨len, some data⟩ =
      if 2147483648 ≤ len + 1 then none else some (MQTTLenString.text ⟨len, some data⟩) := by
  obtain ⟨-, hzero, -⟩ := (len_eq_strlen_iff len data).1 h
  have hne : readBytes data len.toNat ≠ [] := by
    rw [ne_eq, ← List.length_eq_zero_iff, length_readBytes]
    omega
  have htext : MQTTLenString.text ⟨len, some data⟩ = ofUTF8 (readBytes data len.toNat) :=
    if_neg (not_or.2 ⟨hne, hzero⟩)
  have hcopy : stringWithUTF8String (readBytes data len.toNat ++ [0]) =
      ofUTF8 (readBytes data len.toNat) := by
    rw [stringWithUTF8String, cText_append_nul hzero []]
  simp only [nsStringFromMQTTLenString]
  rw [if_neg (Int.ne_of_gt hpos), if_neg (not_not.2 h), htext, hcopy]

/-- A string that is empty or does not end at a NUL is lost. -/
theorem nsStringFromMQTTLenString_of_ne {len : ℤ} {data : CString}
    (h : ¬ (0 < len ∧ len = strlen data)) :
    nsStringFromMQTTLenString ⟨len, some data⟩ = some none := by
  simp only [nsStringFromMQTTLenString]
  split_ifs with hzero hlen hlong
  · rfl
  · rfl
  · exact absurd ⟨by omega, not_not.1 hlen⟩ h
  · exact absurd ⟨by omega, not_not.1 hlen⟩ h

/-- The conversion crashes on an overlong string that a NUL happens to follow. -/
theorem nsStringFromMQTTLenString_eq_none {lenStr : MQTTLenString} :
    nsStringFromMQTTLenString lenStr = none ↔ lenStr.Overlong ∧ lenStr.Terminated := by
  obtain ⟨len, data⟩ := lenStr
  cases data with
  | none => simp [nsStringFromMQTTLenString, MQTTLenString.Overlong]
  | some data =>
      simp only [MQTTLenString.Overlong, MQTTLenString.Terminated, Option.some.injEq,
        exists_eq_left', forall_eq']
      have hlen := len_eq_strlen_iff len data
      by_cases h : 0 < len ∧ len = strlen data
      · obtain ⟨-, hzero, hnul⟩ := hlen.1 h.2
        rw [nsStringFromMQTTLenString_of_strlen h.1 h.2, ite_eq_left_iff]
        simp [hzero, hnul]
        omega
      · rw [nsStringFromMQTTLenString_of_ne h]
        refine iff_of_false (by simp) ?_
        rintro ⟨⟨hlong, hzero⟩, hnul⟩
        exact h ⟨by omega, hlen.2 ⟨by omega, hzero, hnul⟩⟩

/-- What the conversion returns, `nil` where it crashes. -/
def MQTTLenString.shown (lenStr : MQTTLenString) : Option NSString :=
  (nsStringFromMQTTLenString lenStr).join

theorem nsStringFromMQTTLenString_eq_shown {lenStr : MQTTLenString}
    (h : nsStringFromMQTTLenString lenStr ≠ none) :
    nsStringFromMQTTLenString lenStr = some lenStr.shown := by
  obtain ⟨result, hresult⟩ := Option.ne_none_iff_exists'.1 h
  rw [MQTTLenString.shown, hresult]
  rfl

/-- The conversion gives the text of a string that a NUL happens to follow, and loses every other
string. -/
theorem MQTTLenString.shown_eq_some {lenStr : MQTTLenString} {string : NSString} :
    lenStr.shown = some string ↔
      (lenStr.Terminated ∧ lenStr.text = some string) ∧ ¬ lenStr.Overlong := by
  obtain ⟨len, data⟩ := lenStr
  cases data with
  | none => simp [MQTTLenString.shown, nsStringFromMQTTLenString, MQTTLenString.text]
  | some data =>
      have hlen := len_eq_strlen_iff len data
      by_cases h : 0 < len ∧ len = strlen data
      · obtain ⟨-, hzero, hnul⟩ := hlen.1 h.2
        have hoverlong : MQTTLenString.Overlong ⟨len, some data⟩ ↔ 2147483648 ≤ len + 1 := by
          simp [MQTTLenString.Overlong, hzero]
          omega
        have hterminated : MQTTLenString.Terminated ⟨len, some data⟩ := by
          rintro _ ⟨⟩
          exact hnul
        rw [MQTTLenString.shown, nsStringFromMQTTLenString_of_strlen h.1 h.2, hoverlong]
        split_ifs with hlong <;> simp [hterminated, hlong]
      · rw [MQTTLenString.shown, nsStringFromMQTTLenString_of_ne h]
        refine iff_of_false (by simp) ?_
        rintro ⟨⟨hterminated, htext⟩, -⟩
        obtain ⟨⟨data', hdata, hbytes⟩, hempty, hzero⟩ := MQTTLenString.text_eq_some.1 htext
        cases hdata
        rw [ne_eq, ← utf8_eq_nil, hbytes, ← List.length_eq_zero_iff, length_readBytes] at hempty
        rw [← zero_mem_utf8, hbytes] at hzero
        dsimp only at hempty hzero
        exact h ⟨by omega, hlen.2 ⟨by omega, hzero, hterminated data rfl⟩⟩

theorem MQTTLenString.shown_of_terminated {lenStr : MQTTLenString} (h : lenStr.Terminated)
    (hlong : ¬ lenStr.Overlong) : lenStr.shown = lenStr.text := by
  apply Option.ext
  intro string
  exact MQTTLenString.shown_eq_some.trans ((and_iff_left hlong).trans (and_iff_right h))

/-- `MQTTLenStringFromNSString` of a string that is not `nil`. -/
def mqttLenString (string : NSString) : MQTTLenString :=
  let utf8Str := utf8 string
  { data := some utf8Str, len := cInt (strlen utf8Str) }

@[simp] theorem mqttLenString_len (string : NSString) :
    (mqttLenString string).len = cInt (strlen (utf8 string)) := rfl

/-- `MQTTLenStringFromNSString`; `none` when it takes `strlen` of `NULL`. -/
def mqttLenStringFromNSString (string : Option NSString) : Option MQTTLenString :=
  string.map mqttLenString

/-- A payload of a published message, seen through `NSJSONSerialization`: the text of its
serialization with sorted keys, `nil` when it has none. -/
structure JSONObject where
  sortedKeysText : Option NSString

/-- `MQTTLenStringFromJSONObject`. -/
def mqttLenStringFromJSONObject (jsonObj : JSONObject) : Option MQTTLenString :=
  mqttLenStringFromNSString jsonObj.sortedKeysText

/-- `NSStringFromPahoAction`. -/
def nsStringFromPahoAction : PahoAction → NSString
  | .subscribe => "Subscribe"
  | .unsubscribe => "Unsubscribe"
  | .publish => "Publish"
  | .disconnect => "Disconnect"
  | .connection => "Connection"

/-- `PahoReasonCodeFromMQTTResonCode`; the argument is any `int`. -/
def pahoReasonCodeFromMQTTResonCode (reasonCode : ℤ) : PahoReasonCode :=
  if reasonCode = 0 then .success
  else match reasonCode with
  | 1 => .grantedQoS1
  | 2 => .grantedQoS2
  | 4 => .disconnectWithWillMessage
  | 16 => .noMatchingSubscribers
  | 17 => .noSubscriptionFound
  | 24 => .continueAuthentication
  | 25 => .reAuthenticate
  | 128 => .unspecifiedError
  | 129 => .malformedPacket
  | 130 => .protocolError
  | 131 => .implementationSpecificError
  | 132 => .unsupportedProtocolVersion
  | 133 => .clientIdentifierNotValid
  | 134 => .badUserNameOrPassword
  | 135 => .notAuthorized
  | 136 => .serverUnavailable
  | 137 => .serverBusy
  | 138 => .banned
  | 139 => .serverShuttingDown
  | 140 => .badAuthenticationMethod
  | 141 => .keepAliveTimeout
  | 142 => .sessionTakenOver
  | 143 => .topicFilterInvalid
  | 144 => .topicNameInvalid
  | 145 => .packetIdentifierInUse
  | 146 => .packetIdentifierNotFound
  | 147 => .receiveMaximumExceeded
  | 148 => .topicAliasInvalid
  | 149 => .packetTooLarge
  | 150 => .messageRateTooHigh
  | 151 => .quotaExceeded
  | 152 => .administrativeAction
  | 153 => .payloadFormatInvalid
  | 154 => .retainNotSupported
  | 155 => .qoSNotSupported
  | 156 => .useAnotherServer
  | 157 => .serverMoved
  | 158 => .sharedSubscriptionsNotSupported
  | 159 => .connectionRateExceeded
  | 160 => .maximumConnectTime
  | 161 => .subscriptionIdentifiersNotSupported
  | 162 => .wildcardSubscriptionsNotSupported
  | _ => .success

end CocoaPaho
