import CocoaPaho.Base.Bytes

/-!
The property lists of the C library: length-delimited strings, properties and their codes. A
`char *` is the memory it points into, `none` for `NULL`; a property list is the list of the
entries of its array.
-/

namespace CocoaPaho

open Base

/-- `int` from a `size_t`: the low 32 bits, read as a signed number. -/
@[irreducible] def cInt (n : ℕ) : ℤ := (n : ℤ).bmod 4294967296

theorem cInt_of_lt {n : ℕ} (h : n < 2147483648) : cInt n = n := by
  unfold cInt
  exact Int.bmod_eq_of_le (by omega) (by omega)

/-- No `int` reaches `2 ^ 31`. -/
theorem cInt_lt (n : ℕ) : cInt n < 2147483648 := by
  unfold cInt
  have h : (n : ℤ).bmod 4294967296 < ((4294967296 : ℕ) + 1) / 2 := Int.bmod_lt (by decide)
  omega

/-- The data of a length-delimited string. -/
structure MQTTLenString where
  len : ℤ
  data : Option CString
  deriving DecidableEq

/-- The one-byte property identifiers; a received list may hold any other code. -/
inductive MQTTPropertyCode where
  | payloadFormatIndicator
  | messageExpiryInterval
  | contentType
  | responseTopic
  | correlationData
  | subscriptionIdentifier
  | sessionExpiryInterval
  | assignedClientIdentifer
  | serverKeepAlive
  | authenticationMethod
  | authenticationData
  | requestProblemInformation
  | willDelayInterval
  | requestResponseInformation
  | responseInformation
  | serverReference
  | reasonString
  | receiveMaximum
  | topicAliasMaximum
  | topicAlias
  | maximumQoS
  | retainAvailable
  | userProperty
  | maximumPacketSize
  | wildcardSubscriptionAvailable
  | subscriptionIdentifiersAvailable
  | sharedSubscriptionAvailable
  | other (code : ℤ)
  deriving DecidableEq

/-- One property. Of the union only the strings are kept: `data` is the value of a string property
or the name of a user property, `value` the value of a user property. -/
structure MQTTProperty where
  identifier : MQTTPropertyCode
  data : MQTTLenString
  value : MQTTLenString := ⟨0, none⟩
  deriving DecidableEq

abbrev MQTTProperties := List MQTTProperty

/-- `MQTTProperties_add`: append a copy of the property. -/
def mqttPropertiesAdd (props : MQTTProperties) (prop : MQTTProperty) : MQTTProperties :=
  props ++ [prop]

end CocoaPaho
