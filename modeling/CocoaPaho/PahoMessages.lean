import CocoaPaho.MQTTAsync
import CocoaPaho.PahoProperties

/-!
`PahoMessages.m`, `PahoPublisher.m`, `PahoTopic.m` and `PahoResponse.m`: the objects a delegate
receives and the ones an application publishes and subscribes with.
-/

namespace CocoaPaho

open Base

/-- The properties an object is made with: `none` where their decoding crashes, and the callback that
makes the object with it. -/
abbrev DecodedProperties := Option PahoProperties

structure PahoMessage where
  payload : Option (List UInt8) := none
  qos : ℤ
  retained : Bool
  dup : Bool
  msgid : ℤ
  properties : Option DecodedProperties := none

/-- `initWithMessage:`. Both flags are read from `retained`. -/
def PahoMessage.initWithMessage (msg : MQTTAsyncMessage) : PahoMessage where
  payload :=
    if msg.payloadlen > 0 then msg.payload.map fun payload => readBytes payload msg.payloadlen.toNat
    else none
  qos := msg.qos
  retained := msg.retained = 1
  dup := msg.retained = 1
  msgid := msg.msgid
  properties :=
    if msg.properties.length > 0 then some (PahoProperties.initWithProperties msg.properties)
    else none

structure PahoPublishedMessage where
  topic : Option NSString := none
  qos : ℤ := 1
  retained : Bool := false
  payload : JSONObject

structure PahoTopic where
  topic : NSString
  qos : ℤ := 1

structure PahoSuccessedMessage where
  action : PahoAction
  token : ℤ
  reasonCode : PahoReasonCode
  properties : DecodedProperties

structure PahoFailedMessage where
  action : PahoAction
  token : ℤ
  reasonCode : PahoReasonCode
  properties : DecodedProperties
  code : ℤ
  packetType : ℤ
  message : Option NSString

def PahoSuccessedMessage.initWithMessage5 (msg : MQTTAsyncSuccessData5) (action : PahoAction) :
    PahoSuccessedMessage where
  action := action
  token := msg.token
  reasonCode := pahoReasonCodeFromMQTTResonCode msg.reasonCode
  properties := PahoProperties.initWithProperties msg.properties

def PahoFailedMessage.initWithMessage5 (msg : MQTTAsyncFailureData5) (action : PahoAction) :
    PahoFailedMessage where
  action := action
  token := msg.token
  reasonCode := pahoReasonCodeFromMQTTResonCode msg.reasonCode
  properties := PahoProperties.initWithProperties msg.properties
  code := msg.code
  packetType := msg.packetType
  message := msg.message.bind stringWithUTF8String

end CocoaPaho
