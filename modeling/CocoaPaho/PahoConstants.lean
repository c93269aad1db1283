import Mathlib.Data.Int.Notation

/-!
`PahoConstants.h`: the actions reported to a delegate and the reason codes, together with the
`MQTTASYNC` return code the client compares with.
-/

namespace CocoaPaho

/-- Return code: no error. -/
def mqttAsyncSuccess : ℤ := 0

inductive PahoAction where
  | connection
  | subscribe
  | unsubscribe
  | publish
  | disconnect
  deriving DecidableEq

/-- The numbers of the enumeration. -/
def PahoAction.rawValue : PahoAction → ℤ
  | connection => 0
  | subscribe => 1
  | unsubscribe => 2
  | publish => 3
  | disconnect => 4

inductive PahoReasonCode where
  | success
  | grantedQoS1
  | grantedQoS2
  | disconnectWithWillMessage
  | noMatchingSubscribers
  | noSubscriptionFound
  | continueAuthentication
  | reAuthenticate
  | unspecifiedError
  | malformedPacket
  | protocolError
  | implementationSpecificError
  | unsupportedProtocolVersion
  | clientIdentifierNotValid
  | badUserNameOrPassword
  | notAuthorized
  | serverUnavailable
  | serverBusy
  | banned
  | serverShuttingDown
  | badAuthenticationMethod
  | keepAliveTimeout
  | sessionTakenOver
  | topicFilterInvalid
  | topicNameInvalid
  | packetIdentifierInUse
  | packetIdentifierNotFound
  | receiveMaximumExceeded
  | topicAliasInvalid
  | packetTooLarge
  | messageRateTooHigh
  | quotaExceeded
  | administrativeAction
  | payloadFormatInvalid
  | retainNotSupported
  | qoSNotSupported
  | useAnotherServer
  | serverMoved
  | sharedSubscriptionsNotSupported
  | connectionRateExceeded
  | maximumConnectTime
  | subscriptionIdentifiersNotSupported
  | wildcardSubscriptionsNotSupported
  deriving DecidableEq

/-- The numbers of the enumeration. -/
def PahoReasonCode.rawValue : PahoReasonCode → ℤ
  | success => 0x00
  | grantedQoS1 => 0x01
  | grantedQoS2 => 0x02
  | disconnectWithWillMessage => 0x04
  | noMatchingSubscribers => 0x10
  | noSubscriptionFound => 0x11
  | continueAuthentication => 0x18
  | reAuthenticate => 0x19
  | unspecifiedError => 0x80
  | malformedPacket => 0x81
  | protocolError => 0x82
  | implementationSpecificError => 0x83
  | unsupportedProtocolVersion => 0x84
  | clientIdentifierNotValid => 0x85
  | badUserNameOrPassword => 0x86
  | notAuthorized => 0x87
  | serverUnavailable => 0x88
  | serverBusy => 0x89
  | banned => 0x8A
  | serverShuttingDown => 0x8B
  | badAuthenticationMethod => 0x8C
  | keepAliveTimeout => 0x8D
  | sessionTakenOver => 0x8E
  | topicFilterInvalid => 0x8F
  | topicNameInvalid => 0x90
  | packetIdentifierInUse => 0x91
  | packetIdentifierNotFound => 0x92
  | receiveMaximumExceeded => 0x93
  | topicAliasInvalid => 0x94
  | packetTooLarge => 0x95
  | messageRateTooHigh => 0x96
  | quotaExceeded => 0x97
  | administrativeAction => 0x98
  | payloadFormatInvalid => 0x99
  | retainNotSupported => 0x9A
  | qoSNotSupported => 0x9B
  | useAnotherServer => 0x9C
  | serverMoved => 0x9D
  | sharedSubscriptionsNotSupported => 0x9E
  | connectionRateExceeded => 0x9F
  | maximumConnectTime => 0xA0
  | subscriptionIdentifiersNotSupported => 0xA1
  | wildcardSubscriptionsNotSupported => 0xA2

end CocoaPaho
