import Mathlib.Logic.Function.Basic
import CocoaPaho.PahoMessages
import CocoaPaho.PahoSSLOptions

/-!
`PahoClient.m`, the object and its C functions: the instance variables, the setters, which write a
property and the connect options side by side, and the functions the library invokes.
-/

namespace CocoaPaho

open Base

abbrev Delegate := ℕ

/-- The instance variables of a client, as a zeroed object has them. -/
structure PahoClient where
  clientID : NSString
  delegate : Option Delegate := none
  hostAndPort : Option NSString := none
  keepAliveInterval : ℤ := 0
  cleanSession : Bool := false
  maxInflight : ℤ := 0
  username : Option NSString := none
  password : Option NSString := none
  connectTimeout : ℤ := 0
  retryInterval : ℤ := 0
  ssl : Option SSLId := none
  serverURIs : Option (List NSString) := none
  automaticReconnect : Bool := false
  minRetryInterval : ℤ := 0
  maxRetryInterval : ℤ := 0
  cleanstart : ℤ := 0
  connectProperties : Option PahoProperties := none
  willProperties : Option PahoProperties := none
  mqttAsyncHandle : Option Handle := none
  connectOpts : MQTTAsyncConnectOptions

namespace PahoClient

/-- `setupInitialize`. -/
def setupInitialize (self : ClientId) : MQTTAsyncConnectOptions where
  context := some (.client self)
  onFailure5 := some .onConnectionFailue
  onSuccess5 := some .onConnectionSuccess

/-- `initWithClientID:`. -/
def initWithClientID (self : ClientId) (clientID : NSString) : PahoClient where
  mqttAsyncHandle := none
  clientID := clientID
  connectOpts := setupInitialize self

def setKeepAliveInterval (keepAliveInterval : ℤ) (self : PahoClient) : PahoClient :=
  { self with
    connectOpts := { self.connectOpts with keepAliveInterval := keepAliveInterval }
    keepAliveInterval := keepAliveInterval }

def setCleanSession (cleanSession : Bool) (self : PahoClient) : PahoClient :=
  { self with
    connectOpts := { self.connectOpts with cleansession := if cleanSession then 1 else 0 }
    cleanSession := cleanSession }

def setMaxInflight (maxInflight : ℤ) (self : PahoClient) : PahoClient :=
  { self with
    connectOpts := { self.connectOpts with maxInflight := maxInflight }
    maxInflight := maxInflight }

def setUsername (username : Option NSString) (self : PahoClient) : PahoClient :=
  { self with
    connectOpts := { self.connectOpts with username := utf8String username }
    username := username }

def setPassword (password : Option NSString) (self : PahoClient) : PahoClient :=
  { self with
    connectOpts := { self.connectOpts with password := utf8String password }
    password := password }

def setConnectTimeout (connectTimeout : ℤ) (self : PahoClient) : PahoClient :=
  { self with
    connectOpts := { self.connectOpts with connectTimeout := connectTimeout }
    connectTimeout := connectTimeout }

def setRetryInterval (retryInterval : ℤ) (self : PahoClient) : PahoClient :=
  { self with
    connectOpts := { self.connectOpts with retryInterval := retryInterval }
    retryInterval := retryInterval }

def setAutomaticReconnect (automaticReconnect : Bool) (self : PahoClient) : PahoClient :=
  { self with
    connectOpts := { self.connectOpts with
      automaticReconnect := if automaticReconnect then 1 else 0 }
    automaticReconnect := automaticReconnect }

def setMinRetryInterval (minRetryInterval : ℤ) (self : PahoClient) : PahoClient :=
  { self with
    connectOpts := { self.connectOpts with minRetryInterval := minRetryInterval }
    minRetryInterval := minRetryInterval }

def setMaxRetryInterval (maxRetryInterval : ℤ) (self : PahoClient) : PahoClient :=
  { self with
    connectOpts := { self.connectOpts with maxRetryInterval := maxRetryInterval }
    maxRetryInterval := maxRetryInterval }

def setCleanstart (cleanstart : ℤ) (self : PahoClient) : PahoClient :=
  { self with
    connectOpts := { self.connectOpts with cleanstart := cleanstart }
    cleanstart := cleanstart }

/-- `setConnectProperties:`. The structure is cleared; the value is kept by the property only. -/
def setConnectProperties (connectProperties : Option PahoProperties) (self : PahoClient) :
    PahoClient :=
  { self with
    connectOpts := { self.connectOpts with connectProperties := none }
    connectProperties := connectProperties }

/-- `setWillProperties:`. -/
def setWillProperties (willProperties : Option PahoProperties) (self : PahoClient) : PahoClient :=
  { self with
    connectOpts := { self.connectOpts with willProperties := none }
    willProperties := willProperties }

def setHostAndPort (hostAndPort : Option NSString) (self : PahoClient) : PahoClient :=
  { self with hostAndPort := hostAndPort }

end PahoClient

/-- An assignment to one of the properties that touch nothing but the client. -/
inductive ClientSetter where
  | keepAliveInterval (value : ℤ)
  | cleanSession (value : Bool)
  | maxInflight (value : ℤ)
  | username (value : Option NSString)
  | password (value : Option NSString)
  | connectTimeout (value : ℤ)
  | retryInterval (value : ℤ)
  | automaticReconnect (value : Bool)
  | minRetryInterval (value : ℤ)
  | maxRetryInterval (value : ℤ)
  | cleanstart (value : ℤ)
  | connectProperties (value : Option PahoProperties)
  | willProperties (value : Option PahoProperties)
  | hostAndPort (value : Option NSString)

def ClientSetter.apply : ClientSetter → PahoClient → PahoClient
  | keepAliveInterval value => PahoClient.setKeepAliveInterval value
  | cleanSession value => PahoClient.setCleanSession value
  | maxInflight value => PahoClient.setMaxInflight value
  | username value => PahoClient.setUsername value
  | password value => PahoClient.setPassword value
  | connectTimeout value => PahoClient.setConnectTimeout value
  | retryInterval value => PahoClient.setRetryInterval value
  | automaticReconnect value => PahoClient.setAutomaticReconnect value
  | minRetryInterval value => PahoClient.setMinRetryInterval value
  | maxRetryInterval value => PahoClient.setMaxRetryInterval value
  | cleanstart value => PahoClient.setCleanstart value
  | connectProperties value => PahoClient.setConnectProperties value
  | willProperties value => PahoClient.setWillProperties value
  | hostAndPort value => PahoClient.setHostAndPort value

/-- A message to a delegate. -/
inductive DelegateMessage where
  | didConnected (cause : Option NSString)
  | didDisconnected (cause : Option NSString)
  | didReceiveMessage (message : PahoMessage) (topic : Option NSString)
  | onAction (action : PahoAction) (success : Option PahoSuccessedMessage)
      (failed : Option PahoFailedMessage)

structure DelegateCall where
  delegate : Delegate
  client : ClientId
  message : DelegateMessage

/-- A buffer of the library given back to it. -/
inductive Release where
  | freeMessage (address : ℕ)
  | free (address : ℕ)
  deriving DecidableEq

/-- What a C function does beside what the delegate does when called: the delegate calls it makes,
the buffers it releases, and what it returns, 0 for `void`. -/
structure CallbackResult where
  delegateCalls : List DelegateCall := []
  released : List Release := []
  returned : ℤ := 0

/-- `__CHECK_CLIENT__`: the client a context denotes, if it denotes one. -/
def checkClient (context : Context) : Option ClientId :=
  match context with
  | some (.client client) => some client
  | _ => none

section Callbacks

variable (clients : ClientId → PahoClient) (context : Context)

/-- A message to the client's delegate; to a `nil` delegate there is none. -/
def toDelegate (client : ClientId) (message : DelegateMessage) : List DelegateCall :=
  ((clients client).delegate.map fun delegate => ⟨delegate, client, message⟩).toList

def onConnectionConnected (cause : Option CString) : CallbackResult :=
  match checkClient context with
  | none => {}
  | some client =>
    let causeStr := cause.bind stringWithUTF8String
    { delegateCalls := toDelegate clients client (.didConnected causeStr) }

def onConnectionLost (cause : Option CString) : CallbackResult :=
  match checkClient context with
  | none => {}
  | some client =>
    let causeStr := cause.bind stringWithUTF8String
    { delegateCalls := toDelegate clients client (.didDisconnected causeStr) }

/-- `onMessageArrived`. The message is released when it is not to be delivered again, the topic
name never. -/
def onMessageArrived (arrival : Arrival) (answer : Bool) : CallbackResult :=
  match checkClient context with
  | none => { returned := 1 }
  | some client =>
    let message := PahoMessage.initWithMessage arrival.msg.contents
    let topic := stringWithUTF8String arrival.topicName.contents
    let delegateCalls := toDelegate clients client (.didReceiveMessage message topic)
    if (clients client).delegate = none ∨ answer then
      { delegateCalls, released := [.freeMessage arrival.msg.address], returned := 1 }
    else { delegateCalls, returned := 0 }

/-- The success function of the family `__PAHO_ASYNC_ACTION__` for an action. -/
def onActionSuccess (action : PahoAction) (response : MQTTAsyncSuccessData5) : CallbackResult :=
  match checkClient context with
  | none => {}
  | some client =>
    let sucMsg := PahoSuccessedMessage.initWithMessage5 response action
    { delegateCalls := toDelegate clients client (.onAction action (some sucMsg) none) }

/-- The failure function of the family. -/
def onActionFailue (action : PahoAction) (response : MQTTAsyncFailureData5) : CallbackResult :=
  match checkClient context with
  | none => {}
  | some client =>
    let faiMsg := PahoFailedMessage.initWithMessage5 response action
    { delegateCalls := toDelegate clients client (.onAction action none (some faiMsg)) }

def onConnectionSuccess := onActionSuccess clients context .connection
def onConnectionFailue := onActionFailue clients context .connection
def onSubscribeSuccess := onActionSuccess clients context .subscribe
def onSubscribeFailue := onActionFailue clients context .subscribe
def onUnsubscribeSuccess := onActionSuccess clients context .unsubscribe
def onUnsubscribeFailue := onActionFailue clients context .unsubscribe
def onPublishSuccess := onActionSuccess clients context .publish
def onPublishFailue := onActionFailue clients context .publish
def onDisconnectSuccess := onActionSuccess clients context .disconnect
def onDisconnectFailue := onActionFailue clients context .disconnect

/-- The options object an SSL context denotes. -/
def checkSSL (ssls : SSLId → PahoSSLOptions) : Option PahoSSLOptions :=
  match context with
  | some (.ssl ssl) => some (ssls ssl)
  | _ => none

/-- The function a function pointer stands for. -/
def runCallback (ssls : SSLId → PahoSSLOptions) : Invocation → CallbackResult
  | .onConnectionConnected cause => onConnectionConnected clients context cause
  | .onConnectionLost cause => onConnectionLost clients context cause
  | .onMessageArrived arrival answer => onMessageArrived clients context arrival answer
  | .success .onConnectionSuccess response => onConnectionSuccess clients context response
  | .success .onSubscribeSuccess response => onSubscribeSuccess clients context response
  | .success .onUnsubscribeSuccess response => onUnsubscribeSuccess clients context response
  | .success .onPublishSuccess response => onPublishSuccess clients context response
  | .success .onDisconnectSuccess response => onDisconnectSuccess clients context response
  | .failure .onConnectionFailue response => onConnectionFailue clients context response
  | .failure .onSubscribeFailue response => onSubscribeFailue clients context response
  | .failure .onUnsubscribeFailue response => onUnsubscribeFailue clients context response
  | .failure .onPublishFailue response => onPublishFailue clients context response
  | .failure .onDisconnectFailue response => onDisconnectFailue clients context response
  | .sslErrorCb str => { returned := sslErrorCb (checkSSL context ssls) str }
  | .sslPSKCb hint maxIdentityLen maxPskLen =>
      { returned := (sslPSKCb (checkSSL context ssls) hint maxIdentityLen maxPskLen).returned }

end Callbacks

end CocoaPaho
