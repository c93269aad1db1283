import CocoaPaho.MQTTProperties

/-!
The asynchronous library as the wrapper sees it: the structures it is given and hands over, its
calls, and the callbacks it invokes. A handle stands for one library client and is never used
again for another; a `void *` context is `NULL` or an object; a function pointer is the name of the
wrapper's function.
-/

namespace CocoaPaho

open Base

abbrev Handle := ℕ
abbrev ClientId := ℕ
abbrev SSLId := ℕ

/-- What a bridged pointer can point to. -/
inductive Obj where
  | client (client : ClientId)
  | ssl (ssl : SSLId)
  | other (object : ℕ)
  deriving DecidableEq

abbrev Context := Option Obj

/-- A block of memory with what it holds; no two blocks have one address. -/
structure Buffer (α : Type) where
  address : ℕ
  contents : α
  deriving DecidableEq

inductive SuccessFn where
  | onConnectionSuccess
  | onSubscribeSuccess
  | onUnsubscribeSuccess
  | onPublishSuccess
  | onDisconnectSuccess
  deriving DecidableEq

inductive FailureFn where
  | onConnectionFailue
  | onSubscribeFailue
  | onUnsubscribeFailue
  | onPublishFailue
  | onDisconnectFailue
  deriving DecidableEq

inductive CallbackFn where
  | onConnectionConnected
  | onConnectionLost
  | onMessageArrived
  | success (fn : SuccessFn)
  | failure (fn : FailureFn)
  | sslErrorCb
  | sslPSKCb
  deriving DecidableEq

structure MQTTAsyncMessage where
  payloadlen : ℤ := 0
  payload : Option CString := none
  qos : ℤ := 0
  retained : ℤ := 0
  dup : ℤ := 0
  msgid : ℤ := 0
  properties : MQTTProperties := []

structure MQTTAsyncSuccessData5 where
  token : ℤ
  reasonCode : ℤ
  properties : MQTTProperties

structure MQTTAsyncFailureData5 where
  token : ℤ
  reasonCode : ℤ
  properties : MQTTProperties
  code : ℤ
  message : Option CString
  packetType : ℤ

/-- A delivery of a message: its two buffers, which the receiver has to release. -/
structure Arrival where
  topicName : Buffer CString
  topicLen : ℤ
  msg : Buffer MQTTAsyncMessage

/-- A callback with its arguments other than the context. Of a message arrival the answer the
delegate will give is part too. -/
inductive Invocation where
  | onConnectionConnected (cause : Option CString)
  | onConnectionLost (cause : Option CString)
  | onMessageArrived (arrival : Arrival) (answer : Bool)
  | success (fn : SuccessFn) (response : MQTTAsyncSuccessData5)
  | failure (fn : FailureFn) (response : MQTTAsyncFailureData5)
  | sslErrorCb (str : Option CString)
  | sslPSKCb (hint : Option CString) (maxIdentityLen maxPskLen : ℕ)

def Invocation.fn : Invocation → CallbackFn
  | onConnectionConnected _ => .onConnectionConnected
  | onConnectionLost _ => .onConnectionLost
  | onMessageArrived _ _ => .onMessageArrived
  | success fn _ => .success fn
  | failure fn _ => .failure fn
  | sslErrorCb _ => .sslErrorCb
  | sslPSKCb _ _ _ => .sslPSKCb

/-- One invocation of a callback by the library: on account of which earlier call, counted as its
place in the history, and with which context. -/
structure Dispatch where
  source : ℕ
  context : Context
  invocation : Invocation

/-- `MQTTAsync_SSLOptions`, with the values of `MQTTAsync_SSLOptions_initializer`. -/
structure MQTTAsyncSSLOptions where
  structVersion : ℤ := 5
  trustStore : Option CString := none
  keyStore : Option CString := none
  privateKey : Option CString := none
  privateKeyPassword : Option CString := none
  enabledCipherSuites : Option CString := none
  enableServerCertAuth : ℤ := 1
  sslVersion : ℤ := 0
  verify : ℤ := 0
  caPath : Option CString := none
  sslErrorCb : Option CallbackFn := none
  sslErrorContext : Context := none
  sslPskCb : Option CallbackFn := none
  sslPskContext : Context := none
  disableDefaultTrustStore : ℤ := 0

/-- `MQTTAsync_connectOptions`, with the values of `MQTTAsync_connectOptions_initializer5`. A pointer
to a structure is the structure. -/
structure MQTTAsyncConnectOptions where
  keepAliveInterval : ℤ := 60
  cleansession : ℤ := 0
  maxInflight : ℤ := 65535
  username : Option CString := none
  password : Option CString := none
  connectTimeout : ℤ := 30
  retryInterval : ℤ := 0
  ssl : Option MQTTAsyncSSLOptions := none
  context : Context := none
  serverURIcount : ℤ := 0
  serverURIs : Option (Buffer (List (Buffer CString))) := none
  automaticReconnect : ℤ := 0
  minRetryInterval : ℤ := 1
  maxRetryInterval : ℤ := 60
  connectProperties : Option MQTTProperties := none
  cleanstart : ℤ := 1
  willProperties : Option MQTTProperties := none
  onSuccess5 : Option SuccessFn := none
  onFailure5 : Option FailureFn := none

/-- `MQTTAsync_responseOptions`; the token is an output and is taken from the reply. -/
structure MQTTAsyncResponseOptions where
  context : Context := none
  onSuccess5 : Option SuccessFn := none
  onFailure5 : Option FailureFn := none

/-- `MQTTAsync_disconnectOptions`, with the values of `MQTTAsync_disconnectOptions_initializer5`. -/
structure MQTTAsyncDisconnectOptions where
  timeout : ℤ := 0
  context : Context := none
  onSuccess5 : Option SuccessFn := none
  onFailure5 : Option FailureFn := none

/-- The calls of the wrapper to the library, with the handle they are made on. -/
inductive LibCall where
  | createWithOptions (serverURI clientID : Option CString)
  | setConnected (handle : Option Handle) (context : Context) (co : CallbackFn)
  | setCallbacks (handle : Option Handle) (context : Context) (cl ma : CallbackFn)
  | connect (handle : Option Handle) (options : MQTTAsyncConnectOptions)
  | disconnect (handle : Option Handle) (options : MQTTAsyncDisconnectOptions)
  | destroy (handle : Option Handle)
  | isConnected (handle : Option Handle)
  | subscribe (handle : Option Handle) (topic : Option CString) (qos : ℤ)
      (response : MQTTAsyncResponseOptions)
  | subscribeMany (handle : Option Handle) (count : ℤ) (topic : Buffer (List (Buffer CString)))
      (qos : Buffer (List ℤ)) (response : MQTTAsyncResponseOptions)
  | unsubscribe (handle : Option Handle) (topic : Option CString)
      (response : MQTTAsyncResponseOptions)
  | unsubscribeMany (handle : Option Handle) (count : ℤ) (topic : Buffer (List (Buffer CString)))
      (response : MQTTAsyncResponseOptions)
  | sendMessage (handle : Option Handle) (destinationName : Option CString)
      (msg : MQTTAsyncMessage) (response : MQTTAsyncResponseOptions)

namespace LibCall

def handle : LibCall → Option Handle
  | createWithOptions _ _ => none
  | setConnected handle _ _ => handle
  | setCallbacks handle _ _ _ => handle
  | connect handle _ => handle
  | disconnect handle _ => handle
  | destroy handle => handle
  | isConnected handle => handle
  | subscribe handle _ _ _ => handle
  | subscribeMany handle _ _ _ _ => handle
  | unsubscribe handle _ _ => handle
  | unsubscribeMany handle _ _ _ => handle
  | sendMessage handle _ _ _ => handle

/-- The callbacks of a pair of completion functions. -/
def completions (context : Context) (onSuccess5 : Option SuccessFn)
    (onFailure5 : Option FailureFn) : List (Context × CallbackFn) :=
  (onSuccess5.map fun fn => (context, .success fn)).toList ++
    (onFailure5.map fun fn => (context, .failure fn)).toList

/-- The callbacks of an SSL structure. -/
def sslCallbacks (ssl : MQTTAsyncSSLOptions) : List (Context × CallbackFn) :=
  (ssl.sslErrorCb.map fun fn => (ssl.sslErrorContext, fn)).toList ++
    (ssl.sslPskCb.map fun fn => (ssl.sslPskContext, fn)).toList

/-- The callbacks a call registers, each with its context. -/
def registered : LibCall → List (Context × CallbackFn)
  | createWithOptions _ _ => []
  | setConnected _ context co => [(context, co)]
  | setCallbacks _ context cl ma => [(context, cl), (context, ma)]
  | connect _ options =>
      completions options.context options.onSuccess5 options.onFailure5 ++
        (options.ssl.map sslCallbacks).getD []
  | disconnect _ options => completions options.context options.onSuccess5 options.onFailure5
  | destroy _ => []
  | isConnected _ => []
  | subscribe _ _ _ response =>
      completions response.context response.onSuccess5 response.onFailure5
  | subscribeMany _ _ _ _ response =>
      completions response.context response.onSuccess5 response.onFailure5
  | unsubscribe _ _ response =>
      completions response.context response.onSuccess5 response.onFailure5
  | unsubscribeMany _ _ _ response =>
      completions response.context response.onSuccess5 response.onFailure5
  | sendMessage _ _ _ response =>
      completions response.context response.onSuccess5 response.onFailure5

end LibCall

/-- What the library answers: the return code, the handle it stores where the call is given the
address of one, the token it writes, and the callbacks it invokes after this call and before the
wrapper's next one has returned. -/
structure Reply where
  rc : ℤ
  handle : Option Handle
  token : ℤ
  window : List Dispatch

end CocoaPaho
