import CocoaPaho.World

/-!
`PahoClient.m`, the methods that call the library. Every method works on the client `self` of a
world; an early return of the source is an early return here.
-/

namespace CocoaPaho

open Base

/-- A value of the user properties of a connect: a string, or another object with its `%@`
description. -/
inductive PropertyObject where
  | string (string : NSString)
  | object (description : NSString)
  deriving DecidableEq

def PropertyObject.text : PropertyObject → NSString
  | .string text => text
  | .object description => description

/-- The user properties a connect passes, `NULL` when there are none. -/
def connectUserProperties (userProperties : Option (NSDictionary PropertyObject)) :
    Option MQTTProperties :=
  match userProperties with
  | none => none
  | some userProperties =>
    if userProperties.entries.length = 0 then none
    else some (userProperties.entries.foldl (fun properties entry =>
      mqttPropertiesAdd properties
        { identifier := .userProperty
          data := mqttLenString entry.1
          value := mqttLenString entry.2.text }) [])

/-- The property list of a published message; `none` when a string is missing. -/
def publishedProperties (properties : PahoProperties) : Option MQTTProperties :=
  (mqttLenStringFromNSString properties.responseTopic).bind fun responseTopic =>
  (mqttLenStringFromNSString properties.correlation).bind fun correlation =>
    let props := mqttPropertiesAdd [] { identifier := .responseTopic, data := responseTopic }
    let props := mqttPropertiesAdd props { identifier := .correlationData, data := correlation }
    some ((properties.userProperties.getD ∅).entries.foldl (fun props entry =>
      mqttPropertiesAdd props
        { identifier := .userProperty
          data := mqttLenString entry.1
          value := mqttLenString entry.2 }) props)

theorem foldl_mqttPropertiesAdd {α : Type} (f : α → MQTTProperty) (entries : List α)
    (properties : MQTTProperties) :
    entries.foldl (fun properties entry => mqttPropertiesAdd properties (f entry)) properties =
      properties ++ entries.map f := by
  induction entries generalizing properties with
  | nil => simp
  | cons entry entries ih =>
      rw [List.foldl_cons, ih, mqttPropertiesAdd, List.map_cons, List.append_assoc]
      rfl

namespace World

section Methods

variable (env : Env) (self : ClientId)

/-- `MQTTAsync_destroy(&self->m_mqttAsyncHandle)`. -/
def destroy (method : Method) (w : World) : World :=
  let result := w.call env self method (.destroy (w.clients self).mqttAsyncHandle)
  result.1.modify self fun c => { c with mqttAsyncHandle := result.2.handle }

/-- `MQTTAsync_createWithOptions(&self->m_mqttAsyncHandle, …)`, which may store no handle. -/
def create (w : World) : World × ℤ :=
  let result := w.call env self .connect
    (.createWithOptions (utf8String (w.clients self).hostAndPort)
      (utf8String (some (w.clients self).clientID)))
  let w := result.1.modify self fun c =>
    { c with mqttAsyncHandle := result.2.handle.or c.mqttAsyncHandle }
  (w, result.2.rc)

/-- `disconnect`. -/
def disconnect (w : World) : World :=
  match (w.clients self).mqttAsyncHandle with
  | none => w
  | some handle =>
    let disconnOpt : MQTTAsyncDisconnectOptions :=
      { onSuccess5 := some .onDisconnectSuccess
        onFailure5 := some .onDisconnectFailue
        context := some (.client self) }
    let w := (w.call env self .disconnect (.disconnect (some handle) disconnOpt)).1
    w.destroy env self .disconnect

/-- The four exits of a connect that failed: destroy the handle and return the code; otherwise go
on. -/
def orDestroy (attempt : World × ℤ) (rest : World → World × ℤ) : World × ℤ :=
  if attempt.2 ≠ mqttAsyncSuccess then (attempt.1.destroy env self .connect, attempt.2)
  else rest attempt.1

/-- The connect options before `MQTTAsync_connect`: the SSL structure of the current options object,
in a build with SSL, and the user properties. -/
def fillConnectOpts (userProperties : Option (NSDictionary PropertyObject)) (w : World) : World :=
  let ssl := (w.clients self).ssl.map fun ssl => (w.ssls ssl).sslOptions
  let w := if env.enableSSLConnection then
      w.modify self fun c => { c with connectOpts := { c.connectOpts with ssl := ssl } }
    else w
  match connectUserProperties userProperties with
  | none => w
  | some properties =>
    w.modify self fun c =>
      { c with connectOpts := { c.connectOpts with connectProperties := some properties } }

/-- The registration of the connected callback. -/
def setConnected (w : World) : World × ℤ :=
  w.request env self .connect
    (.setConnected (w.clients self).mqttAsyncHandle (some (.client self)) .onConnectionConnected)

/-- The registration of the callbacks for a lost connection and for messages. -/
def setCallbacks (w : World) : World × ℤ :=
  w.request env self .connect
    (.setCallbacks (w.clients self).mqttAsyncHandle (some (.client self))
      .onConnectionLost .onMessageArrived)

/-- `MQTTAsync_connect` with the filled options, from which the user properties, a local of the
method, are taken out again. -/
def sendConnect (userProperties : Option (NSDictionary PropertyObject)) (w : World) : World × ℤ :=
  let w := w.fillConnectOpts env self userProperties
  let result := w.request env self .connect
    (.connect (w.clients self).mqttAsyncHandle (w.clients self).connectOpts)
  (result.1.modify self fun c =>
    { c with connectOpts := { c.connectOpts with connectProperties := none } }, result.2)

/-- `connectWithUsername:password:userProperties:`. -/
def connectWithUsername (username password : Option NSString)
    (userProperties : Option (NSDictionary PropertyObject)) (w : World) : World × ℤ :=
  let w := w.disconnect env self
  let w := w.modify self (PahoClient.setUsername username)
  let w := w.modify self (PahoClient.setPassword password)
  orDestroy env self (w.create env self) fun w =>
  orDestroy env self (w.setConnected env self) fun w =>
  orDestroy env self (w.setCallbacks env self) fun w =>
  orDestroy env self (w.sendConnect env self userProperties) fun w => (w, mqttAsyncSuccess)

/-- `subscribe:qos:`. -/
def subscribe (topic : NSString) (qos : ℤ) (w : World) : World × ℤ :=
  let options : MQTTAsyncResponseOptions :=
    { context := some (.client self)
      onSuccess5 := some .onSubscribeSuccess
      onFailure5 := some .onSubscribeFailue }
  w.request env self .subscribe
    (.subscribe (w.clients self).mqttAsyncHandle (utf8String (some topic)) qos options)

/-- `subscribe:`. The block of the qualities is not freed. -/
def subscribeTopics (topics : List PahoTopic) (w : World) : World × ℤ :=
  let respOpts : MQTTAsyncResponseOptions :=
    { context := some (.client self)
      onSuccess5 := some .onSubscribeSuccess
      onFailure5 := some .onSubscribeFailue }
  let count := cInt topics.length
  let qoss : Buffer (List ℤ) := ⟨w.nextAddress, topics.map PahoTopic.qos⟩
  let w := w.malloc
  let tpChrs := w.nextAddress
  let w := w.malloc
  let strings := w.strdup (topics.map fun topic => utf8 topic.topic)
  let result := strings.1.request env self .subscribeTopics
    (.subscribeMany (w.clients self).mqttAsyncHandle count ⟨tpChrs, strings.2⟩ qoss respOpts)
  let w := result.1.freeAll (strings.2.take count.toNat)
  (w.free tpChrs, result.2)

/-- `unsubscribeTopic:`. -/
def unsubscribeTopic (topic : NSString) (w : World) : World × ℤ :=
  let unsubOpt : MQTTAsyncResponseOptions :=
    { onSuccess5 := some .onUnsubscribeSuccess
      onFailure5 := some .onUnsubscribeFailue
      context := some (.client self) }
  w.request env self .unsubscribeTopic
    (.unsubscribe (w.clients self).mqttAsyncHandle (utf8String (some topic)) unsubOpt)

/-- `unsubscribeTopics:`. The response options are left as initialized: no context and no
completion functions. -/
def unsubscribeTopics (topics : List NSString) (w : World) : World × ℤ :=
  let unsubOpt : MQTTAsyncResponseOptions := {}
  let count := cInt topics.length
  let tpChrs := w.nextAddress
  let w := w.malloc
  let strings := w.strdup ((topics.take count.toNat).map utf8)
  let result := strings.1.request env self .unsubscribeTopics
    (.unsubscribeMany (w.clients self).mqttAsyncHandle count ⟨tpChrs, strings.2⟩ unsubOpt)
  let w := result.1.freeAll (strings.2.take count.toNat)
  (w.free tpChrs, result.2)

/-- `publish:properties:token:`; `none` when it would take `strlen` of `NULL`. -/
def publish (message : PahoPublishedMessage) (properties : PahoProperties) (w : World) :
    Option (World × ℤ) :=
  (mqttLenStringFromJSONObject message.payload).bind fun lenString =>
  (publishedProperties properties).map fun props =>
    let pubmsg : MQTTAsyncMessage :=
      { payload := lenString.data
        payloadlen := lenString.len
        retained := if message.retained then 1 else 0
        qos := message.qos
        properties := props }
    let responseOpt : MQTTAsyncResponseOptions :=
      { onSuccess5 := some .onPublishSuccess
        onFailure5 := some .onPublishFailue
        context := some (.client self) }
    let source := w.trace.length
    let result := w.call env self .publish
      (.sendMessage (w.clients self).mqttAsyncHandle (utf8String message.topic) pubmsg responseOpt)
    (result.1.emit [.tokenOut source result.2.token], result.2.rc)

/-- `isConnected`. -/
def isConnected (w : World) : World × ℤ :=
  match (w.clients self).mqttAsyncHandle with
  | none => (w, 0)
  | some handle =>
    let result := w.request env self .isConnected (.isConnected (some handle))
    (result.1, if result.2 = 1 then 1 else 0)

/-- `setServerURIs:`. The copies and the array are freed as soon as the options point to them; the
count of the options is not set. -/
def setServerURIs (serverURIs : Option (List NSString)) (w : World) : World :=
  let uris := serverURIs.getD []
  let count := cInt uris.length
  let tmpURIs := w.nextAddress
  let w := w.malloc
  let strings := w.strdup ((uris.take count.toNat).map utf8)
  let w := strings.1.modify self fun c =>
    { c with connectOpts := { c.connectOpts with serverURIs := some ⟨tmpURIs, strings.2⟩ } }
  let w := w.freeAll (strings.2.take count.toNat)
  let w := w.free tmpURIs
  w.modify self fun c => { c with serverURIs := serverURIs }

end Methods

end World

/-- What an application does with a client. -/
inductive Operation where
  | connect (username password : Option NSString)
      (userProperties : Option (NSDictionary PropertyObject))
  | disconnect
  | subscribe (topic : NSString) (qos : ℤ)
  | subscribeTopics (topics : List PahoTopic)
  | unsubscribeTopic (topic : NSString)
  | unsubscribeTopics (topics : List NSString)
  | publish (message : PahoPublishedMessage) (properties : PahoProperties)
  | isConnected
  | set (setter : ClientSetter)
  | setServerURIs (serverURIs : Option (List NSString))
  | setSSL (ssl : Option SSLId)

/-- The method an operation calls; an assignment calls none that is noted. -/
def Operation.method : Operation → Option Method
  | connect _ _ _ => some .connect
  | disconnect => some .disconnect
  | subscribe _ _ => some .subscribe
  | subscribeTopics _ => some .subscribeTopics
  | unsubscribeTopic _ => some .unsubscribeTopic
  | unsubscribeTopics _ => some .unsubscribeTopics
  | publish _ _ => some .publish
  | isConnected => some .isConnected
  | set _ => none
  | setServerURIs _ => none
  | setSSL _ => none

/-- The return of a method, noted in the history. -/
def World.returning (self : ClientId) (method : Method) (result : World × ℤ) : World :=
  result.1.emit [.returned self method result.2]

@[simp] theorem World.returning_clients (self : ClientId) (method : Method) (result : World × ℤ) :
    (World.returning self method result).clients = result.1.clients := rfl

def Operation.run (env : Env) (self : ClientId) (w : World) : Operation → Option World
  | connect username password userProperties => some (World.returning self .connect
      (w.connectWithUsername env self username password userProperties))
  | disconnect => some (World.returning self .disconnect (w.disconnect env self, 0))
  | subscribe topic qos => some (World.returning self .subscribe (w.subscribe env self topic qos))
  | subscribeTopics topics => some (World.returning self .subscribeTopics
      (w.subscribeTopics env self topics))
  | unsubscribeTopic topic => some (World.returning self .unsubscribeTopic
      (w.unsubscribeTopic env self topic))
  | unsubscribeTopics topics => some (World.returning self .unsubscribeTopics
      (w.unsubscribeTopics env self topics))
  | publish message properties =>
      (w.publish env self message properties).map (World.returning self .publish)
  | isConnected => some (World.returning self .isConnected (w.isConnected env self))
  | set setter => some (w.modify self setter.apply)
  | setServerURIs serverURIs => some (w.setServerURIs self serverURIs)
  | setSSL ssl => some (w.modify self fun c => { c with ssl := ssl })

/-- `dealloc` of a client. -/
def World.deallocClient (env : Env) (self : ClientId) (w : World) : World :=
  (w.emit [.dealloc (.client self)]).disconnect env self

/-- What an application does: operations on its clients, and assignments to its options objects. -/
inductive Action where
  | operation (client : ClientId) (op : Operation)
  | setSSLOption (ssl : SSLId) (setter : SSLSetter)

def World.act (env : Env) (w : World) : Action → Option World
  | .operation client op => op.run env client w
  | .setSSLOption ssl setter =>
    some { w with ssls := Function.update w.ssls ssl (setter.apply ssl (w.ssls ssl)) }

/-- Clients and options objects as initialized, with a delegate for each client. -/
def World.initial (clientIDs : ClientId → NSString) (delegates : ClientId → Option Delegate) :
    World where
  clients client :=
    { PahoClient.initWithClientID client (clientIDs client) with delegate := delegates client }
  ssls _ := {}

end CocoaPaho
