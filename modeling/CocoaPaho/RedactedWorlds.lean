import CocoaPaho.ClientSession
import CocoaPaho.PahoLogger

/-!
Worlds without their secrets. User names, passwords, what the options objects for SSL hold, and the
payloads and properties of messages are secrets. From worlds that differ in secrets only the methods of
a client, of which the library answers the calls alike, come to such worlds again.
-/

namespace CocoaPaho

open Base

def MQTTAsyncConnectOptions.redacted (options : MQTTAsyncConnectOptions) :
    MQTTAsyncConnectOptions :=
  { options with
    username := none
    password := none
    ssl := options.ssl.map fun _ => {} }

/-- What a message is besides its payload and its properties. -/
def MQTTAsyncMessage.redacted (msg : MQTTAsyncMessage) : MQTTAsyncMessage :=
  { msg with
    payloadlen := 0
    payload := none
    properties := [] }

def LibCall.redacted : LibCall → LibCall
  | connect handle options => .connect handle options.redacted
  | sendMessage handle destinationName msg response =>
      .sendMessage handle destinationName msg.redacted response
  | c => c

def Invocation.redacted : Invocation → Invocation
  | onMessageArrived arrival answer =>
      .onMessageArrived
        { arrival with msg := ⟨arrival.msg.address, arrival.msg.contents.redacted⟩ } answer
  | invocation => invocation

def Dispatch.redacted (d : Dispatch) : Dispatch := { d with invocation := d.invocation.redacted }

def Reply.redacted (r : Reply) : Reply := { r with window := r.window.map Dispatch.redacted }

/-- An event; what a callback did, the message it handed over with it, is secret. -/
def Event.redacted : Event → Event
  | call client method c r => .call client method c.redacted r.redacted
  | enter d _ => .enter d.redacted {}
  | leave d => .leave d.redacted
  | e => e

def PahoClient.redacted (c : PahoClient) : PahoClient :=
  { c with
    username := none
    password := none
    connectOpts := c.connectOpts.redacted }

def ClientSetter.redacted : ClientSetter → ClientSetter
  | username _ => .username none
  | password _ => .password none
  | setter => setter

/-- Of a payload is left whether it can be serialized and whether it is empty. -/
def JSONObject.redacted (jsonObj : JSONObject) : JSONObject where
  sortedKeysText := jsonObj.sortedKeysText.map fun _ => if jsonObj.isEmpty then "\x7b\x7d" else ""

def PahoPublishedMessage.redacted (message : PahoPublishedMessage) : PahoPublishedMessage :=
  { message with payload := message.payload.redacted }

/-- Of the properties of a message is left whether the two strings are there. -/
def PahoProperties.redacted (properties : PahoProperties) : PahoProperties where
  responseTopic := properties.responseTopic.map fun _ => ""
  correlation := properties.correlation.map fun _ => ""

def Operation.redacted : Operation → Operation
  | connect _ _ userProperties => .connect none none userProperties
  | publish message properties => .publish message.redacted properties.redacted
  | set setter => .set setter.redacted
  | op => op

/-- Two libraries answer alike where they see the same but for secrets. -/
structure AnsweredAlike (env env' : Env) : Prop where
  reply : ∀ t t' c c', t.map Event.redacted = t'.map Event.redacted → c.redacted = c'.redacted →
    (env.reply t c).redacted = (env'.reply t' c').redacted
  enableSSLConnection : env.enableSSLConnection = env'.enableSSLConnection

/-- Worlds that differ in secrets only. The options objects for SSL are secret. -/
structure World.Alike (w w' : World) : Prop where
  clients : ∀ i, (w.clients i).redacted = (w'.clients i).redacted
  trace : w.trace.map Event.redacted = w'.trace.map Event.redacted

/-- The same of the results of a method. -/
structure AlikeResults (r r' : World × ℤ) : Prop where
  world : r.1.Alike r'.1
  code : r.2 = r'.2

variable {env env' : Env} {w w' : World} {c c' : LibCall}

theorem Dispatch.redacted_redacted (d : Dispatch) : d.redacted.redacted = d.redacted := by
  obtain ⟨source, context, invocation⟩ := d
  cases invocation <;> rfl

theorem AnsweredAlike.refl_left (h : AnsweredAlike env env') : AnsweredAlike env env where
  reply := fun t t' c c' ht hc =>
    (h.reply t t' c c' ht hc).trans (h.reply t' t' c' c' rfl rfl).symm
  enableSSLConnection := rfl

theorem AnsweredAlike.symm (h : AnsweredAlike env env') : AnsweredAlike env' env where
  reply := fun t t' c c' ht hc => (h.reply t' t c' c ht.symm hc.symm).symm
  enableSSLConnection := h.enableSSLConnection.symm

/-- What can be read off the redacted value is the same of values that are alike. -/
theorem eq_of_redacted {α β : Type} (redact : α → α) {a a' : α} (look : α → β)
    (hlook : ∀ a, look (redact a) = look a) (h : redact a = redact a') : look a = look a' := by
  rw [← hlook a, h, hlook a']

theorem LibCall.redacted_connect {c c' : PahoClient} {handle handle' : Option Handle}
    (hhandle : handle = handle') (hc : c.redacted = c'.redacted) :
    (LibCall.connect handle c.connectOpts).redacted =
      (LibCall.connect handle' c'.connectOpts).redacted := by
  have hoptions : c.connectOpts.redacted = c'.connectOpts.redacted :=
    eq_of_redacted PahoClient.redacted (fun c => c.connectOpts.redacted) (fun c => by
      simp [PahoClient.redacted, MQTTAsyncConnectOptions.redacted, Function.comp_def]) hc
  rw [LibCall.redacted, LibCall.redacted, hhandle, hoptions]

namespace World.Alike

theorem handle (h : w.Alike w') (i : ClientId) :
    (w.clients i).mqttAsyncHandle = (w'.clients i).mqttAsyncHandle :=
  eq_of_redacted PahoClient.redacted PahoClient.mqttAsyncHandle (fun _ => rfl) (h.clients i)

theorem clientID (h : w.Alike w') (i : ClientId) :
    (w.clients i).clientID = (w'.clients i).clientID :=
  eq_of_redacted PahoClient.redacted PahoClient.clientID (fun _ => rfl) (h.clients i)

theorem ssl (h : w.Alike w') (i : ClientId) : (w.clients i).ssl = (w'.clients i).ssl :=
  eq_of_redacted PahoClient.redacted PahoClient.ssl (fun _ => rfl) (h.clients i)

theorem length_trace (h : w.Alike w') : w.trace.length = w'.trace.length := by
  simpa using congrArg List.length h.trace

theorem emit (h : w.Alike w') {events events' : List Event}
    (he : events.map Event.redacted = events'.map Event.redacted) :
    (w.emit events).Alike (w'.emit events') where
  clients := h.clients
  trace := by rw [emit_trace, emit_trace, List.map_append, List.map_append, h.trace, he]

theorem emit_same (h : w.Alike w') (events : List Event) :
    (w.emit events).Alike (w'.emit events) := h.emit rfl

theorem modify (h : w.Alike w') (self : ClientId) {f f' : PahoClient → PahoClient}
    (hf : ∀ c c' : PahoClient, c.redacted = c'.redacted → (f c).redacted = (f' c').redacted) :
    (w.modify self f).Alike (w'.modify self f') where
  clients := fun i => by
    by_cases hi : i = self
    · rw [hi, modify_self, modify_self]
      exact hf _ _ (h.clients self)
    · rw [modify_of_ne w hi, modify_of_ne w' hi]
      exact h.clients i
  trace := h.trace

/-- The events of a call and of the callbacks in its window. -/
theorem answer (henv : AnsweredAlike env env') (h : w.Alike w') (self : ClientId)
    (method : Method) (hc : c.redacted = c'.redacted) :
    (w.answer env self method c w.trace).map Event.redacted =
      (w'.answer env' self method c' w'.trace).map Event.redacted := by
  have hreply := henv.reply _ _ c c' h.trace hc
  have hdispatches : ∀ (u : World) (ds : List Dispatch),
      (ds.flatMap u.dispatch).map Event.redacted =
        (ds.map Dispatch.redacted).flatMap fun d => [.enter d {}, .leave d] := by
    intro u ds
    rw [List.map_flatMap, List.flatMap_map]
    rfl
  have hwindow : (env.reply w.trace c).window.map Dispatch.redacted =
      (env'.reply w'.trace c').window.map Dispatch.redacted := congrArg Reply.window hreply
  rw [World.answer, World.answer, List.map_cons, List.map_cons, hdispatches, hdispatches, hwindow,
    Event.redacted, Event.redacted, hreply, hc]

theorem call (henv : AnsweredAlike env env') (h : w.Alike w') (self : ClientId) (method : Method)
    (hc : c.redacted = c'.redacted) :
    (w.call env self method c).1.Alike (w'.call env' self method c').1 ∧
      (w.call env self method c).2.redacted = (w'.call env' self method c').2.redacted :=
  ⟨h.emit (h.answer henv self method hc), henv.reply _ _ c c' h.trace hc⟩

theorem request (henv : AnsweredAlike env env') (h : w.Alike w') (self : ClientId)
    (method : Method) (hc : c.redacted = c'.redacted) :
    AlikeResults (w.request env self method c) (w'.request env' self method c') := by
  obtain ⟨hworld, hreply⟩ := h.call henv self method hc
  exact ⟨hworld, eq_of_redacted Reply.redacted Reply.rc (fun _ => rfl) hreply⟩

theorem redacted_setHandle (handle : Option Handle) {c c' : PahoClient}
    (hc : c.redacted = c'.redacted) :
    { c with mqttAsyncHandle := handle : PahoClient }.redacted =
      { c' with mqttAsyncHandle := handle : PahoClient }.redacted :=
  congrArg (fun c : PahoClient => { c with mqttAsyncHandle := handle }) hc

theorem redacted_setURIs (uris : Option (Buffer (List (Buffer CString)))) {c c' : PahoClient}
    (hc : c.redacted = c'.redacted) :
    { c with connectOpts := { c.connectOpts with serverURIs := uris } : PahoClient }.redacted =
      { c' with connectOpts := { c'.connectOpts with serverURIs := uris } : PahoClient }.redacted :=
  congrArg (fun c : PahoClient =>
    { c with connectOpts := { c.connectOpts with serverURIs := uris } }) hc

/-- An update of the handle to equal values. -/
theorem setHandle (h : w.Alike w') (self : ClientId) {handle handle' : Option Handle}
    (hhandle : handle = handle') :
    (w.modify self fun c => { c with mqttAsyncHandle := handle }).Alike
      (w'.modify self fun c => { c with mqttAsyncHandle := handle' }) := by
  subst hhandle
  exact h.modify self fun c c' hc => redacted_setHandle handle hc

theorem destroy (henv : AnsweredAlike env env') (h : w.Alike w') (self : ClientId)
    (method : Method) :
    (w.destroy env self method).Alike (w'.destroy env' self method) := by
  have hcall : (LibCall.destroy (w.clients self).mqttAsyncHandle).redacted =
      (LibCall.destroy (w'.clients self).mqttAsyncHandle).redacted := by rw [h.handle]
  obtain ⟨hworld, hreply⟩ := h.call henv self method hcall
  exact hworld.setHandle self (eq_of_redacted Reply.redacted Reply.handle (fun _ => rfl) hreply)

theorem create (henv : AnsweredAlike env env') (h : w.Alike w') (self : ClientId) :
    AlikeResults (w.create env self) (w'.create env' self) := by
  have hhost : (w.clients self).hostAndPort = (w'.clients self).hostAndPort :=
    eq_of_redacted PahoClient.redacted PahoClient.hostAndPort (fun _ => rfl) (h.clients self)
  have hcall : (LibCall.createWithOptions (utf8String (w.clients self).hostAndPort)
        (utf8String (some (w.clients self).clientID))).redacted =
      (LibCall.createWithOptions (utf8String (w'.clients self).hostAndPort)
        (utf8String (some (w'.clients self).clientID))).redacted := by rw [hhost, h.clientID]
  obtain ⟨hworld, hreply⟩ := h.call henv self .connect hcall
  have hhandle := eq_of_redacted Reply.redacted Reply.handle (fun _ => rfl) hreply
  unfold World.create
  constructor
  · dsimp only
    refine World.Alike.modify hworld self fun c c' hc => ?_
    have hold := eq_of_redacted PahoClient.redacted PahoClient.mqttAsyncHandle (fun _ => rfl) hc
    rw [hhandle, hold]
    exact redacted_setHandle _ hc
  · exact eq_of_redacted Reply.redacted Reply.rc (fun _ => rfl) hreply

theorem disconnect (henv : AnsweredAlike env env') (h : w.Alike w') (self : ClientId) :
    (w.disconnect env self).Alike (w'.disconnect env' self) := by
  unfold World.disconnect
  rw [h.handle]
  split
  · exact h
  · exact (h.call henv self .disconnect rfl).1.destroy henv self .disconnect

theorem setConnected (henv : AnsweredAlike env env') (h : w.Alike w') (self : ClientId) :
    AlikeResults (w.setConnected env self) (w'.setConnected env' self) :=
  h.request henv self .connect (by rw [h.handle])

theorem setCallbacks (henv : AnsweredAlike env env') (h : w.Alike w') (self : ClientId) :
    AlikeResults (w.setCallbacks env self) (w'.setCallbacks env' self) :=
  h.request henv self .connect (by rw [h.handle])

theorem fillConnectOpts (henv : AnsweredAlike env env') (h : w.Alike w') (self : ClientId)
    (userProperties : Option (NSDictionary PropertyObject)) :
    (w.fillConnectOpts env self userProperties).Alike
      (w'.fillConnectOpts env' self userProperties) := by
  have hssl : (if env.enableSSLConnection then
        w.modify self fun c => { c with connectOpts := { c.connectOpts with
          ssl := (w.clients self).ssl.map fun ssl => (w.ssls ssl).sslOptions } } else w).Alike
      (if env'.enableSSLConnection then
        w'.modify self fun c => { c with connectOpts := { c.connectOpts with
          ssl := (w'.clients self).ssl.map fun ssl => (w'.ssls ssl).sslOptions } } else w') := by
    rw [henv.enableSSLConnection]
    split_ifs
    · refine h.modify self fun c c' hc => ?_
      simp only [PahoClient.redacted, MQTTAsyncConnectOptions.redacted, PahoClient.mk.injEq,
        MQTTAsyncConnectOptions.mk.injEq] at hc ⊢
      simp only [hc, h.ssl, Option.map_map, Function.comp_def, and_self]
    · exact h
  unfold World.fillConnectOpts
  dsimp only
  split
  · exact hssl
  · refine hssl.modify self fun c c' hc => ?_
    simp only [PahoClient.redacted, MQTTAsyncConnectOptions.redacted, PahoClient.mk.injEq,
      MQTTAsyncConnectOptions.mk.injEq] at hc ⊢
    simp only [hc, and_self]

/-- `MQTTAsync_connect` with the filled options, which lose the user properties again. -/
theorem connect (henv : AnsweredAlike env env') (h : w.Alike w') (self : ClientId) :
    AlikeResults
      (let result := w.request env self .connect
          (.connect (w.clients self).mqttAsyncHandle (w.clients self).connectOpts);
        (result.1.modify self fun c =>
          { c with connectOpts := { c.connectOpts with connectProperties := none } }, result.2))
      (let result := w'.request env' self .connect
          (.connect (w'.clients self).mqttAsyncHandle (w'.clients self).connectOpts);
        (result.1.modify self fun c =>
          { c with connectOpts := { c.connectOpts with connectProperties := none } }, result.2)) := by
  have hcall := h.request henv self .connect
    (LibCall.redacted_connect (h.handle self) (h.clients self))
  constructor
  · dsimp only
    refine hcall.world.modify self fun c c' hc => ?_
    exact congrArg (fun c : PahoClient =>
      { c with connectOpts := { c.connectOpts with connectProperties := none } }) hc
  · exact hcall.code

/-- An assignment, and the same one without its secret. -/
theorem set (h : w.Alike w') (self : ClientId) (setter : ClientSetter) :
    (w.modify self setter.apply).Alike (w'.modify self setter.redacted.apply) := by
  have hsetter : ∀ (setter : ClientSetter) (c : PahoClient),
      (setter.apply c).redacted = setter.redacted.apply c.redacted := by
    intro setter c
    cases setter <;> rfl
  have htwice : setter.redacted.redacted = setter.redacted := by
    cases setter <;> rfl
  refine h.modify self fun c c' hc => ?_
  rw [hsetter, hsetter, htwice, hc]

theorem setSSL (h : w.Alike w') (self : ClientId) (ssl : Option SSLId) :
    (w.modify self fun c => { c with ssl := ssl }).Alike
      (w'.modify self fun c => { c with ssl := ssl }) :=
  h.modify self fun _ _ hc => congrArg (fun c : PahoClient => { c with ssl := ssl }) hc

theorem nextAddress (h : w.Alike w') : w.nextAddress = w'.nextAddress := by
  have hcount : ∀ t : List Event, t.countP isMalloc = (t.map Event.redacted).countP isMalloc := by
    intro t
    rw [List.countP_map]
    refine List.countP_congr fun e _ => ?_
    cases e <;> rfl
  rw [World.nextAddress, World.nextAddress, hcount, hcount w'.trace, h.trace]

theorem malloc (h : w.Alike w') : w.malloc.Alike w'.malloc := by
  unfold World.malloc
  rw [h.nextAddress]
  exact h.emit_same _

theorem free (h : w.Alike w') (address : ℕ) : (w.free address).Alike (w'.free address) :=
  h.emit_same _

theorem strdup (h : w.Alike w') (strings : List CString) :
    (w.strdup strings).1.Alike (w'.strdup strings).1 ∧
      (w.strdup strings).2 = (w'.strdup strings).2 := by
  induction strings generalizing w w' with
  | nil => exact ⟨h, rfl⟩
  | cons s ss ih =>
      obtain ⟨hworld, hbuffers⟩ := ih h.malloc
      refine ⟨hworld, ?_⟩
      rw [World.strdup, World.strdup, hbuffers, h.nextAddress]

theorem freeAll {α : Type} (h : w.Alike w') (buffers : List (Buffer α)) :
    (w.freeAll buffers).Alike (w'.freeAll buffers) := by
  induction buffers generalizing w w' with
  | nil => exact h
  | cons buffer buffers ih => exact ih (h.free buffer.address)

/-- The freed copies and the array of a server list. -/
theorem setServerURIs (h : w.Alike w') (self : ClientId) (serverURIs : Option (List NSString)) :
    (w.setServerURIs self serverURIs).Alike (w'.setServerURIs self serverURIs) := by
  obtain ⟨hcopied, hbuffers⟩ := h.malloc.strdup
    (((serverURIs.getD []).take (cInt (serverURIs.getD []).length).toNat).map utf8)
  unfold World.setServerURIs
  dsimp only
  rw [h.nextAddress, hbuffers]
  refine World.Alike.modify (World.Alike.free (World.Alike.freeAll
    (hcopied.modify self fun c c' hc => ?_) _) _) self fun c c' hc => ?_
  · exact redacted_setURIs _ hc
  · exact congrArg (fun c : PahoClient => { c with serverURIs := serverURIs }) hc

variable (henv : AnsweredAlike env env')
include henv

theorem subscribe (h : w.Alike w') (self : ClientId) (topic : NSString) (qos : ℤ) :
    AlikeResults (w.subscribe env self topic qos) (w'.subscribe env' self topic qos) :=
  h.request henv self .subscribe (by rw [h.handle])

theorem unsubscribeTopic (h : w.Alike w') (self : ClientId) (topic : NSString) :
    AlikeResults (w.unsubscribeTopic env self topic) (w'.unsubscribeTopic env' self topic) :=
  h.request henv self .unsubscribeTopic (by rw [h.handle])

/-- The request of a batch, between the copying of its strings and their release. -/
theorem batch (h : w.Alike w') (self : ClientId) (method : Method) (strings : List CString)
    (count : ℕ) (address : ℕ) (make : Option Handle → List (Buffer CString) → LibCall)
    {handle handle' : Option Handle} (hhandle : handle = handle') :
    AlikeResults
      (((((w.strdup strings).1.request env self method (make handle (w.strdup strings).2)).1).freeAll
          ((w.strdup strings).2.take count)).free address,
        ((w.strdup strings).1.request env self method (make handle (w.strdup strings).2)).2)
      (((((w'.strdup strings).1.request env' self method
          (make handle' (w'.strdup strings).2)).1).freeAll
          ((w'.strdup strings).2.take count)).free address,
        ((w'.strdup strings).1.request env' self method (make handle' (w'.strdup strings).2)).2) := by
  obtain ⟨hcopied, hbuffers⟩ := h.strdup strings
  have hmake : (make handle (w.strdup strings).2).redacted =
      (make handle' (w'.strdup strings).2).redacted := by rw [hhandle, hbuffers]
  have hcall := hcopied.request henv self method hmake
  rw [hbuffers] at hcall ⊢
  exact ⟨(hcall.world.freeAll _).free address, hcall.code⟩

theorem subscribeTopics (h : w.Alike w') (self : ClientId) (topics : List PahoTopic) :
    AlikeResults (w.subscribeTopics env self topics) (w'.subscribeTopics env' self topics) := by
  have hbatch := h.malloc.malloc.batch henv self .subscribeTopics
    (topics.map fun topic => utf8 topic.topic) (cInt topics.length).toNat w'.malloc.nextAddress
    (fun handle strings => .subscribeMany handle (cInt topics.length)
      ⟨w'.malloc.nextAddress, strings⟩ ⟨w'.nextAddress, topics.map PahoTopic.qos⟩
      { context := some (.client self)
        onSuccess5 := some .onSubscribeSuccess
        onFailure5 := some .onSubscribeFailue }) (h.malloc.malloc.handle self)
  unfold World.subscribeTopics
  dsimp only
  rw [h.nextAddress, h.malloc.nextAddress]
  exact hbatch

theorem unsubscribeTopics (h : w.Alike w') (self : ClientId) (topics : List NSString) :
    AlikeResults (w.unsubscribeTopics env self topics) (w'.unsubscribeTopics env' self topics) := by
  have hbatch := h.malloc.batch henv self .unsubscribeTopics
    ((topics.take (cInt topics.length).toNat).map utf8) (cInt topics.length).toNat w'.nextAddress
    (fun handle strings => .unsubscribeMany handle (cInt topics.length)
      ⟨w'.nextAddress, strings⟩ {}) (h.malloc.handle self)
  unfold World.unsubscribeTopics
  dsimp only
  rw [h.nextAddress]
  exact hbatch

theorem isConnected (h : w.Alike w') (self : ClientId) :
    AlikeResults (w.isConnected env self) (w'.isConnected env' self) := by
  unfold World.isConnected
  rw [h.handle]
  split
  · exact ⟨h, rfl⟩
  · next handle _ =>
      have hsame : (LibCall.isConnected (some handle)).redacted =
          (LibCall.isConnected (some handle)).redacted := rfl
      have hcall := h.request henv self .isConnected hsame
      exact ⟨hcall.world, by dsimp only; rw [hcall.code]⟩

/-- The request of a publish, with the token it writes out. -/
theorem sendMessage (h : w.Alike w') (self : ClientId) (destinationName : Option CString)
    {msg msg' : MQTTAsyncMessage} (hmsg : msg.redacted = msg'.redacted)
    (response : MQTTAsyncResponseOptions) :
    AlikeResults
      (let result := w.call env self .publish
          (.sendMessage (w.clients self).mqttAsyncHandle destinationName msg response);
        (result.1.emit [.tokenOut w.trace.length result.2.token], result.2.rc))
      (let result := w'.call env' self .publish
          (.sendMessage (w'.clients self).mqttAsyncHandle destinationName msg' response);
        (result.1.emit [.tokenOut w'.trace.length result.2.token], result.2.rc)) := by
  have hcall : (LibCall.sendMessage (w.clients self).mqttAsyncHandle destinationName msg
        response).redacted =
      (LibCall.sendMessage (w'.clients self).mqttAsyncHandle destinationName msg'
        response).redacted := by
    rw [LibCall.redacted, LibCall.redacted, hmsg, h.handle]
  obtain ⟨hworld, hreply⟩ := h.call henv self .publish hcall
  constructor
  · refine hworld.emit ?_
    rw [h.length_trace, eq_of_redacted Reply.redacted Reply.token (fun _ => rfl) hreply]
  · exact eq_of_redacted Reply.redacted Reply.rc (fun _ => rfl) hreply

/-- A publish goes through with its payload and properties when it goes through without. -/
theorem publish (h : w.Alike w') (self : ClientId) (message : PahoPublishedMessage)
    (properties : PahoProperties) :
    Option.Rel AlikeResults (w.publish env self message properties)
      (w'.publish env' self message.redacted properties.redacted) := by
  have hpayload : ∃ lenString, mqttLenStringFromJSONObject message.redacted.payload =
      (mqttLenStringFromJSONObject message.payload).map fun _ => lenString := by
    refine ⟨mqttLenString (if message.payload.isEmpty then "\x7b\x7d" else ""), ?_⟩
    rw [PahoPublishedMessage.redacted, mqttLenStringFromJSONObject, mqttLenStringFromJSONObject,
      JSONObject.redacted, mqttLenStringFromNSString, mqttLenStringFromNSString, Option.map_map,
      Option.map_map]
    rfl
  have hproperties : ∃ props, publishedProperties properties.redacted =
      (publishedProperties properties).map fun _ => props := by
    obtain ⟨responseTopic, correlation, userProperties⟩ := properties
    cases responseTopic with
    | none => exact ⟨[], rfl⟩
    | some responseTopic =>
        cases correlation with
        | none => exact ⟨[], rfl⟩
        | some correlation => exact ⟨_, rfl⟩
  obtain ⟨lenString', hpayload⟩ := hpayload
  obtain ⟨props', hproperties⟩ := hproperties
  unfold World.publish
  rw [hpayload, hproperties]
  cases mqttLenStringFromJSONObject message.payload with
  | none => exact .none
  | some lenString =>
      cases publishedProperties properties with
      | none => exact .none
      | some props =>
          refine .some (h.sendMessage henv self _ ?_ _)
          rfl

end World.Alike

end CocoaPaho
