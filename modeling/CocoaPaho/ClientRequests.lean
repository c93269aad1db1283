import CocoaPaho.ClientLifecycle
import CocoaPaho.PropertiesDecoding

/-!
What the requests of a client hand to the library. A batch of topics makes one call in place of many
and is compared with the requests for its topics one by one; a publish gets through to its one call or
stops at a missing string, and a reply is published with the properties decoded from the request.
-/

namespace CocoaPaho

open Base

/-- A call of the history with what the library answered. -/
def Event.callMade : Event → Option (LibCall × Reply)
  | .call _ _ c r => some (c, r)
  | _ => none

def callsOf (t : List Event) : List (LibCall × Reply) := t.filterMap Event.callMade

/-- The calls made between two moments. -/
def Adds (w w' : World) (cs : List LibCall) : Prop :=
  ∃ made, callsOf w'.trace = callsOf w.trace ++ made ∧ made.map Prod.fst = cs

variable {env : Env} {self : ClientId} {w w' w'' : World} {cs cs' : List LibCall}

theorem readsCalls_callMade : ReadsCalls Event.callMade := by
  intro e he
  cases e with
  | call client method c r => cases he
  | _ => rfl

theorem callsOf_call (env : Env) (self : ClientId) (method : Method) (c : LibCall) (w : World) :
    callsOf (w.call env self method c).1.trace =
      callsOf w.trace ++ [(c, (w.call env self method c).2)] :=
  filterMap_call readsCalls_callMade env self method c w

theorem Adds.refl (w : World) : Adds w w [] := ⟨[], by simp, rfl⟩

theorem Adds.trans (h : Adds w w' cs) (h' : Adds w' w'' cs') : Adds w w'' (cs ++ cs') := by
  obtain ⟨made, hmade, rfl⟩ := h
  obtain ⟨made', hmade', rfl⟩ := h'
  exact ⟨made ++ made', by rw [hmade', hmade, List.append_assoc], List.map_append⟩

theorem Silent.adds (h : Silent w w') : Adds w w' [] :=
  ⟨[], (filterMap_silent readsCalls_callMade h).trans (List.append_nil _).symm, rfl⟩

theorem adds_request (env : Env) (self : ClientId) (method : Method) (c : LibCall) (w : World) :
    Adds w (w.request env self method c).1 [c] :=
  ⟨[(c, (w.call env self method c).2)], callsOf_call env self method c w, rfl⟩

/-- Requests one after another are made on one handle. -/
theorem adds_requests {α : Type} (env : Env) (self : ClientId) (method : Method)
    (c : Option Handle → α → LibCall) (l : List α) (w : World) :
    Adds w (l.foldl (fun w a =>
      (w.request env self method (c (w.clients self).mqttAsyncHandle a)).1) w)
      (l.map (c (w.clients self).mqttAsyncHandle)) := by
  induction l generalizing w with
  | nil => exact Adds.refl w
  | cons a l ih =>
      have hfirst := adds_request env self method (c (w.clients self).mqttAsyncHandle a) w
      have hrest := ih (w.request env self method (c (w.clients self).mqttAsyncHandle a)).1
      rw [request_handle] at hrest
      exact hfirst.trans hrest

namespace LibCall

/-- The topics a call is about, each as the characters of its C string, and with its quality where the
call has one. Of an array the library reads as many entries as it is told. -/
def topics : LibCall → List (Option (List UInt8) × Option ℤ)
  | subscribe _ topic qos _ => [(topic.map cText, some qos)]
  | subscribeMany _ count topic qos _ =>
      (List.zipWith (fun string q => (some (cText string.contents), some q))
        topic.contents qos.contents).take count.toNat
  | unsubscribe _ topic _ => [(topic.map cText, none)]
  | unsubscribeMany _ count topic _ =>
      (topic.contents.map fun string => (some (cText string.contents), none)).take count.toNat
  | _ => []

/-- The number of topics a call announces. -/
def topicCount : LibCall → ℤ
  | subscribe _ _ _ _ => 1
  | subscribeMany _ count _ _ _ => count
  | unsubscribe _ _ _ => 1
  | unsubscribeMany _ count _ _ => count
  | _ => 0

end LibCall

/-- What the delegates are told when the library reports an outcome of a call: it invokes the
functions registered by the call that are of the outcome's kind. -/
def World.told (w : World) (c : LibCall) (outcome : Invocation) : List DelegateCall :=
  (c.registered.filter fun p => p.2 = outcome.fn).flatMap fun p =>
    (runCallback w.clients p.1 w.ssls outcome).delegateCalls

/-- One call asks for what several others ask for, in their order, on the same handle. -/
structure LibCall.AsksFor (batch : LibCall) (singles : List LibCall) : Prop where
  handle : ∀ c ∈ singles, batch.handle = c.handle
  topics : batch.topics = singles.flatMap LibCall.topics
  count : batch.topicCount = singles.length

/-- One call stands for several others: it asks for the same, and it registers the context and the
functions that each of them registers, so that the delegate is told the same. -/
structure World.StandsFor (w : World) (batch : LibCall) (singles : List LibCall) : Prop
    extends batch.AsksFor singles where
  registered : ∀ c ∈ singles, batch.registered = c.registered
  told : ∀ c ∈ singles, ∀ outcome, w.told batch outcome = w.told c outcome

theorem standsFor_iff {batch : LibCall} {singles : List LibCall} (h : batch.AsksFor singles) :
    w.StandsFor batch singles ↔ ∀ c ∈ singles, batch.registered = c.registered := by
  constructor
  · exact fun hstands => hstands.registered
  · intro hregistered
    refine { h with registered := hregistered, told := fun c hc outcome => ?_ }
    rw [World.told, World.told, hregistered c hc]

theorem cText_cText (b : CString) : cText (cText b) = cText b := by
  rw [cText, cText, List.takeWhile_takeWhile]
  simp

/-- The call of `subscribe:qos:` for a topic. -/
def subscribeCall (client : ClientId) (handle : Option Handle) (topic : PahoTopic) : LibCall :=
  .subscribe handle (utf8String (some topic.topic)) topic.qos
    { context := some (.client client)
      onSuccess5 := some .onSubscribeSuccess
      onFailure5 := some .onSubscribeFailue }

/-- The call of `unsubscribeTopic:` for a topic. -/
def unsubscribeCall (client : ClientId) (handle : Option Handle) (topic : NSString) : LibCall :=
  .unsubscribe handle (utf8String (some topic))
    { onSuccess5 := some .onUnsubscribeSuccess
      onFailure5 := some .onUnsubscribeFailue
      context := some (.client client) }

/-- Read as C strings, copies are the strings they were made of. -/
theorem map_strdup_cText {β : Type} (f : List UInt8 → β) (strings : List CString) (w : World) :
    (w.strdup strings).2.map (fun string => f (cText string.contents)) =
      strings.map fun string => f (cText string) := by
  calc (w.strdup strings).2.map (fun string => f (cText string.contents))
      = ((w.strdup strings).2.map Buffer.contents).map fun text => f (cText text) := by
        rw [List.map_map]
        rfl
    _ = strings.map fun string => f (cText string) := by
        rw [World.strdup_contents, List.map_map]
        exact List.map_congr_left fun string _ => congrArg f (cText_cText string)

/-- The copies of a batch, each with its quality, are those of its topics. -/
theorem zipWith_strdup (topics : List PahoTopic) (w : World) :
    List.zipWith (fun (string : Buffer CString) (q : ℤ) => (some (cText string.contents), some q))
        (w.strdup (topics.map fun topic => utf8 topic.topic)).2 (topics.map PahoTopic.qos) =
      topics.map fun topic => (some (cText (utf8 topic.topic)), some topic.qos) := by
  have hcopies := map_strdup_cText (fun text => some text)
    (topics.map fun topic => utf8 topic.topic) w
  calc List.zipWith (fun string q => (some (cText string.contents), some q))
        (w.strdup (topics.map fun topic => utf8 topic.topic)).2 (topics.map PahoTopic.qos)
      = List.zipWith (fun text q => (text, some q))
          ((w.strdup (topics.map fun topic => utf8 topic.topic)).2.map
            fun string => some (cText string.contents)) (topics.map PahoTopic.qos) := by
        rw [List.zipWith_map_left]
    _ = topics.map fun topic => (some (cText (utf8 topic.topic)), some topic.qos) := by
        rw [hcopies, List.map_map, List.zipWith_map, List.zipWith_self]
        rfl

theorem subscribeTopics_adds (env : Env) (self : ClientId) (w : World) {topics : List PahoTopic}
    (hlen : topics.length < 2147483648) :
    ∃ batch, Adds w (w.subscribeTopics env self topics).1 [batch] ∧
      batch.AsksFor (topics.map (subscribeCall self (w.clients self).mqttAsyncHandle)) ∧
      ∀ handle topic, batch.registered = (subscribeCall self handle topic).registered := by
  have hcopied := (Silent.malloc w).trans
    (Silent.copied w.malloc (topics.map fun topic => utf8 topic.topic))
  have hcount : cInt topics.length = topics.length := cInt_of_lt hlen
  unfold World.subscribeTopics
  dsimp only
  refine ⟨_, (hcopied.adds.trans (adds_request env self .subscribeTopics _ _)).trans
    (Silent.released _ _ _).adds, ⟨?_, ?_, ?_⟩, fun _ _ => rfl⟩
  · intro c hc
    obtain ⟨topic, -, rfl⟩ := List.mem_map.1 hc
    rfl
  · rw [List.flatMap_map, LibCall.topics, zipWith_strdup, hcount, Int.toNat_natCast,
      List.take_of_length_le (by simp), List.map_eq_flatMap]
    rfl
  · rw [LibCall.topicCount, hcount, List.length_map]

theorem unsubscribeTopics_adds (env : Env) (self : ClientId) (w : World) {topics : List NSString}
    (hlen : topics.length < 2147483648) :
    ∃ batch, Adds w (w.unsubscribeTopics env self topics).1 [batch] ∧
      batch.AsksFor (topics.map (unsubscribeCall self (w.clients self).mqttAsyncHandle)) ∧
      batch.registered = [] := by
  have hcount : cInt topics.length = topics.length := cInt_of_lt hlen
  have hall : (cInt topics.length).toNat = topics.length := by rw [hcount, Int.toNat_natCast]
  unfold World.unsubscribeTopics
  dsimp only
  rw [hall, List.take_length]
  have hcopied := Silent.copied w (topics.map utf8)
  refine ⟨_, (hcopied.adds.trans (adds_request env self .unsubscribeTopics _ _)).trans
    (Silent.released _ _ _).adds, ⟨?_, ?_, ?_⟩, rfl⟩
  · intro c hc
    obtain ⟨topic, -, rfl⟩ := List.mem_map.1 hc
    rfl
  · rw [List.flatMap_map, LibCall.topics, map_strdup_cText fun text => (some text, none),
      List.map_map, hall, List.take_of_length_le (by simp), List.map_eq_flatMap]
    rfl
  · rw [LibCall.topicCount, hcount, List.length_map]

/-- **A batch in place of single requests.** A batch of subscriptions stands for the subscriptions of
its topics one by one. A batch of unsubscriptions asks for what the single ones ask for, and stands
for them only when it is empty: it registers nothing. -/
theorem batch_standsFor_iff (env : Env) (self : ClientId) (w : World) :
    (∀ topics : List PahoTopic, topics.length < 2147483648 → ∃ batch singles,
      Adds w (w.subscribeTopics env self topics).1 [batch] ∧
      Adds w (topics.foldl (fun w topic => (w.subscribe env self topic.topic topic.qos).1) w)
        singles ∧
      singles.length = topics.length ∧ w.StandsFor batch singles) ∧
    ∀ topics : List NSString, topics.length < 2147483648 → ∃ batch singles,
      Adds w (w.unsubscribeTopics env self topics).1 [batch] ∧
      Adds w (topics.foldl (fun w topic => (w.unsubscribeTopic env self topic).1) w) singles ∧
      singles.length = topics.length ∧ batch.AsksFor singles ∧
      (w.StandsFor batch singles ↔ topics = []) := by
  constructor
  · intro topics hlen
    obtain ⟨batch, hbatch, hasks, hregistered⟩ := subscribeTopics_adds env self w hlen
    refine ⟨batch, _, hbatch, adds_requests env self .subscribe (subscribeCall self) topics w,
      List.length_map _, (standsFor_iff hasks).2 fun c hc => ?_⟩
    obtain ⟨topic, -, rfl⟩ := List.mem_map.1 hc
    exact hregistered _ topic
  · intro topics hlen
    obtain ⟨batch, hbatch, hasks, hregistered⟩ := unsubscribeTopics_adds env self w hlen
    refine ⟨batch, _, hbatch,
      adds_requests env self .unsubscribeTopic (unsubscribeCall self) topics w,
      List.length_map _, hasks, ?_⟩
    rw [standsFor_iff hasks, hregistered]
    cases topics with
    | nil => exact iff_of_true (by simp) rfl
    | cons topic topics =>
        refine iff_of_false (fun h => ?_) (by simp)
        exact absurd (h _ List.mem_cons_self) (by
          simp [unsubscribeCall, LibCall.registered, LibCall.completions])

/-- A client with a delegate, before it does anything. -/
def freshWorld : World := World.initial (fun _ => "c") fun _ => some 0

theorem batch_standsFor_two :
    ∃ batch singles,
      Adds freshWorld (freshWorld.subscribeTopics obligingEnv 0 [⟨"a", 0⟩, ⟨"b", 2⟩]).1 [batch] ∧
      singles.length = 2 ∧ freshWorld.StandsFor batch singles := by
  obtain ⟨batch, singles, hbatch, -, hlength, hstands⟩ :=
    (batch_standsFor_iff obligingEnv 0 freshWorld).1 [⟨"a", 0⟩, ⟨"b", 2⟩] (by decide)
  exact ⟨batch, singles, hbatch, hlength, hstands⟩

/-- When the library has unsubscribed a client from a topic, the delegate is told if the topic was
given by itself, and not if it was given as an array of one. -/
theorem unsubscribeTopics_tells_no_one :
    ∃ batch single, Adds freshWorld (freshWorld.unsubscribeTopics obligingEnv 0 ["a"]).1 [batch] ∧
      Adds freshWorld (freshWorld.unsubscribeTopic obligingEnv 0 "a").1 [single] ∧
      ¬ freshWorld.StandsFor batch [single] ∧
      ∀ response, freshWorld.told batch (.success .onUnsubscribeSuccess response) = [] ∧
        freshWorld.told single (.success .onUnsubscribeSuccess response) ≠ [] := by
  obtain ⟨batch, hbatch, -, hnone⟩ :=
    @unsubscribeTopics_adds obligingEnv 0 freshWorld ["a"] (by decide)
  refine ⟨batch, unsubscribeCall 0 none "a", hbatch,
    adds_request obligingEnv 0 .unsubscribeTopic (unsubscribeCall 0 none "a") freshWorld,
    fun h => ?_, fun response => ⟨?_, ?_⟩⟩
  · have hregistered := h.registered _ (List.mem_singleton_self _)
    rw [hnone] at hregistered
    cases hregistered
  · rw [World.told, hnone]
    rfl
  · exact List.cons_ne_nil _ _

/-- The call of `publish:properties:token:` for a message. -/
def publishCall (client : ClientId) (handle : Option Handle) (message : PahoPublishedMessage)
    (msg : MQTTAsyncMessage) : LibCall :=
  .sendMessage handle (utf8String message.topic) msg
    { onSuccess5 := some .onPublishSuccess
      onFailure5 := some .onPublishFailue
      context := some (.client client) }

/-- A publish that gets through: it makes one call, `MQTTAsync_sendMessage` with the given message, and
last it writes out the token of the answer. -/
def World.Sends (env : Env) (self : ClientId) (message : PahoPublishedMessage)
    (properties : PahoProperties) (w : World) (msg : MQTTAsyncMessage) : Prop :=
  ∃ w' rc r, w.publish env self message properties = some (w', rc) ∧
    callsOf w'.trace = callsOf w.trace ++
      [(publishCall self (w.clients self).mqttAsyncHandle message msg, r)] ∧
    w'.trace.getLast? = some (.tokenOut w.trace.length r.token)

variable {message : PahoPublishedMessage} {properties : PahoProperties}

/-- The structure a publish fills in, with the text of the payload. -/
def publishedMessage (message : PahoPublishedMessage) (text : NSString) (props : MQTTProperties) :
    MQTTAsyncMessage where
  payload := (mqttLenString text).data
  payloadlen := (mqttLenString text).len
  retained := if message.retained then 1 else 0
  qos := message.qos
  properties := props

theorem publish_eq (env : Env) (self : ClientId) (w : World) {text : NSString}
    (htext : message.payload.sortedKeysText = some text) :
    w.publish env self message properties = (publishedProperties properties).map fun props =>
      let result := w.call env self .publish (publishCall self (w.clients self).mqttAsyncHandle
        message (publishedMessage message text props))
      (result.1.emit [.tokenOut w.trace.length result.2.token], result.2.rc) := by
  rw [World.publish, mqttLenStringFromJSONObject, htext]
  rfl

theorem callsOf_emit_tokenOut (w : World) (source : ℕ) (token : ℤ) :
    callsOf (w.emit [.tokenOut source token]).trace = callsOf w.trace :=
  filterMap_silent readsCalls_callMade (Silent.emit w (by simp [Event.isCall]))

/-- A message with a payload is sent as soon as its properties can be encoded. -/
theorem sends_iff (env : Env) (self : ClientId) (w : World) {text : NSString}
    (htext : message.payload.sortedKeysText = some text) (msg : MQTTAsyncMessage) :
    w.Sends env self message properties msg ↔
      ∃ props, publishedProperties properties = some props ∧
        publishedMessage message text props = msg := by
  rw [World.Sends, publish_eq env self w htext]
  constructor
  · rintro ⟨w', rc, r, hpublish, hmade, -⟩
    obtain ⟨props, hprops, hw'⟩ := Option.map_eq_some_iff.1 hpublish
    cases hw'
    rw [callsOf_emit_tokenOut, callsOf_call, List.append_cancel_left_eq] at hmade
    injection hmade with hcall
    injection hcall with hcall
    injection hcall with _ _ hmsg
    exact ⟨props, hprops, hmsg⟩
  · rintro ⟨props, hprops, rfl⟩
    refine ⟨_, _, _, congrArg (Option.map _) hprops, ?_, List.getLast?_concat⟩
    rw [callsOf_emit_tokenOut, callsOf_call]

theorem publishedProperties_eq_some_iff {props : MQTTProperties} :
    publishedProperties properties = some props ↔
      ∃ responseTopic correlation, properties.responseTopic = some responseTopic ∧
        properties.correlation = some correlation ∧
        PahoProperties.sentProperties responseTopic correlation properties.userProperties = props := by
  obtain ⟨responseTopic, correlation, userProperties⟩ := properties
  cases responseTopic with
  | none => simp [publishedProperties, mqttLenStringFromNSString]
  | some responseTopic =>
      cases correlation with
      | none => simp [publishedProperties, mqttLenStringFromNSString]
      | some correlation => simp [PahoProperties.publishedProperties_eq]

/-- **When a publish gets through.** A message with a payload is sent, in one call, exactly when the
response topic and the correlation data are both there; the user properties may be missing. -/
theorem publish_sends_iff (env : Env) (self : ClientId) (w : World)
    (hpayload : message.payload.sortedKeysText ≠ none) (properties : PahoProperties) :
    (∃ msg, w.Sends env self message properties msg) ↔
      properties.responseTopic ≠ none ∧ properties.correlation ≠ none := by
  obtain ⟨text, htext⟩ := Option.ne_none_iff_exists'.1 hpayload
  simp only [sends_iff env self w htext, publishedProperties_eq_some_iff]
  constructor
  · rintro ⟨msg, props, ⟨responseTopic, correlation, htopic, hcorrelation, -⟩, -⟩
    exact ⟨by simp [htopic], by simp [hcorrelation]⟩
  · rintro ⟨htopic, hcorrelation⟩
    obtain ⟨responseTopic, htopic⟩ := Option.ne_none_iff_exists'.1 htopic
    obtain ⟨correlation, hcorrelation⟩ := Option.ne_none_iff_exists'.1 hcorrelation
    exact ⟨_, _, ⟨responseTopic, correlation, htopic, hcorrelation, rfl⟩, rfl⟩

/-- A message to the topic `t` with an empty dictionary as payload. -/
def emptyMessage : PahoPublishedMessage := { topic := some "t", payload := ⟨some "{}"⟩ }

theorem publish_sends_emptyMessage :
    ∃ msg, freshWorld.Sends obligingEnv 0 emptyMessage ⟨some "r", some "c", none⟩ msg :=
  (publish_sends_iff obligingEnv 0 freshWorld (by decide) _).2 ⟨by simp, by simp⟩

/-- With properties as `init` leaves them, or as they are decoded from an empty list, a publish takes
`strlen` of `NULL`. -/
theorem publish_stops_without_properties :
    PahoProperties.initWithProperties [] = some {} ∧
      freshWorld.publish obligingEnv 0 emptyMessage {} = none ∧
      ¬ ∃ msg, freshWorld.Sends obligingEnv 0 emptyMessage {} msg := by
  refine ⟨rfl, rfl, ?_⟩
  rintro ⟨msg, w', rc, r, hpublish, -⟩
  cases hpublish

/-- A request with one response topic and correlation data: the topic is a text, the correlation data
any bytes but none; strings are followed by a NUL, and their lengths are `int`s. -/
structure IsRequest (L : MQTTProperties) (topic correlation : MQTTProperty) : Prop where
  terminated : ∀ p ∈ L, p.Terminated
  topic_only : L.filter (fun p => p.identifier = .responseTopic) = [topic]
  correlation_only : L.filter (fun p => p.identifier = .correlationData) = [correlation]
  topic_text : topic.data.text ≠ none
  correlation_nonempty : 0 < correlation.data.len
  topic_length : topic.data.len < 2147483648
  correlation_length : correlation.data.len < 2147483648

/-- What is sent with a reply: the response topic and the correlation data of the request, byte for
byte. -/
structure Echoes (topic correlation : MQTTProperty) (sent : MQTTProperties) : Prop where
  topic : ∃ p, sent.filter (fun p => p.identifier = .responseTopic) = [p] ∧
    p.data.AgreeOnLen topic.data
  correlation : ∃ p, sent.filter (fun p => p.identifier = .correlationData) = [p] ∧
    p.data.AgreeOnLen correlation.data

/-- The text of a string is encoded as that string. -/
theorem mqttLenString_agreeOnLen {a : MQTTLenString} {string : NSString}
    (htext : a.text = some string) (hlen : a.len < 2147483648) :
    (mqttLenString string).AgreeOnLen a := by
  obtain ⟨⟨data, hdata, hbytes⟩, hempty, hnul⟩ := MQTTLenString.text_eq_some.1 htext
  have hlength : (utf8 string).length = a.len.toNat := by rw [hbytes, length_readBytes]
  have hpos : 0 < (utf8 string).length := by
    rw [List.length_pos_iff, ne_eq, utf8_eq_nil]
    exact hempty
  have hsame : (mqttLenString string).len = a.len := by
    rw [mqttLenString_len, strlen_utf8 hnul, cInt_of_lt (by omega)]
    omega
  refine ⟨hsame, by simp [mqttLenString, hdata], ?_⟩
  rintro x y hx hy
  obtain rfl : utf8 string = x := Option.some.inj hx
  obtain rfl : data = y := Option.some.inj (hdata.symm.trans hy)
  rw [hsame, ← hlength, readBytes_of_le le_rfl, List.take_length, hlength]
  exact hbytes

section Reply

variable {L : MQTTProperties} {topic correlation : MQTTProperty}

/-- The only property with a code is the last one. -/
theorem lastText_of_only {code : MQTTPropertyCode} {p : MQTTProperty}
    (h : L.filter (fun q => q.identifier = code) = [p]) :
    ((PahoProperties.lastEntry code L).bind fun q => q.data.text) = p.data.text := by
  rw [PahoProperties.lastEntry, h, List.getLast?_singleton, Option.bind_some]

theorem IsRequest.responseTopic_eq (h : IsRequest L topic correlation)
    (hlong : ∀ p ∈ L, ¬ p.Overlong) :
    (PahoProperties.collected L).responseTopic = topic.data.text := by
  rw [PahoProperties.collected_responseTopic,
    PahoProperties.lastEntry_shown (Or.inl rfl) h.terminated hlong, lastText_of_only h.topic_only]

theorem IsRequest.correlation_eq (h : IsRequest L topic correlation)
    (hlong : ∀ p ∈ L, ¬ p.Overlong) :
    (PahoProperties.collected L).correlation = correlation.data.text := by
  rw [PahoProperties.collected_correlation,
    PahoProperties.lastEntry_shown (Or.inr rfl) h.terminated hlong,
    lastText_of_only h.correlation_only]

/-- The bytes of a string that is not empty are a text when no NUL is among them and they are
well-formed UTF-8. -/
theorem text_ne_none_iff {a : MQTTLenString} {data : CString} (hdata : a.data = some data)
    (hlen : 0 < a.len) :
    a.text ≠ none ↔ (0 : UInt8) ∉ readBytes data a.len.toNat ∧
      ∃ string, utf8 string = readBytes data a.len.toNat := by
  have hne : readBytes data a.len.toNat ≠ [] := by
    rw [ne_eq, ← List.length_eq_zero_iff, length_readBytes]
    omega
  rw [MQTTLenString.text, hdata, Option.bind_some]
  dsimp only
  by_cases hzero : (0 : UInt8) ∈ readBytes data a.len.toNat
  · rw [if_pos (Or.inr hzero)]
    exact iff_of_false (by simp) fun h => h.1 hzero
  · rw [if_neg (not_or.2 ⟨hne, hzero⟩), Option.ne_none_iff_exists']
    simp only [ofUTF8_eq_some, hzero, not_false_eq_true, true_and]

/-- **The reply to a request.** A message published with the properties decoded from a request carries
its response topic and its correlation data exactly when the correlation data is a text, no NUL among
its bytes and well-formed UTF-8, and the decoder survives the list: no string it reads is overlong. -/
theorem reply_echoes_iff (env : Env) (self : ClientId) (w : World)
    (hpayload : message.payload.sortedKeysText ≠ none) (h : IsRequest L topic correlation)
    {data : CString} (hdata : correlation.data.data = some data) :
    (∃ properties msg, PahoProperties.initWithProperties L = some properties ∧
      w.Sends env self message properties msg ∧ Echoes topic correlation msg.properties) ↔
      ((0 : UInt8) ∉ readBytes data correlation.data.len.toNat ∧
        ∃ string, utf8 string = readBytes data correlation.data.len.toNat) ∧
      ∀ p ∈ L, ¬ p.Overlong := by
  obtain ⟨text, htext⟩ := Option.ne_none_iff_exists'.1 hpayload
  rw [← text_ne_none_iff hdata h.correlation_nonempty]
  simp only [sends_iff env self w htext, publishedProperties_eq_some_iff,
    PahoProperties.initWithProperties_terminated h.terminated]
  constructor
  · rintro ⟨properties, msg, ⟨hlong, rfl⟩, ⟨props, ⟨responseTopic, string, -, hstring, -⟩, -⟩, -⟩
    rw [← h.correlation_eq hlong, hstring]
    exact ⟨Option.some_ne_none string, hlong⟩
  · rintro ⟨hcorrelation, hlong⟩
    obtain ⟨responseTopic, htopic⟩ := Option.ne_none_iff_exists'.1 h.topic_text
    obtain ⟨string, hstring⟩ := Option.ne_none_iff_exists'.1 hcorrelation
    refine ⟨_, _, ⟨hlong, rfl⟩, ⟨_, ⟨responseTopic, string,
      (h.responseTopic_eq hlong).trans htopic, (h.correlation_eq hlong).trans hstring, rfl⟩, rfl⟩,
      ?_, ?_⟩
    · exact ⟨_, PahoProperties.filter_sentProperties_responseTopic _ _ _,
        mqttLenString_agreeOnLen htopic h.topic_length⟩
    · exact ⟨_, PahoProperties.filter_sentProperties_correlation _ _ _,
        mqttLenString_agreeOnLen hstring h.correlation_length⟩

/-- A property whose data are the given bytes, followed by a NUL. -/
def bytesProperty (code : MQTTPropertyCode) (bytes : List UInt8) : MQTTProperty where
  identifier := code
  data := ⟨bytes.length, some (bytes ++ [0])⟩

/-- A request for the response topic `r` with given correlation data. -/
def requestWith (bytes : List UInt8) : MQTTProperties :=
  [bytesProperty .responseTopic [114], bytesProperty .correlationData bytes]

theorem isRequest_requestWith {bytes : List UInt8} (hne : bytes ≠ [])
    (hlen : bytes.length < 2147483648) :
    IsRequest (requestWith bytes) (bytesProperty .responseTopic [114])
      (bytesProperty .correlationData bytes) where
  terminated := by
    have hproperty : ∀ code bytes, (bytesProperty code bytes).Terminated := fun code bytes =>
      MQTTProperty.terminated_of_strings
        (MQTTLenString.terminated_of_nul (by simp [byteAt])) (MQTTLenString.terminated_null 0)
    simp only [requestWith, List.forall_mem_cons]
    exact ⟨hproperty _ _, hproperty _ _, List.forall_mem_nil _⟩
  topic_only := rfl
  correlation_only := rfl
  topic_text := by decide
  correlation_nonempty := by
    have hpos := List.length_pos_iff.2 hne
    simp only [bytesProperty]
    omega
  topic_length := by decide
  correlation_length := by
    simp only [bytesProperty]
    omega

/-- The strings of a short request are not overlong. -/
theorem not_overlong_requestWith {bytes : List UInt8} (hlen : bytes.length < 2147483647) :
    ∀ p ∈ requestWith bytes, ¬ p.Overlong := by
  have hshort : ∀ (code : MQTTPropertyCode) (bytes : List UInt8), code ≠ .userProperty →
      bytes.length < 2147483647 → ¬ (bytesProperty code bytes).Overlong := by
    rintro code bytes hcode hlen ⟨a, ha, hle, -⟩
    have hdata : a = (bytesProperty code bytes).data := by
      cases code <;> simp_all [MQTTProperty.read, bytesProperty]
    rw [hdata, bytesProperty] at hle
    dsimp only at hle
    omega
  simp only [requestWith, List.forall_mem_cons]
  exact ⟨hshort _ _ (by decide) (by decide), hshort _ _ (by decide) hlen, List.forall_mem_nil _⟩

theorem reply_echoes_text :
    ∃ properties msg, PahoProperties.initWithProperties (requestWith [105, 100]) = some properties ∧
      freshWorld.Sends obligingEnv 0 emptyMessage properties msg ∧
      Echoes (bytesProperty .responseTopic [114]) (bytesProperty .correlationData [105, 100])
        msg.properties := by
  have hrequest := @isRequest_requestWith [105, 100] (by decide) (by decide)
  exact (reply_echoes_iff obligingEnv 0 freshWorld (by decide) hrequest rfl).2
    ⟨⟨by decide, "id", by decide⟩, not_overlong_requestWith (by decide)⟩

/-- Correlation data that is not UTF-8 cannot be sent back; the publish stops at `strlen` of `NULL`. -/
theorem reply_stops_at_binary :
    IsRequest (requestWith [255, 1]) (bytesProperty .responseTopic [114])
        (bytesProperty .correlationData [255, 1]) ∧
      ∃ properties, PahoProperties.initWithProperties (requestWith [255, 1]) = some properties ∧
        freshWorld.publish obligingEnv 0 emptyMessage properties = none ∧
        ¬ ∃ msg, freshWorld.Sends obligingEnv 0 emptyMessage properties msg ∧
          Echoes (bytesProperty .responseTopic [114]) (bytesProperty .correlationData [255, 1])
            msg.properties := by
  have hlong := @not_overlong_requestWith [255, 1] (by decide)
  have hnone : freshWorld.publish obligingEnv 0 emptyMessage
      (PahoProperties.collected (requestWith [255, 1])) = none := rfl
  refine ⟨isRequest_requestWith (by decide) (by decide), _,
    PahoProperties.initWithProperties_of_not_overlong hlong, hnone, ?_⟩
  rintro ⟨msg, ⟨w', rc, r, hpublish, -⟩, -⟩
  rw [hnone] at hpublish
  cases hpublish

end Reply

end CocoaPaho
