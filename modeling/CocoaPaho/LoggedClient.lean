import CocoaPaho.ClientSession
import CocoaPaho.PahoLogger

/-!
`PahoClient.m` once more, with its log statements. Between two log statements a method does what it
does without them, while the callbacks in the windows of its calls log on their own account.
-/

namespace CocoaPaho

open Base

/-- A log statement about a client. -/
structure LogStatement where
  client : ClientId
  level : PahoLogLevel
  function : NSString
  line : ℕ
  format : NSString
  args : List FormatArg

/-- The conversions of the format are met by the arguments. -/
def LogStatement.Matched (statement : LogStatement) : Prop :=
  formatConversions statement.format = some (statement.args.map FormatArg.conversion)

theorem matched_of {client : ClientId} {level : PahoLogLevel} {function : NSString}
    {line : ℕ} {format : NSString} {args : List FormatArg}
    (h : formatConversions format = some (args.map FormatArg.conversion)) :
    LogStatement.Matched ⟨client, level, function, line, format, args⟩ := h

/-- The log statement of a success function of the family `__PAHO_ASYNC_ACTION__`. -/
def successLog (client : ClientId) (action : PahoAction) (level : PahoLogLevel)
    (function : NSString) (line : ℕ) : LogStatement where
  client := client
  level := level
  function := function
  line := line
  format := "C successed on %@ "
  args := [.object (.string (nsStringFromPahoAction action))]

/-- The log statement of a failure function of the family. -/
def failureLog (client : ClientId) (action : PahoAction) (response : MQTTAsyncFailureData5)
    (function : NSString) (line : ℕ) : LogStatement where
  client := client
  level := .warn
  function := function
  line := line
  format := "C failed on %@ , response: %@"
  args := [.object (.string (nsStringFromPahoAction action)),
    .object (.string (PahoFailedMessage.initWithMessage5 response action).description)]

/-- What a callback logs, once it has checked its context. -/
def callbackLog (d : Dispatch) : Option LogStatement :=
  match checkClient d.context with
  | none => none
  | some client =>
    match d.invocation with
    | .onConnectionConnected cause =>
        some ⟨client, .info, "onConnectionConnected", 400, "C connected cause: %s", [.cString cause]⟩
    | .onConnectionLost cause =>
        some ⟨client, .info, "onConnectionLost", 414, "C connection lost cause: %s",
          [.cString cause]⟩
    | .onMessageArrived arrival _ =>
        some ⟨client, .debug, "onMessageArrived", 430, "C received message topic: %s",
          [.cString (some arrival.topicName.contents)]⟩
    | .success .onConnectionSuccess _ =>
        some (successLog client .connection .info "onConnectionSuccess" 458)
    | .success .onSubscribeSuccess _ =>
        some (successLog client .subscribe .debug "onSubscribeSuccess" 459)
    | .success .onUnsubscribeSuccess _ =>
        some (successLog client .unsubscribe .debug "onUnsubscribeSuccess" 460)
    | .success .onPublishSuccess _ =>
        some (successLog client .publish .debug "onPublishSuccess" 461)
    | .success .onDisconnectSuccess _ =>
        some (successLog client .disconnect .info "onDisconnectSuccess" 462)
    | .failure .onConnectionFailue response =>
        some (failureLog client .connection response "onConnectionFailue" 458)
    | .failure .onSubscribeFailue response =>
        some (failureLog client .subscribe response "onSubscribeFailue" 459)
    | .failure .onUnsubscribeFailue response =>
        some (failureLog client .unsubscribe response "onUnsubscribeFailue" 460)
    | .failure .onPublishFailue response =>
        some (failureLog client .publish response "onPublishFailue" 461)
    | .failure .onDisconnectFailue response =>
        some (failureLog client .disconnect response "onDisconnectFailue" 462)
    | .sslErrorCb _ => none
    | .sslPSKCb _ _ _ => none

def eventLog : Event → Option LogStatement
  | .enter d _ => callbackLog d
  | _ => none

/-- A world with the categories of the clients, and the lines offered to the logger so far. -/
structure Logged where
  world : World
  categories : ClientId → NSString
  lines : List LogLine

namespace Logged

/-- The line of a statement: the client's category and identifier are read when it is reached. -/
def offer (l : Logged) (moment : ℕ) (statement : LogStatement) : LogLine where
  moment := moment
  category := l.categories statement.client
  level := statement.level
  function := statement.function
  line := statement.line
  clientID := (l.world.clients statement.client).clientID
  format := statement.format
  args := statement.args

def log (statement : LogStatement) (l : Logged) : Logged :=
  { l with lines := l.lines ++ [l.offer l.world.trace.length statement] }

/-- The lines of the callbacks among some events, of which the first has the given place. -/
def eventLines (l : Logged) : ℕ → List Event → List LogLine
  | _, [] => []
  | place, e :: events =>
    ((eventLog e).map (l.offer (place + 1))).toList ++ eventLines l (place + 1) events

/-- A part of a method, up to some world: the callbacks in it log. -/
def through (w : World) (l : Logged) : Logged :=
  { l with
    world := w
    lines := l.lines ++
      l.eventLines l.world.trace.length (w.trace.drop l.world.trace.length) }

/-- A part of a method with a return code. -/
def attempt (result : World × ℤ) (l : Logged) : Logged × ℤ := (l.through result.1, result.2)

section Methods

variable (env : Env) (self : ClientId)

def disconnect (l : Logged) : Logged :=
  match (l.world.clients self).mqttAsyncHandle with
  | none => l
  | some _ =>
    (l.through (l.world.disconnect env self)).log
      ⟨self, .info, "disconnect", 169, "Performed disconnect action.", []⟩

/-- A log statement of `connectWithUsername:password:userProperties:`. -/
def connectLog (line : ℕ) (format : NSString) (args : List FormatArg) : LogStatement where
  client := self
  level := .info
  function := "connectWithUsername:password:userProperties:"
  line := line
  format := format
  args := args

/-- The exits of a connect that failed, which log when the handle has been destroyed. -/
def orDestroy (line : ℕ) (text : NSString) (attempt : Logged × ℤ) (rest : Logged → Logged × ℤ) :
    Logged × ℤ :=
  if attempt.2 ≠ mqttAsyncSuccess then
    ((attempt.1.through (attempt.1.world.destroy env self .connect)).log
      (connectLog self line text []), attempt.2)
  else rest attempt.1

/-- What is logged of the user properties of a connect. -/
def userPropertiesLog (userProperties : Option (NSDictionary PropertyObject)) : LogStatement :=
  match connectUserProperties userProperties with
  | none => connectLog self 126 "Clear connect properties." []
  | some _ =>
    connectLog self 143 "Fillup connect properties: %@."
      [.object (.dictionary ((userProperties.getD ∅).entries.map fun entry =>
        (entry.1, entry.2.text)))]

def sendConnect (userProperties : Option (NSDictionary PropertyObject)) (l : Logged) : Logged × ℤ :=
  let l := l.through (l.world.fillConnectOpts env self userProperties)
  let l := l.log (userPropertiesLog self userProperties)
  let result := l.world.request env self .connect
    (.connect (l.world.clients self).mqttAsyncHandle (l.world.clients self).connectOpts)
  l.attempt (result.1.modify self fun c =>
    { c with connectOpts := { c.connectOpts with connectProperties := none } }, result.2)

def connectWithUsername (username password : Option NSString)
    (userProperties : Option (NSDictionary PropertyObject)) (l : Logged) : Logged × ℤ :=
  let l := l.disconnect env self
  let l := l.through (l.world.modify self (PahoClient.setUsername username))
  let l := l.through (l.world.modify self (PahoClient.setPassword password))
  orDestroy env self 91 "Connect failed at creation." (l.attempt (l.world.create env self)) fun l =>
  orDestroy env self 99 "Connect failed at set connected callback."
    (l.attempt (l.world.setConnected env self)) fun l =>
  orDestroy env self 107 "Connect failed at set callbacks."
    (l.attempt (l.world.setCallbacks env self)) fun l =>
  orDestroy env self 153 "Connect failed at connect." (l.sendConnect env self userProperties) fun l =>
  (l, mqttAsyncSuccess)

def subscribe (topic : NSString) (qos : ℤ) (l : Logged) : Logged × ℤ :=
  let l := l.log ⟨self, .info, "subscribe:qos:", 177, "Topic: %@, qos: %d",
    [.object (.string topic), .int qos]⟩
  l.attempt (l.world.subscribe env self topic qos)

def subscribeTopics (topics : List PahoTopic) (l : Logged) : Logged × ℤ :=
  let result := l.attempt (l.world.subscribeTopics env self topics)
  (result.1.log ⟨self, .info, "subscribe:", 207, "topics: %@",
    [.object (.array (topics.map PahoTopic.description))]⟩, result.2)

def unsubscribeTopic (topic : NSString) (l : Logged) : Logged × ℤ :=
  let l := l.log ⟨self, .info, "unsubscribeTopic:", 218, "topic: %@", [.object (.string topic)]⟩
  l.attempt (l.world.unsubscribeTopic env self topic)

def unsubscribeTopics (topics : List NSString) (l : Logged) : Logged × ℤ :=
  let result := l.attempt (l.world.unsubscribeTopics env self topics)
  (result.1.log ⟨self, .info, "unsubscribeTopics:", 241, "%@", [.object (.array topics)]⟩, result.2)

def publish (message : PahoPublishedMessage) (properties : PahoProperties) (l : Logged) :
    Option (Logged × ℤ) :=
  (l.world.publish env self message properties).map fun result =>
    ((l.through result.1).log ⟨self, .debug, "publish:properties:token:", 284, "message : %@",
      [.object (.string message.description)]⟩, result.2)

/-- The return of a method. -/
def returning (method : Method) (result : Logged × ℤ) : Logged :=
  result.1.through (World.returning self method (result.1.world, result.2))

def run (l : Logged) : Operation → Option Logged
  | .connect username password userProperties => some (returning self .connect
      (l.connectWithUsername env self username password userProperties))
  | .disconnect => some (returning self .disconnect (l.disconnect env self, 0))
  | .subscribe topic qos => some (returning self .subscribe (l.subscribe env self topic qos))
  | .subscribeTopics topics => some (returning self .subscribeTopics
      (l.subscribeTopics env self topics))
  | .unsubscribeTopic topic => some (returning self .unsubscribeTopic
      (l.unsubscribeTopic env self topic))
  | .unsubscribeTopics topics => some (returning self .unsubscribeTopics
      (l.unsubscribeTopics env self topics))
  | .publish message properties =>
      (l.publish env self message properties).map (returning self .publish)
  | .isConnected => some (returning self .isConnected (l.attempt (l.world.isConnected env self)))
  | .set setter => some (l.through (l.world.modify self setter.apply))
  | .setServerURIs serverURIs => some (l.through (l.world.setServerURIs self serverURIs))
  | .setSSL ssl => some (l.through (l.world.modify self fun c => { c with ssl := ssl }))

end Methods

/-- `dealloc` of an object. -/
def dealloc (env : Env) (l : Logged) : Obj → Logged
  | .client client =>
    ((l.through (l.world.emit [.dealloc (.client client)])).log
      ⟨client, .info, "dealloc", 58, "Client Dealloc.", []⟩).disconnect env client
  | object => l.through (l.world.dealloc env object)

variable {env : Env} {self : ClientId} {l l' : Logged}

/-- The world and the return code of a method. -/
def result (r : Logged × ℤ) : World × ℤ := (r.1.world, r.2)

theorem disconnect_world (l : Logged) :
    (l.disconnect env self).world = l.world.disconnect env self := by
  unfold disconnect
  split
  · next hnone => exact (World.disconnect_of_none hnone).symm
  · rfl

theorem result_orDestroy {line : ℕ} {text : NSString} {attempt : Logged × ℤ}
    {rest : Logged → Logged × ℤ} {rest' : World → World × ℤ}
    (h : ∀ l : Logged, result (rest l) = rest' l.world) :
    result (orDestroy env self line text attempt rest) =
      World.orDestroy env self (result attempt) rest' := by
  unfold orDestroy World.orDestroy
  by_cases hrc : attempt.2 ≠ mqttAsyncSuccess
  · rw [if_pos hrc, if_pos (show (result attempt).2 ≠ mqttAsyncSuccess from hrc)]
    rfl
  · rw [if_neg hrc, if_neg (show ¬ (result attempt).2 ≠ mqttAsyncSuccess from hrc)]
    exact h attempt.1

theorem result_connectWithUsername (l : Logged) (username password : Option NSString)
    (userProperties : Option (NSDictionary PropertyObject)) :
    result (l.connectWithUsername env self username password userProperties) =
      l.world.connectWithUsername env self username password userProperties := by
  unfold connectWithUsername World.connectWithUsername
  rw [← disconnect_world l]
  refine result_orDestroy fun l => ?_
  refine result_orDestroy fun l => ?_
  refine result_orDestroy fun l => ?_
  exact result_orDestroy fun l => rfl

/-- **Log statements do nothing else.** An operation does to the world what it does without them. -/
theorem run_world (l : Logged) (op : Operation) :
    (l.run env self op).map Logged.world = op.run env self l.world := by
  have hreturning : ∀ (method : Method) (r : Logged × ℤ),
      (returning self method r).world = World.returning self method (result r) := fun _ _ => rfl
  cases op with
  | connect username password userProperties =>
      rw [run, Option.map_some, hreturning, result_connectWithUsername]
      rfl
  | disconnect =>
      rw [run, Option.map_some, hreturning, result, disconnect_world]
      rfl
  | publish message properties =>
      rw [run, publish, Option.map_map, Option.map_map]
      rfl
  | _ => rfl

theorem dealloc_world (l : Logged) (object : Obj) :
    (l.dealloc env object).world = l.world.dealloc env object := by
  cases object with
  | client client => exact disconnect_world _
  | _ => rfl

theorem callbackLog_matched {d : Dispatch} {statement : LogStatement}
    (h : callbackLog d = some statement) : statement.Matched := by
  unfold callbackLog at h
  split at h
  · cases h
  · split at h <;> cases h <;> exact matched_of rfl

theorem userPropertiesLog_matched (userProperties : Option (NSDictionary PropertyObject)) :
    (userPropertiesLog self userProperties).Matched := by
  unfold userPropertiesLog
  split <;> exact matched_of rfl

/-- What the parts of methods and the log statements keep is kept by operations. -/
theorem run_induction {J : Logged → Prop} (hthrough : ∀ l w, J l → J (l.through w))
    (hlog : ∀ (l : Logged) (statement : LogStatement), statement.Matched → J l →
      J (l.log statement)) {op : Operation} (hl : J l) (h : l.run env self op = some l') : J l' := by
  have hdisconnect : ∀ l, J l → J (l.disconnect env self) := by
    intro l hl
    unfold disconnect
    split
    · exact hl
    · exact hlog _ _ (matched_of rfl) (hthrough _ _ hl)
  have horDestroy : ∀ (line : ℕ) (text : NSString) (attempt : Logged × ℤ)
      (rest : Logged → Logged × ℤ), formatConversions text = some [] → J attempt.1 →
      (∀ l, J l → J (rest l).1) → J (orDestroy env self line text attempt rest).1 := by
    intro line text attempt rest htext hattempt hrest
    unfold orDestroy
    split_ifs
    · exact hlog _ _ (matched_of htext) (hthrough _ _ hattempt)
    · exact hrest _ hattempt
  have hsendConnect : ∀ l userProperties, J l → J (l.sendConnect env self userProperties).1 :=
    fun l userProperties hl =>
      hthrough _ _ (hlog _ _ (userPropertiesLog_matched userProperties) (hthrough _ _ hl))
  cases op with
  | connect username password userProperties =>
      cases h
      refine hthrough _ _ ?_
      refine horDestroy _ _ _ _ rfl
        (hthrough _ _ (hthrough _ _ (hthrough _ _ (hdisconnect l hl)))) fun l hl => ?_
      refine horDestroy _ _ _ _ rfl (hthrough _ _ hl) fun l hl => ?_
      refine horDestroy _ _ _ _ rfl (hthrough _ _ hl) fun l hl => ?_
      exact horDestroy _ _ _ _ rfl (hsendConnect l userProperties hl) fun l hl => hl
  | disconnect =>
      cases h
      exact hthrough _ _ (hdisconnect l hl)
  | subscribe topic qos =>
      cases h
      exact hthrough _ _ (hthrough _ _ (hlog _ _ (matched_of rfl) hl))
  | unsubscribeTopic topic =>
      cases h
      exact hthrough _ _ (hthrough _ _ (hlog _ _ (matched_of rfl) hl))
  | subscribeTopics topics =>
      cases h
      exact hthrough _ _ (hlog _ _ (matched_of rfl) (hthrough _ _ hl))
  | unsubscribeTopics topics =>
      cases h
      exact hthrough _ _ (hlog _ _ (matched_of rfl) (hthrough _ _ hl))
  | publish message properties =>
      obtain ⟨result, hresult, rfl⟩ := Option.map_eq_some_iff.1 h
      obtain ⟨result', -, rfl⟩ := Option.map_eq_some_iff.1 hresult
      exact hthrough _ _ (hlog _ _ (matched_of rfl) (hthrough _ _ hl))
  | isConnected =>
      cases h
      exact hthrough _ _ (hthrough _ _ hl)
  | _ =>
      cases h
      exact hthrough _ _ hl

theorem dealloc_induction {J : Logged → Prop} (hthrough : ∀ l w, J l → J (l.through w))
    (hlog : ∀ (l : Logged) (statement : LogStatement), statement.Matched → J l →
      J (l.log statement)) (hl : J l) (object : Obj) : J (l.dealloc env object) := by
  cases object with
  | client client =>
      have hgone := hlog _ ⟨client, .info, "dealloc", 58, "Client Dealloc.", []⟩ (matched_of rfl)
        (hthrough l (l.world.emit [.dealloc (.client client)]) hl)
      unfold dealloc disconnect
      dsimp only
      split
      · exact hgone
      · exact hlog _ _ (matched_of rfl) (hthrough _ _ hgone)
  | _ => exact hthrough _ _ hl

/-- What the `dealloc` of an object keeps is kept by those of several. -/
theorem foldl_dealloc_induction {J : Logged → Prop}
    (hJ : ∀ l object, J l → J (l.dealloc env object)) (objects : List Obj) (hl : J l) :
    J (objects.foldl (Logged.dealloc env) l) := by
  induction objects generalizing l with
  | nil => exact hl
  | cons object objects ih => exact ih (hJ l object hl)

end Logged

end CocoaPaho
