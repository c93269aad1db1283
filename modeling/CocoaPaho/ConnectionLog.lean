import CocoaPaho.ClientConnect
import CocoaPaho.Diagnostics

/-!
What the log tells of connections. A connect logs before it calls `MQTTAsync_connect`, its failures and
the disconnects log after the handle has been destroyed, and lines bear the identifier of their client.
So where clients have different identifiers, who is shown the messages from the start knows at any time
which of them have a library client.
-/

namespace CocoaPaho

open Base

/-- What a line of `PahoClient.m` says of the handle of its client. -/
def connectionNews (level : PahoLogLevel) (line : ℕ) : Option Bool :=
  if level ≠ .info then none
  else if line ∈ [126, 143] then some true
  else if line ∈ [91, 99, 107, 153, 169] then some false
  else none

def LogLine.news (clientID : NSString) (offer : LogLine) : Option Bool :=
  if offer.clientID = clientID then connectionNews offer.level offer.line else none

def PahoLogMessage.news (clientID : NSString) (message : PahoLogMessage) : Option Bool :=
  if message.clientID = clientID then connectionNews message.logLevel message.line else none

/-- The last word of some messages on a client, which has no library client before the first. -/
def connectedByLog (clientID : NSString) (messages : List PahoLogMessage) : Bool :=
  (messages.filterMap (PahoLogMessage.news clientID)).getLast?.getD false

variable {env : Env} {self : ClientId} {w w' w'' : World}

/-- The other clients are left alone, and the client keeps its identifier. -/
structure World.Apart (client : ClientId) (w w' : World) : Prop where
  others : ∀ i, i ≠ client → w'.clients i = w.clients i
  clientID : (w'.clients client).clientID = (w.clients client).clientID

namespace World.Apart

theorem refl (self : ClientId) (w : World) : World.Apart self w w := ⟨fun _ _ => rfl, rfl⟩

theorem of_clients (h : w'.clients = w.clients) : World.Apart self w w' :=
  ⟨fun i _ => congrFun h i, congrArg (fun clients => (clients self).clientID) h⟩

/-- What a part of a method does. -/
theorem of_does {calls : List (Method × CallKind)} {parts : List ClientPart}
    (h : World.Does env self calls parts w w') : World.Apart self w w' := by
  refine ⟨fun i hi => h.others hi, h.sameBut self _ fun part _ c => ?_⟩
  cases part <;> rfl

theorem modify (h : World.Apart self w w') {f : PahoClient → PahoClient}
    (hf : ∀ c, (f c).clientID = c.clientID) : World.Apart self w (w'.modify self f) := by
  refine ⟨fun i hi => ?_, ?_⟩
  · rw [World.modify_of_ne w' hi, h.others i hi]
  · rw [World.modify_self, hf, h.clientID]

end World.Apart

theorem World.Apart.clientIDs (h : World.Apart self w w') (i : ClientId) :
    (w'.clients i).clientID = (w.clients i).clientID := by
  by_cases hi : i = self
  · rw [hi, h.clientID]
  · rw [h.others i hi]

theorem Keeps.clientID (h : Keeps w w') (i : ClientId) :
    (w'.clients i).clientID = (w.clients i).clientID := by
  have hrest : (w'.clients i).withoutHandle.clientID = (w.clients i).withoutHandle.clientID :=
    congrArg _ (h.clients i)
  exact hrest

/-- Operations other than a connect leave all identifiers as they were. -/
theorem clientID_run {op : Operation} (h : op.run env self w = some w')
    (hconnect : op.method ≠ some .connect) (i : ClientId) :
    (w'.clients i).clientID = (w.clients i).clientID := by
  have hstepped : Stepped env w (.operation self op) w' := stepped_of_act h
  cases hstepped with
  | connect => exact absurd rfl hconnect
  | set _ setter =>
      refine World.Apart.clientIDs ((World.Apart.refl self w).modify fun c => ?_) i
      cases setter <;> rfl
  | setServerURIs _ serverURIs =>
      have hdoes : World.Does env self [] [.serverURIs] w (w.setServerURIs self serverURIs) :=
        World.does_setServerURIs serverURIs
      exact (World.Apart.of_does hdoes).clientIDs i
  | setSSL =>
      refine World.Apart.clientIDs ((World.Apart.refl self w).modify ?_) i
      exact fun _ => rfl
  | request _ _ method hmethod hne hkeeps => exact hkeeps.clientID i

theorem Env.Honest.destroy_none (henv : env.Honest) (w : World) (method : Method) :
    ((w.destroy env self method).clients self).mqttAsyncHandle = none := by
  unfold World.destroy
  dsimp only
  rw [World.modify_self]
  exact henv.destroy_handle _ _

theorem Env.Honest.disconnect_none (henv : env.Honest) (w : World) :
    ((w.disconnect env self).clients self).mqttAsyncHandle = none := by
  unfold World.disconnect
  split
  · next hnone => exact hnone
  · exact henv.destroy_none _ _

theorem Env.Honest.create_ne_none (henv : env.Honest) (w : World)
    (hrc : (w.create env self).2 = mqttAsyncSuccess) :
    ((w.create env self).1.clients self).mqttAsyncHandle ≠ none := by
  obtain ⟨r, hcode, hstored, hcreates⟩ := create_spec henv w self
  rw [hcreates.handle]
  rw [hcode] at hrc
  obtain ⟨h, hh⟩ := Option.ne_none_iff_exists'.1 (hstored hrc)
  rw [hh, Option.some_or]
  exact Option.some_ne_none h

theorem news_of_ne {clientID : NSString} {offer : LogLine} (h : offer.clientID ≠ clientID) :
    offer.news clientID = none := if_neg h

theorem callbackLog_news {d : Dispatch} {statement : LogStatement}
    (h : callbackLog d = some statement) : connectionNews statement.level statement.line = none := by
  unfold callbackLog at h
  split at h
  · cases h
  · split at h <;> cases h <;> rfl

/-- The lines of callbacks say nothing of handles. -/
theorem eventLines_news (l : Logged) (clientID : NSString) (events : List Event) (place : ℕ) :
    (l.eventLines place events).filterMap (LogLine.news clientID) = [] := by
  induction events generalizing place with
  | nil => rfl
  | cons e events ih =>
      rw [Logged.eventLines, List.filterMap_append, ih, List.append_nil]
      cases hstatement : eventLog e with
      | none => rfl
      | some statement =>
          have hnone : connectionNews statement.level statement.line = none := by
            cases e with
            | enter d result => exact callbackLog_news hstatement
            | _ => cases hstatement
          have hnews : (l.offer (place + 1) statement).news clientID = none := by
            unfold LogLine.news
            split_ifs
            · exact hnone
            · rfl
          rw [Option.map_some, Option.toList_some, List.filterMap_cons_none hnews, List.filterMap_nil]

section Told

variable (clientIDs : ClientId → NSString) (past : ClientId → List Bool)

/-- The last word on a client, where there is some news from before the lines. -/
def Logged.told (l : Logged) (i : ClientId) : Bool :=
  (past i ++ l.lines.filterMap (LogLine.news (clientIDs i))).getLast?.getD false

/-- The log tells which clients have a handle. -/
structure Logged.Tells (l : Logged) : Prop where
  clientID : ∀ i, (l.world.clients i).clientID = clientIDs i
  handle : ∀ i, (l.world.clients i).mqttAsyncHandle ≠ none ↔ l.told clientIDs past i

/-- The log tells which of the other clients have a handle; its last word on one client is given. -/
structure Logged.TellsBut (client : ClientId) (b : Bool) (l : Logged) : Prop where
  clientID : ∀ i, (l.world.clients i).clientID = clientIDs i
  others : ∀ i, i ≠ client →
    ((l.world.clients i).mqttAsyncHandle ≠ none ↔ l.told clientIDs past i)
  last : l.told clientIDs past client = b

end Told

namespace Logged

variable {clientIDs : ClientId → NSString} {past : ClientId → List Bool} {l l' : Logged} {b : Bool}

theorem told_through (l : Logged) (w : World) (i : ClientId) :
    (l.through w).told clientIDs past i = l.told clientIDs past i := by
  unfold told through
  dsimp only
  rw [List.filterMap_append, eventLines_news, List.append_nil]

theorem told_log_of_none (l : Logged) {statement : LogStatement} {i : ClientId}
    (h : (l.offer l.world.trace.length statement).news (clientIDs i) = none) :
    (l.log statement).told clientIDs past i = l.told clientIDs past i := by
  unfold told log
  dsimp only
  rw [List.filterMap_append, List.filterMap_cons_none h, List.filterMap_nil, List.append_nil]

theorem told_log_of_some (l : Logged) {statement : LogStatement} {i : ClientId}
    (h : (l.offer l.world.trace.length statement).news (clientIDs i) = some b) :
    (l.log statement).told clientIDs past i = b := by
  unfold told log
  dsimp only
  rw [List.filterMap_append, List.filterMap_cons_some h, List.filterMap_nil, ← List.append_assoc,
    List.getLast?_concat, Option.getD_some]

/-- A statement without news says nothing of any client. -/
theorem told_log_neutral (l : Logged) {statement : LogStatement}
    (h : connectionNews statement.level statement.line = none) (i : ClientId) :
    (l.log statement).told clientIDs past i = l.told clientIDs past i := by
  refine l.told_log_of_none ?_
  unfold LogLine.news
  split_ifs
  · exact h
  · rfl

theorem Tells.but (hl : l.Tells clientIDs past)
    (hnone : (l.world.clients self).mqttAsyncHandle = none) :
    l.TellsBut clientIDs past self false where
  clientID := hl.clientID
  others := fun i _ => hl.handle i
  last := by
    rw [← Bool.not_eq_true, ← hl.handle self, hnone]
    exact not_not.2 rfl

theorem TellsBut.tells (hl : l.TellsBut clientIDs past self b)
    (h : (l.world.clients self).mqttAsyncHandle ≠ none ↔ b) : l.Tells clientIDs past := by
  refine ⟨hl.clientID, fun i => ?_⟩
  by_cases hi : i = self
  · rw [hi, hl.last]
    exact h
  · exact hl.others i hi

theorem TellsBut.through (hl : l.TellsBut clientIDs past self b) {w : World}
    (h : World.Apart self l.world w) : (l.through w).TellsBut clientIDs past self b where
  clientID := fun i => (h.clientIDs i).trans (hl.clientID i)
  others := by
    intro i hi
    rw [told_through, ← hl.others i hi]
    exact iff_of_eq (congrArg (fun c : PahoClient => c.mqttAsyncHandle ≠ none) (h.others i hi))
  last := by rw [told_through, hl.last]

/-- A part of a method says nothing of its own. -/
theorem TellsBut.does (hl : l.TellsBut clientIDs past self b) {w : World}
    {calls : List (Method × CallKind)} {parts : List ClientPart}
    (h : World.Does env self calls parts l.world w) : (l.through w).TellsBut clientIDs past self b :=
  hl.through (World.Apart.of_does h)

/-- A statement about the client with news of it. -/
theorem TellsBut.log (hids : Function.Injective clientIDs) (hl : l.TellsBut clientIDs past self b)
    {statement : LogStatement} {b' : Bool} (hclient : statement.client = self)
    (hnews : connectionNews statement.level statement.line = some b') :
    (l.log statement).TellsBut clientIDs past self b' := by
  have hid : (l.offer l.world.trace.length statement).clientID = clientIDs self := by
    rw [offer, hclient, hl.clientID]
  refine ⟨hl.clientID, fun i hi => ?_, ?_⟩
  · rw [told_log_of_none l (news_of_ne fun heq => hi (hids (heq.symm.trans hid)))]
    exact hl.others i hi
  · exact told_log_of_some l ((if_pos hid).trans hnews)

/-- After the destruction of the handle and the line that says so. -/
theorem TellsBut.destroy (henv : env.Honest) (hids : Function.Injective clientIDs)
    (hl : l.TellsBut clientIDs past self b) {statement : LogStatement}
    (hclient : statement.client = self)
    (hnews : connectionNews statement.level statement.line = some false) :
    ((l.through (l.world.destroy env self .connect)).log statement).Tells clientIDs past := by
  have hthrough := hl.does
    (World.does_destroy env self l.world (show .destroy ∈ Method.connect.kinds by simp [Method.kinds]))
  refine (hthrough.log hids hclient hnews).tells ?_
  exact iff_of_false (not_not.2 (henv.destroy_none l.world .connect)) Bool.false_ne_true

theorem Tells.disconnect (henv : env.Honest) (hids : Function.Injective clientIDs)
    (hl : l.Tells clientIDs past) : (l.disconnect env self).Tells clientIDs past := by
  unfold Logged.disconnect
  split
  · exact hl
  · next handle hhandle =>
      -- what the log says until the line of the disconnect does not matter
      have hbut : l.TellsBut clientIDs past self (l.told clientIDs past self) :=
        ⟨hl.clientID, fun i _ => hl.handle i, rfl⟩
      have hthrough := hbut.does (World.does_disconnect env self l.world)
      have hlogged : TellsBut clientIDs past self false (Logged.log
          ⟨self, .info, "disconnect", 169, "Performed disconnect action.", []⟩ _) :=
        hthrough.log hids rfl rfl
      refine hlogged.tells ?_
      exact iff_of_false (not_not.2 (henv.disconnect_none l.world)) Bool.false_ne_true

theorem TellsBut.orDestroy (henv : env.Honest) (hids : Function.Injective clientIDs) {line : ℕ}
    {text : NSString} {attempt : Logged × ℤ} {rest : Logged → Logged × ℤ}
    (hattempt : attempt.1.TellsBut clientIDs past self b)
    (hnews : connectionNews .info line = some false)
    (hrest : attempt.2 = mqttAsyncSuccess → (rest attempt.1).1.Tells clientIDs past) :
    (Logged.orDestroy env self line text attempt rest).1.Tells clientIDs past := by
  unfold Logged.orDestroy
  split_ifs with hrc
  · exact hattempt.destroy henv hids rfl hnews
  · exact hrest (not_not.1 hrc)

theorem TellsBut.sendConnect (hids : Function.Injective clientIDs)
    (hl : l.TellsBut clientIDs past self b) (userProperties : Option (NSDictionary PropertyObject)) :
    (l.sendConnect env self userProperties).1.TellsBut clientIDs past self true := by
  have hstatement : (userPropertiesLog self userProperties).client = self ∧
      connectionNews (userPropertiesLog self userProperties).level
        (userPropertiesLog self userProperties).line = some true := by
    unfold userPropertiesLog
    split <;> exact ⟨rfl, rfl⟩
  have hfilled := hl.does (World.does_fillConnectOpts env self l.world userProperties)
  have hlogged := hfilled.log hids hstatement.1 hstatement.2
  unfold Logged.sendConnect attempt
  dsimp only
  refine hlogged.through (World.Apart.modify (World.Apart.of_clients ?_) ?_)
  · rfl
  · exact fun _ => rfl

theorem handle_sendConnect (l : Logged) (userProperties : Option (NSDictionary PropertyObject)) :
    ((l.sendConnect env self userProperties).1.world.clients self).mqttAsyncHandle =
      (l.world.clients self).mqttAsyncHandle := by
  have hworld : ((l.world.sendConnect env self userProperties).1.clients self).mqttAsyncHandle =
      (l.world.clients self).mqttAsyncHandle := CocoaPaho.sendConnect_handle userProperties
  exact hworld

theorem Tells.connectWithUsername (henv : env.Honest) (hids : Function.Injective clientIDs)
    (hl : l.Tells clientIDs past) (username password : Option NSString)
    (userProperties : Option (NSDictionary PropertyObject)) :
    (l.connectWithUsername env self username password userProperties).1.Tells clientIDs past := by
  have hdisconnected : (l.disconnect env self).TellsBut clientIDs past self false := by
    refine (hl.disconnect henv hids).but ?_
    rw [disconnect_world]
    exact henv.disconnect_none l.world
  have hnamed := hdisconnected.through
    ((World.Apart.refl self _).modify (f := PahoClient.setUsername username) fun _ => rfl)
  have hready := hnamed.through
    ((World.Apart.refl self _).modify (f := PahoClient.setPassword password) fun _ => rfl)
  unfold Logged.connectWithUsername
  refine TellsBut.orDestroy henv hids (hready.does (World.does_create env self _)) rfl
    fun hcreated => ?_
  -- from here on there is a handle, and it stays
  have hhandle := henv.create_ne_none _ hcreated
  have hmade := hready.does (World.does_create env self _)
  have hconnected := hmade.does (World.does_setConnected env self _)
  refine TellsBut.orDestroy henv hids hconnected rfl fun _ => ?_
  have hcallbacks := hconnected.does (World.does_setCallbacks env self _)
  refine TellsBut.orDestroy henv hids hcallbacks rfl fun _ => ?_
  refine TellsBut.orDestroy henv hids (hcallbacks.sendConnect hids userProperties) rfl fun _ => ?_
  refine (hcallbacks.sendConnect hids userProperties).tells (iff_of_true ?_ rfl)
  rw [handle_sendConnect]
  exact hhandle

/-- Some parts of a method and statements without news, after which clients and handles are as
before. -/
theorem Tells.of_told (hl : l.Tells clientIDs past)
    (hclientID : ∀ i, (l'.world.clients i).clientID = (l.world.clients i).clientID)
    (hhandle : ∀ i, (l'.world.clients i).mqttAsyncHandle = (l.world.clients i).mqttAsyncHandle)
    (htold : ∀ i, l'.told clientIDs past i = l.told clientIDs past i) : l'.Tells clientIDs past where
  clientID := fun i => (hclientID i).trans (hl.clientID i)
  handle := by
    intro i
    rw [hhandle, htold]
    exact hl.handle i

theorem Tells.through (hl : l.Tells clientIDs past) {w : World} (h : w.clients = l.world.clients) :
    (l.through w).Tells clientIDs past := by
  refine hl.of_told (fun i => ?_) (fun i => ?_) fun i => told_through l w i
  · exact congrArg (fun clients => (clients i).clientID) h
  · exact congrArg (fun clients => (clients i).mqttAsyncHandle) h

/-- The lines of requests and assignments say nothing of handles. -/
theorem told_run {op : Operation} (h : l.run env self op = some l')
    (hconnect : op.method ≠ some .connect) (hdisconnect : op.method ≠ some .disconnect)
    (i : ClientId) : l'.told clientIDs past i = l.told clientIDs past i := by
  cases op with
  | connect username password userProperties => exact absurd rfl hconnect
  | disconnect => exact absurd rfl hdisconnect
  | subscribe topic qos =>
      cases h
      exact (told_through _ _ i).trans ((told_through _ _ i).trans (told_log_neutral l rfl i))
  | unsubscribeTopic topic =>
      cases h
      exact (told_through _ _ i).trans ((told_through _ _ i).trans (told_log_neutral l rfl i))
  | subscribeTopics topics =>
      cases h
      exact (told_through _ _ i).trans ((told_log_neutral _ rfl i).trans (told_through l _ i))
  | unsubscribeTopics topics =>
      cases h
      exact (told_through _ _ i).trans ((told_log_neutral _ rfl i).trans (told_through l _ i))
  | publish message properties =>
      obtain ⟨result, hresult, rfl⟩ := Option.map_eq_some_iff.1 h
      obtain ⟨result', -, rfl⟩ := Option.map_eq_some_iff.1 hresult
      exact (told_through _ _ i).trans ((told_log_neutral _ rfl i).trans (told_through l _ i))
  | isConnected =>
      cases h
      exact (told_through _ _ i).trans (told_through l _ i)
  | _ =>
      cases h
      exact told_through l _ i

theorem Tells.run (henv : env.Honest) (hids : Function.Injective clientIDs)
    (hl : l.Tells clientIDs past) {op : Operation} (h : l.run env self op = some l') :
    l'.Tells clientIDs past := by
  have hworld : op.run env self l.world = some l'.world := by rw [← run_world, h, Option.map_some]
  by_cases hconnect : op.method = some .connect
  · cases op with
    | connect username password userProperties =>
        cases h
        exact (hl.connectWithUsername henv hids username password userProperties).through rfl
    | _ => cases hconnect
  · by_cases hdisconnect : op.method = some .disconnect
    · cases op with
      | disconnect =>
          cases h
          exact (hl.disconnect henv hids).through rfl
      | _ => cases hdisconnect
    · have hrequested := requested_run hworld hconnect hdisconnect
      exact hl.of_told (clientID_run hworld hconnect) hrequested.handle
        (told_run h hconnect hdisconnect)

theorem Tells.dealloc (henv : env.Honest) (hids : Function.Injective clientIDs)
    (hl : l.Tells clientIDs past) (object : Obj) : (l.dealloc env object).Tells clientIDs past := by
  cases object with
  | client client =>
      have hmarked : (l.through (l.world.emit [.dealloc (.client client)])).Tells clientIDs past :=
        hl.through rfl
      have hlogged : Logged.Tells clientIDs past (Logged.log
          ⟨client, .info, "dealloc", 58, "Client Dealloc.", []⟩
          (l.through (l.world.emit [.dealloc (.client client)]))) :=
        hmarked.of_told (fun _ => rfl) (fun _ => rfl) (told_log_neutral _ rfl)
      exact hlogged.disconnect henv hids
  | _ => exact hl.through rfl

end Logged

/-- The logger shows a delegate everything from level `info` on. -/
structure PahoLogger.Shows (logEnv : LogEnv) (observer : LogDelegate) (logger : PahoLogger) :
    Prop where
  logLevel : PahoLogLevel.info.rawValue ≤ logger.logLevel.rawValue
  delegate : logger.delegate = some observer
  responds : logEnv.responds observer = true

/-- A step after which the logger still shows it. -/
def DiagnosticsStep.KeepsShowing (observer : LogDelegate) : DiagnosticsStep → Prop
  | .setLogLevel logLevel => PahoLogLevel.info.rawValue ≤ logLevel.rawValue
  | .setLogDelegate delegate => delegate = some observer
  | _ => True

namespace PahoLogger.Shows

variable {logEnv : LogEnv} {observer : LogDelegate} {logger : PahoLogger} {offer : LogLine}
variable {offers : List LogLine} {messages : List (LogDelegate × PahoLogMessage)}

theorem news_one (h : logger.Shows logEnv observer)
    (hmessages : logger.logWithCategory logEnv offer = some messages) (clientID : NSString) :
    (messages.map Prod.snd).filterMap (PahoLogMessage.news clientID) =
      (offer.news clientID).toList := by
  unfold PahoLogger.logWithCategory at hmessages
  split_ifs at hmessages with hlevel
  · -- what is left out is not of level `info`
    cases hmessages
    have hne : offer.level ≠ .info := by
      intro heq
      rw [heq] at hlevel
      exact absurd h.logLevel (not_le.2 hlevel)
    have hnone : offer.news clientID = none := by
      unfold LogLine.news connectionNews
      rw [if_pos hne, ite_self]
    rw [hnone]
    rfl
  · rw [h.delegate] at hmessages
    dsimp only at hmessages
    rw [if_pos h.responds] at hmessages
    obtain ⟨logContent, -, rfl⟩ := Option.map_eq_some_iff.1 hmessages
    have hsingle : ∀ message : PahoLogMessage, [message].filterMap (PahoLogMessage.news clientID) =
        (message.news clientID).toList := by
      intro message
      rw [List.filterMap_cons]
      cases message.news clientID <;> rfl
    exact hsingle _

/-- The messages hold the news of the lines. -/
theorem news (h : logger.Shows logEnv observer)
    (hmessages : logger.logAll logEnv offers = some messages) (clientID : NSString) :
    (messages.map Prod.snd).filterMap (PahoLogMessage.news clientID) =
      offers.filterMap (LogLine.news clientID) := by
  induction offers generalizing messages with
  | nil =>
      cases hmessages
      rfl
  | cons offer offers ih =>
      obtain ⟨first, hfirst, hrest⟩ := Option.bind_eq_some_iff.1 hmessages
      obtain ⟨rest, hall, rfl⟩ := Option.map_eq_some_iff.1 hrest
      rw [List.map_append, List.filterMap_append, h.news_one hfirst, ih hall, List.filterMap_cons]
      cases offer.news clientID <;> rfl

end PahoLogger.Shows

/-- The messages shown so far tell which clients have a handle. -/
structure Diagnostics.Tells (clientIDs : ClientId → NSString) (d : Diagnostics) : Prop where
  clientID : ∀ i, (d.session.world.clients i).clientID = clientIDs i
  handle : ∀ i, (d.session.world.clients i).mqttAsyncHandle ≠ none ↔
    connectedByLog (clientIDs i) (d.received.map Prod.snd)

namespace Diagnostics

variable {logEnv : LogEnv} {clientIDs : ClientId → NSString} {d d' : Diagnostics} {l : Logged}

/-- The news there have been of a client. -/
def past (d : Diagnostics) (clientIDs : ClientId → NSString) (i : ClientId) : List Bool :=
  (d.received.map Prod.snd).filterMap (PahoLogMessage.news (clientIDs i))

theorem Tells.before (hd : d.Tells clientIDs) : d.before.Tells clientIDs (d.past clientIDs) where
  clientID := hd.clientID
  handle := by
    intro i
    rw [Logged.told, Diagnostics.before, List.filterMap_nil, List.append_nil]
    exact hd.handle i

theorem Tells.effect (henv : env.Honest) (hids : Function.Injective clientIDs)
    (hd : d.Tells clientIDs) {e : SessionStep} (h : d.effect env e = some l) :
    l.Tells clientIDs (d.past clientIDs) := by
  cases e with
  | operation client op => exact hd.before.run henv hids h
  | _ =>
      unfold Diagnostics.effect at h
      obtain ⟨w, hw, rfl⟩ := Option.map_eq_some_iff.1 h
      cases hw
      exact hd.before.through rfl

theorem Tells.after (henv : env.Honest) (hids : Function.Injective clientIDs)
    (hd : d.Tells clientIDs) {e : SessionStep} (h : d.after env e = some l) :
    l.Tells clientIDs (d.past clientIDs) := by
  unfold Diagnostics.after at h
  split_ifs at h
  obtain ⟨l₁, heffect, rfl⟩ := Option.map_eq_some_iff.1 h
  have hgone := Logged.foldl_dealloc_induction (J := Logged.Tells clientIDs (d.past clientIDs))
    (fun _ object hl => hl.dealloc henv hids object) (d.session.gone e)
    (hd.effect henv hids heffect)
  refine hgone.through ?_
  exact d.session.finish_clients _ e

/-- A step shows the news of what it does. -/
theorem Tells.step (henv : env.Honest) (hids : Function.Injective clientIDs)
    {observer : LogDelegate} (hshows : d.logger.Shows logEnv observer) (hd : d.Tells clientIDs)
    {e : DiagnosticsStep} (h : d.step env logEnv e = some d') : d'.Tells clientIDs := by
  cases e with
  | session e =>
      obtain ⟨l, hafter, hl⟩ := Option.bind_eq_some_iff.1 h
      obtain ⟨messages, hmessages, rfl⟩ := Option.map_eq_some_iff.1 hl
      have htells := hd.after henv hids hafter
      refine ⟨htells.clientID, fun i => (htells.handle i).trans ?_⟩
      rw [connectedByLog, List.map_append, List.filterMap_append, hshows.news hmessages]
      rfl
  | _ =>
      cases h
      exact ⟨hd.clientID, hd.handle⟩

theorem shows_step {observer : LogDelegate} (hshows : d.logger.Shows logEnv observer)
    {e : DiagnosticsStep} (he : e.KeepsShowing observer) (h : d.step env logEnv e = some d') :
    d'.logger.Shows logEnv observer := by
  cases e with
  | session e =>
      obtain ⟨l, hafter, hl⟩ := Option.bind_eq_some_iff.1 h
      obtain ⟨messages, hmessages, rfl⟩ := Option.map_eq_some_iff.1 hl
      exact hshows
  | setCategory client category =>
      cases h
      exact hshows
  | setLogLevel logLevel =>
      cases h
      exact { hshows with logLevel := he }
  | setLogDelegate delegate =>
      cases h
      exact { hshows with delegate := he }

/-- New clients have no handle, and the lines of their initializers say nothing of one. -/
theorem tells_initial {logger : PahoLogger} {observer : LogDelegate}
    (hshows : logger.Shows logEnv observer) (objects : List Obj) (clientIDs : ClientId → NSString)
    (delegates : ClientId → Option Delegate) :
    (Diagnostics.initial logEnv logger objects clientIDs delegates).Tells clientIDs := by
  refine ⟨fun i => rfl, fun i => iff_of_false (not_not.2 rfl) ?_⟩
  have hlines : ∀ objects : List Obj, (objects.filterMap (initialLine clientIDs)).filterMap
      (LogLine.news (clientIDs i)) = [] := by
    intro objects
    rw [List.filterMap_filterMap, List.filterMap_eq_nil_iff]
    intro object _
    cases object with
    | client client => exact ite_self none
    | _ => rfl
  obtain ⟨messages, hmessages⟩ : ∃ messages,
      logger.logAll logEnv (objects.filterMap (initialLine clientIDs)) = some messages := by
    refine logger.logAll_isSome logEnv fun offer hoffer => ?_
    obtain ⟨object, -, hobject⟩ := List.mem_filterMap.1 hoffer
    cases object with
    | client client =>
        cases hobject
        exact (rfl : formatConversions "Initial Client." = some [])
    | _ => cases hobject
  rw [Diagnostics.initial, hmessages, Option.getD_some, connectedByLog, hshows.news hmessages,
    hlines]
  exact Bool.false_ne_true

end Diagnostics

/-- **The log tells who is connected.** Whatever the clients do, and whatever becomes of them: where
their identifiers differ, and a log delegate is shown everything from level `info` on, a client has a
library client exactly when the last of the delegate's messages about a connection of that client is
that of a connect under way. -/
theorem log_tells_connected (henv : env.Honest) {logEnv : LogEnv} {logger : PahoLogger}
    {observer : LogDelegate} (hshows : logger.Shows logEnv observer) {objects : List Obj}
    {clientIDs : ClientId → NSString} (hids : Function.Injective clientIDs)
    {delegates : ClientId → Option Delegate} {steps : List DiagnosticsStep}
    (hsteps : ∀ e ∈ steps, e.KeepsShowing observer) {d : Diagnostics}
    (hrun : runFrom (Diagnostics.step env logEnv)
      (Diagnostics.initial logEnv logger objects clientIDs delegates) steps = some d)
    (client : ClientId) :
    (d.session.world.clients client).mqttAsyncHandle ≠ none ↔
      connectedByLog (clientIDs client) (d.received.map Prod.snd) := by
  have hstep : ∀ (d : Diagnostics) (e : DiagnosticsStep) (d' : Diagnostics),
      d.logger.Shows logEnv observer ∧ d.Tells clientIDs → e.KeepsShowing observer →
        d.step env logEnv e = some d' → d'.logger.Shows logEnv observer ∧ d'.Tells clientIDs :=
    fun _ _ _ hd he h => ⟨Diagnostics.shows_step hd.1 he h, hd.2.step henv hids hd.1 h⟩
  have hkept := runFrom_invariant_of_steps hstep
    ⟨hshows, Diagnostics.tells_initial hshows objects clientIDs delegates⟩
    ((allSteps_input_iff hrun).2 hsteps) hrun
  exact hkept.2.handle client

/-- Two clients connect and the first one disconnects, seen by log delegate 0. -/
def twoClientsLogged : Option Diagnostics :=
  runFrom (Diagnostics.step obligingEnv plainLogEnv)
    (Diagnostics.initial plainLogEnv ⟨.info, some 0⟩ [.client 0, .client 1]
      (fun i => String.ofList (List.replicate i 'c')) fun _ => none)
    [.session (.operation 0 (.connect none none none)),
      .session (.operation 1 (.connect none none none)), .session (.operation 0 .disconnect)]

theorem log_tells_connected_two :
    ∃ d : Diagnostics, twoClientsLogged = some d ∧ d.received.length = 5 ∧
      ¬ connectedByLog "" (d.received.map Prod.snd) ∧
      connectedByLog "c" (d.received.map Prod.snd) := by
  have hids : Function.Injective fun i : ClientId => String.ofList (List.replicate i 'c') := by
    intro i j hij
    have hlists : List.replicate i 'c' = List.replicate j 'c' := String.ofList_injective hij
    have hlength := congrArg List.length hlists
    rwa [List.length_replicate, List.length_replicate] at hlength
  have hshows : PahoLogger.Shows plainLogEnv 0 ⟨.info, some 0⟩ := ⟨le_rfl, rfl, rfl⟩
  have hrun : twoClientsLogged = some _ := rfl
  have htells := log_tells_connected obligingEnv_honest hshows hids
    (by simp [DiagnosticsStep.KeepsShowing]) hrun
  refine ⟨_, rfl, rfl, fun hconnected => ?_, (htells 1).1 ?_⟩
  · exact absurd rfl ((htells 0).2 hconnected)
  · exact Option.some_ne_none 1

end CocoaPaho
