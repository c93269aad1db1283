import Mathlib.Data.List.InsertIdx
import CocoaPaho.Diagnostics
import CocoaPaho.RedactedWorlds

/-!
What the log keeps to itself: whatever lines are offered and messages shown in a run, they are the same
in every run that differs in secrets only and is answered alike.
-/

namespace CocoaPaho

open Base

def SessionStep.redacted : SessionStep → SessionStep
  | operation client op => .operation client op.redacted
  | setSSLOption ssl _ => .setSSLOption ssl (.privateKeyPassword none)
  | enter d => .enter d.redacted
  | e => e

def DiagnosticsStep.redacted : DiagnosticsStep → DiagnosticsStep
  | session e => .session e.redacted
  | e => e

/-- Worlds that differ in secrets only, with the same log. -/
structure Logged.Alike (l l' : Logged) : Prop where
  world : l.world.Alike l'.world
  categories : l.categories = l'.categories
  lines : l.lines = l'.lines

/-- The same of the results of a method. -/
structure AlikeLoggedResults (r r' : Logged × ℤ) : Prop where
  logged : r.1.Alike r'.1
  code : r.2 = r'.2

variable {env env' : Env} {w w' : World} {l l' : Logged}

theorem eventLog_redacted (e : Event) : eventLog e.redacted = eventLog e := by
  have hcallback : ∀ d : Dispatch, callbackLog d.redacted = callbackLog d := by
    intro d
    obtain ⟨source, context, invocation⟩ := d
    cases invocation <;> rfl
  cases e with
  | enter d result => exact hcallback d
  | _ => rfl

namespace Logged.Alike

theorem offer (h : l.Alike l') : l.offer = l'.offer := by
  funext moment statement
  rw [Logged.offer, Logged.offer, h.categories, h.world.clientID]

theorem eventLines (h : l.Alike l') {events events' : List Event}
    (he : events.map Event.redacted = events'.map Event.redacted) (place : ℕ) :
    l.eventLines place events = l'.eventLines place events' := by
  have hredacted : ∀ (l : Logged) (events : List Event) (place : ℕ),
      l.eventLines place events = l.eventLines place (events.map Event.redacted) := by
    intro l events
    induction events with
    | nil => exact fun _ => rfl
    | cons e events ih =>
        intro place
        rw [List.map_cons, Logged.eventLines, Logged.eventLines, eventLog_redacted, ih]
  have hoffer : ∀ (events : List Event) (place : ℕ),
      l.eventLines place events = l'.eventLines place events := by
    intro events
    induction events with
    | nil => exact fun _ => rfl
    | cons e events ih =>
        intro place
        rw [Logged.eventLines, Logged.eventLines, h.offer, ih]
  rw [hredacted, he, ← hredacted, hoffer]

theorem log (h : l.Alike l') (statement : LogStatement) :
    (l.log statement).Alike (l'.log statement) where
  world := h.world
  categories := h.categories
  lines := by rw [Logged.log, Logged.log, h.lines, h.offer, h.world.length_trace]

theorem through (h : l.Alike l') (hw : w.Alike w') : (l.through w).Alike (l'.through w') where
  world := hw
  categories := h.categories
  lines := by
    have hdrop : (w.trace.drop l.world.trace.length).map Event.redacted =
        (w'.trace.drop l'.world.trace.length).map Event.redacted := by
      rw [List.map_drop, List.map_drop, hw.trace, h.world.length_trace]
    rw [Logged.through, Logged.through, h.lines, h.eventLines hdrop, h.world.length_trace]

theorem attempt (h : l.Alike l') {result result' : World × ℤ} (hr : AlikeResults result result') :
    AlikeLoggedResults (l.attempt result) (l'.attempt result') :=
  ⟨h.through hr.world, hr.code⟩

end Logged.Alike

/-- A log statement at the end of a method. -/
theorem AlikeLoggedResults.log {r r' : Logged × ℤ} (h : AlikeLoggedResults r r')
    (statement : LogStatement) :
    AlikeLoggedResults (r.1.log statement, r.2) (r'.1.log statement, r'.2) :=
  ⟨h.logged.log statement, h.code⟩

namespace Logged.Alike

theorem disconnect (henv : AnsweredAlike env env') (h : l.Alike l') (self : ClientId) :
    (l.disconnect env self).Alike (l'.disconnect env' self) := by
  unfold Logged.disconnect
  rw [h.world.handle]
  split
  · exact h
  · exact (h.through (h.world.disconnect henv self)).log _

theorem orDestroy (henv : AnsweredAlike env env') (self : ClientId) (line : ℕ) (text : NSString)
    {attempt attempt' : Logged × ℤ} (h : AlikeLoggedResults attempt attempt')
    {rest rest' : Logged → Logged × ℤ}
    (hrest : ∀ l l', l.Alike l' → AlikeLoggedResults (rest l) (rest' l')) :
    AlikeLoggedResults (Logged.orDestroy env self line text attempt rest)
      (Logged.orDestroy env' self line text attempt' rest') := by
  unfold Logged.orDestroy
  rw [h.code]
  split_ifs
  · exact ⟨(h.logged.through (h.logged.world.destroy henv self .connect)).log _, rfl⟩
  · exact hrest _ _ h.logged

theorem sendConnect (henv : AnsweredAlike env env') (h : l.Alike l') (self : ClientId)
    (userProperties : Option (NSDictionary PropertyObject)) :
    AlikeLoggedResults (l.sendConnect env self userProperties)
      (l'.sendConnect env' self userProperties) := by
  have hlogged := (h.through (h.world.fillConnectOpts henv self userProperties)).log
    (Logged.userPropertiesLog self userProperties)
  exact hlogged.attempt (hlogged.world.connect henv self)

theorem connectWithUsername (henv : AnsweredAlike env env') (h : l.Alike l') (self : ClientId)
    (username password : Option NSString) (userProperties : Option (NSDictionary PropertyObject)) :
    AlikeLoggedResults (l.connectWithUsername env self username password userProperties)
      (l'.connectWithUsername env' self none none userProperties) := by
  have hdisconnect := h.disconnect henv self
  have husername : Logged.Alike
      ((l.disconnect env self).through
        ((l.disconnect env self).world.modify self (PahoClient.setUsername username)))
      ((l'.disconnect env' self).through
        ((l'.disconnect env' self).world.modify self (PahoClient.setUsername none))) :=
    hdisconnect.through (hdisconnect.world.set self (.username username))
  have hpassword := husername.through (husername.world.set self (.password password))
  unfold Logged.connectWithUsername
  refine orDestroy henv self _ _ (hpassword.attempt (hpassword.world.create henv self))
    fun l l' h => ?_
  refine orDestroy henv self _ _ (h.attempt (h.world.setConnected henv self)) fun l l' h => ?_
  refine orDestroy henv self _ _ (h.attempt (h.world.setCallbacks henv self)) fun l l' h => ?_
  refine orDestroy henv self _ _ (h.sendConnect henv self userProperties) fun l l' h => ?_
  exact ⟨h, rfl⟩

theorem returning {r r' : Logged × ℤ} (h : AlikeLoggedResults r r') (self : ClientId)
    (method : Method) : (Logged.returning self method r).Alike (Logged.returning self method r') := by
  unfold Logged.returning
  rw [h.code]
  exact h.logged.through (h.logged.world.emit_same _)

theorem description_redacted (message : PahoPublishedMessage) :
    message.redacted.description = message.description := by
  have hempty : message.redacted.payload.isEmpty = message.payload.isEmpty := by
    rw [PahoPublishedMessage.redacted, JSONObject.isEmpty, JSONObject.redacted]
    cases hpayload : message.payload.sortedKeysText with
    | none => rw [JSONObject.isEmpty, hpayload, Option.map_none]
    | some text =>
        cases hsome : message.payload.isEmpty with
        | true => rfl
        | false => rfl
  rw [PahoPublishedMessage.description, hempty]
  rfl

/-- An operation, and the same one without its secrets. -/
theorem run (henv : AnsweredAlike env env') (h : l.Alike l') (self : ClientId) (op : Operation) :
    Option.Rel Logged.Alike (l.run env self op) (l'.run env' self op.redacted) := by
  cases op with
  | connect username password userProperties =>
      exact .some (returning (h.connectWithUsername henv self username password userProperties) self
        .connect)
  | disconnect =>
      have hresult : AlikeLoggedResults (l.disconnect env self, 0) (l'.disconnect env' self, 0) :=
        ⟨h.disconnect henv self, rfl⟩
      exact .some (returning hresult self .disconnect)
  | subscribe topic qos =>
      have hlogged := h.log ⟨self, .info, "subscribe:qos:", 177, "Topic: %@, qos: %d",
        [.object (.string topic), .int qos]⟩
      exact .some (returning (hlogged.attempt (hlogged.world.subscribe henv self topic qos)) self
        .subscribe)
  | subscribeTopics topics =>
      have hresult := h.attempt (h.world.subscribeTopics henv self topics)
      exact .some (returning (hresult.log _) self .subscribeTopics)
  | unsubscribeTopic topic =>
      have hlogged := h.log ⟨self, .info, "unsubscribeTopic:", 218, "topic: %@",
        [.object (.string topic)]⟩
      exact .some (returning (hlogged.attempt (hlogged.world.unsubscribeTopic henv self topic)) self
        .unsubscribeTopic)
  | unsubscribeTopics topics =>
      have hresult := h.attempt (h.world.unsubscribeTopics henv self topics)
      exact .some (returning (hresult.log _) self .unsubscribeTopics)
  | publish message properties =>
      have hpublished := h.world.publish henv self message properties
      rw [Logged.run, Operation.redacted, Logged.run, Logged.publish, Logged.publish,
        description_redacted]
      generalize l.world.publish env self message properties = result at hpublished ⊢
      generalize l'.world.publish env' self message.redacted properties.redacted = result'
        at hpublished ⊢
      cases hpublished with
      | none => exact .none
      | some hr =>
          exact .some (returning ((h.attempt hr).log _) self .publish)
  | isConnected =>
      exact .some (returning (h.attempt (h.world.isConnected henv self)) self .isConnected)
  | set setter => exact .some (h.through (h.world.set self setter))
  | setServerURIs serverURIs => exact .some (h.through (h.world.setServerURIs self serverURIs))
  | setSSL ssl => exact .some (h.through (h.world.setSSL self ssl))

theorem dealloc (henv : AnsweredAlike env env') (h : l.Alike l') (object : Obj) :
    (l.dealloc env object).Alike (l'.dealloc env' object) := by
  cases object with
  | client client =>
      exact ((h.through (h.world.emit_same _)).log _).disconnect henv client
  | _ => exact h.through (h.world.emit_same _)

theorem foldl_dealloc (henv : AnsweredAlike env env') (objects : List Obj) (h : l.Alike l') :
    (objects.foldl (Logged.dealloc env) l).Alike (objects.foldl (Logged.dealloc env') l') := by
  induction objects generalizing l l' with
  | nil => exact h
  | cons object objects ih => exact ih (h.dealloc henv object)

end Logged.Alike

/-- Sessions that differ in secrets only. -/
structure Session.Alike (s s' : Session) : Prop where
  world : s.world.Alike s'.world
  refs : s.refs = s'.refs
  frames : s.frames.map Dispatch.redacted = s'.frames.map Dispatch.redacted

namespace Session.Alike

variable {s s' : Session}

theorem enabled (h : s.Alike s') (e : SessionStep) : s.Enabled e ↔ s'.Enabled e.redacted := by
  have hlength : s.frames.length = s'.frames.length := by
    simpa using congrArg List.length h.frames
  cases e with
  | operation client op =>
      cases op <;> simp [Enabled, SessionStep.redacted, Operation.redacted, h.refs]
  | _ => simp [Enabled, SessionStep.redacted, h.refs, hlength]

theorem frame (h : s.Alike s') (frame : ℕ) :
    s.frames[frame]?.map Dispatch.redacted = s'.frames[frame]?.map Dispatch.redacted := by
  rw [← List.getElem?_map, h.frames, List.getElem?_map]

theorem context (h : s.Alike s') (frame : ℕ) :
    s.frames[frame]?.bind Dispatch.context = s'.frames[frame]?.bind Dispatch.context := by
  have hcontext := congrArg (Option.bind · Dispatch.context) (h.frame frame)
  rw [Option.bind_map, Option.bind_map] at hcontext
  exact hcontext

theorem given (h : s.Alike s') (e : SessionStep) : s.given e = s'.given e.redacted := by
  cases e with
  | operation client op =>
      cases op with
      | setSSL ssl =>
          rw [SessionStep.redacted, Operation.redacted, Session.given, Session.given, h.world.ssl]
          all_goals simp
      | _ => rfl
  | leave frame => rw [SessionStep.redacted, Session.given, Session.given, h.context]; all_goals simp
  | _ => rfl

theorem taken (e : SessionStep) : Session.taken e.redacted = Session.taken e := by
  cases e with
  | operation client op => cases op <;> rfl
  | _ => rfl

theorem dropped (h : s.Alike s') (e : SessionStep) : s.dropped e = s'.dropped e.redacted := by
  have howned : s.world.owned = s'.world.owned := by
    funext object
    cases object with
    | client client => rw [World.owned, World.owned, h.world.ssl]
    | _ => rfl
  rw [Session.dropped, Session.dropped, h.given, taken, h.refs, howned]

theorem finish (h : s.Alike s') {w w' : World} (hw : w.Alike w') (e : SessionStep) :
    (s.finish w e).Alike (s'.finish w' e.redacted) := by
  cases e with
  | leave frame =>
      have hframe := h.frame frame
      rw [SessionStep.redacted, Session.finish, Session.finish]
      · cases hd : s.frames[frame]? with
        | none =>
            cases hd' : s'.frames[frame]? with
            | none => exact hw
            | some d' => simp [hd, hd'] at hframe
        | some d =>
            cases hd' : s'.frames[frame]? with
            | none => simp [hd, hd'] at hframe
            | some d' =>
                rw [hd, hd', Option.map_some, Option.map_some, Option.some_inj] at hframe
                exact hw.emit (congrArg (fun d => [Event.leave d]) hframe)
      all_goals simp
  | _ => exact hw

theorem framesAfter (h : s.Alike s') (e : SessionStep) :
    (s.framesAfter e).map Dispatch.redacted = (s'.framesAfter e.redacted).map Dispatch.redacted := by
  cases e with
  | enter d => exact congrArg₂ List.cons d.redacted_redacted.symm h.frames
  | leave frame =>
      rw [SessionStep.redacted, Session.framesAfter, Session.framesAfter]
      · rw [← List.eraseIdx_map, h.frames, List.eraseIdx_map]
      all_goals simp
  | _ => exact h.frames

end Session.Alike

/-- Diagnostics that differ in secrets only, with the same log. -/
structure Diagnostics.Alike (d d' : Diagnostics) : Prop where
  session : d.session.Alike d'.session
  categories : d.categories = d'.categories
  logger : d.logger = d'.logger
  lines : d.lines = d'.lines
  received : d.received = d'.received

namespace Diagnostics.Alike

variable {d d' : Diagnostics} {logEnv : LogEnv}

theorem before (h : d.Alike d') : d.before.Alike d'.before := ⟨h.session.world, h.categories, rfl⟩

theorem effect (henv : AnsweredAlike env env') (h : d.Alike d') (e : SessionStep) :
    Option.Rel Logged.Alike (d.effect env e) (d'.effect env' e.redacted) := by
  cases e with
  | operation client op => exact h.before.run henv client op
  | setSSLOption ssl setter =>
      exact .some (h.before.through ⟨h.session.world.clients, h.session.world.trace⟩)
  | enter d =>
      refine .some (h.before.through (h.session.world.emit ?_))
      exact congrArg (fun d => [Event.enter d {}]) d.redacted_redacted.symm
  | _ => exact .some (h.before.through h.session.world)

theorem after (henv : AnsweredAlike env env') (h : d.Alike d') (e : SessionStep) :
    Option.Rel Logged.Alike (d.after env e) (d'.after env' e.redacted) := by
  have heffect := h.effect henv e
  have hgone : d.session.gone e = d'.session.gone e.redacted :=
    congrArg Prod.snd (h.session.dropped e)
  unfold Diagnostics.after
  by_cases henabled : d.session.Enabled e
  · rw [if_pos henabled, if_pos ((h.session.enabled e).1 henabled)]
    generalize d.effect env e = l at heffect ⊢
    generalize d'.effect env' e.redacted = l' at heffect ⊢
    cases heffect with
    | none => exact .none
    | some hl =>
        have hleft := hl.foldl_dealloc henv (d.session.gone e)
        rw [Option.map_some, Option.map_some, ← hgone]
        exact .some (hleft.through (h.session.finish hleft.world e))
  · rw [if_neg henabled, if_neg (mt (h.session.enabled e).2 henabled)]
    exact .none

/-- **A step**, and the same one without its secrets. -/
theorem step (henv : AnsweredAlike env env') (h : d.Alike d') (e : DiagnosticsStep) :
    Option.Rel Diagnostics.Alike (d.step env logEnv e) (d'.step env' logEnv e.redacted) := by
  cases e with
  | session e =>
      have hafter := h.after henv e
      rw [DiagnosticsStep.redacted, Diagnostics.step, Diagnostics.step, h.logger]
      generalize d.after env e = l at hafter ⊢
      generalize d'.after env' e.redacted = l' at hafter ⊢
      cases hafter with
      | none => exact .none
      | some hl =>
          rw [Option.bind_some, Option.bind_some, hl.lines]
          cases d'.logger.logAll logEnv _ with
          | none => exact .none
          | some messages =>
              refine .some ⟨⟨hl.world, ?_, ?_⟩, h.categories, rfl, ?_, ?_⟩
              · exact congrArg Prod.fst (h.session.dropped e)
              · exact h.session.framesAfter e
              · exact congrArg₂ _ h.lines rfl
              · exact congrArg₂ _ h.received rfl
  | setCategory client category =>
      refine .some ⟨h.session, ?_, h.logger, h.lines, h.received⟩
      exact congrArg (Function.update · client category) h.categories
  | setLogLevel logLevel =>
      refine .some ⟨h.session, h.categories, ?_, h.lines, h.received⟩
      exact congrArg (fun logger : PahoLogger => { logger with logLevel := logLevel }) h.logger
  | setLogDelegate delegate =>
      refine .some ⟨h.session, h.categories, ?_, h.lines, h.received⟩
      exact congrArg (fun logger : PahoLogger => { logger with delegate := delegate }) h.logger

end Diagnostics.Alike

/-- What can be seen of the log. -/
def Diagnostics.observed (d : Diagnostics) : List LogLine × List (LogDelegate × PahoLogMessage) :=
  (d.lines, d.received)

theorem logs_redacted (henv : AnsweredAlike env env') (logEnv : LogEnv) {d : Diagnostics}
    (steps : List DiagnosticsStep) :
    (runFrom (Diagnostics.step env logEnv) d steps).map Diagnostics.observed =
      (runFrom (Diagnostics.step env' logEnv) d (steps.map DiagnosticsStep.redacted)).map
        Diagnostics.observed := by
  have hself : d.Alike d :=
    ⟨⟨⟨fun _ => rfl, rfl⟩, rfl, rfl⟩, rfl, rfl, rfl, rfl⟩
  have hstep : ∀ (d d' : Diagnostics) (e : DiagnosticsStep), d.Alike d' →
      Option.Rel Diagnostics.Alike (d.step env logEnv e) (d'.step env' logEnv e.redacted) :=
    fun _ _ e h => h.step henv e
  have hrun := runFrom_rel hstep steps hself
  generalize runFrom (Diagnostics.step env logEnv) d steps = result at hrun ⊢
  generalize runFrom (Diagnostics.step env' logEnv) d (steps.map DiagnosticsStep.redacted) = result'
    at hrun ⊢
  cases hrun with
  | none => rfl
  | some h => exact congrArg some (Prod.ext h.lines h.received)

/-- **The log keeps secrets.** Two runs with the same steps but for user names, passwords, what is set
in options objects for SSL, and the payloads and properties of messages sent and received, of which the
library answers the calls alike, offer the same lines and show the same messages. -/
theorem logs_keep_secrets {env env' : Env} (hanswers : AnsweredAlike env env') (logEnv : LogEnv)
    (logger : PahoLogger) (objects : List Obj) (clientIDs : ClientId → NSString)
    (delegates : ClientId → Option Delegate) {steps steps' : List DiagnosticsStep}
    (hsteps : steps.map DiagnosticsStep.redacted = steps'.map DiagnosticsStep.redacted) :
    (runFrom (Diagnostics.step env logEnv)
        (Diagnostics.initial logEnv logger objects clientIDs delegates) steps).map
      Diagnostics.observed =
    (runFrom (Diagnostics.step env' logEnv)
        (Diagnostics.initial logEnv logger objects clientIDs delegates) steps').map
      Diagnostics.observed := by
  rw [logs_redacted hanswers logEnv steps, hsteps,
    logs_redacted hanswers.symm.refl_left logEnv steps']

/-- The obliging library looks at nothing secret. -/
theorem obligingEnv_answersAlike : AnsweredAlike obligingEnv obligingEnv where
  reply := by
    intro t t' c c' ht hc
    have hkind : ∀ c : LibCall, c.kind = c.redacted.kind := by
      intro c
      cases c <;> rfl
    have hcreated : ∀ t : List Event, created t = created (t.map Event.redacted) := by
      intro t
      rw [created, created, List.countP_map]
      refine List.countP_congr fun e _ => ?_
      cases e with
      | call client method c r => cases c <;> rfl
      | _ => rfl
    simp only [obligingEnv, hkind c, hc, ← hkind c', hcreated t, ht, ← hcreated t']
  enableSSLConnection := rfl

/-- A connect under a password, seen by log delegate 0. -/
def connectUnder (password : NSString) : Option Diagnostics :=
  runFrom (Diagnostics.step obligingEnv plainLogEnv)
    (Diagnostics.initial plainLogEnv ⟨.debug, some 0⟩ [.client 0] (fun _ => "c") fun _ => some 0)
    [.session (.operation 0 (.connect (some "user") (some password) none))]

/-- Two passwords, one log. -/
theorem logs_keep_secrets_password :
    ((connectUnder "one").map fun d => d.received.length) = some 2 ∧
      (connectUnder "one").map Diagnostics.observed =
        (connectUnder "two").map Diagnostics.observed :=
  ⟨rfl, logs_keep_secrets obligingEnv_answersAlike plainLogEnv _ _ _ _ rfl⟩

end CocoaPaho
