import CocoaPaho.Base.Lockstep
import CocoaPaho.LoggedClient

/-!
Sessions with the log. The application gives clients a category, and the logger a level and a delegate,
at any time; each line is shown by the logger as it is when the line is offered. A log delegate that is
told something does not call the wrapper.
-/

namespace CocoaPaho

open Base

inductive DiagnosticsStep where
  | session (e : SessionStep)
  | setCategory (client : ClientId) (category : NSString)
  | setLogLevel (logLevel : PahoLogLevel)
  /-- An assignment, or `nil` because the delegate has gone. -/
  | setLogDelegate (delegate : Option LogDelegate)

/-- The step of the session, if it is one. -/
def DiagnosticsStep.visible : DiagnosticsStep → Option SessionStep
  | session e => some e
  | _ => none

structure Diagnostics where
  session : Session
  categories : ClientId → NSString
  logger : PahoLogger
  /-- The lines offered to the logger. -/
  lines : List LogLine
  /-- The messages the log delegates have received. -/
  received : List (LogDelegate × PahoLogMessage)

namespace Diagnostics

variable (env : Env) (logEnv : LogEnv) (d : Diagnostics)

/-- The world before a step, with no line of the step offered. -/
def before : Logged := ⟨d.session.world, d.categories, []⟩

def effect : SessionStep → Option Logged
  | .operation client op => d.before.run env client op
  | e => (d.session.effect env e).map d.before.through

/-- The world after a step of the session, with the lines it offers. -/
def after (e : SessionStep) : Option Logged :=
  if d.session.Enabled e then
    (d.effect env e).map fun l =>
      let l := (d.session.gone e).foldl (Logged.dealloc env) l
      l.through (d.session.finish l.world e)
  else none

def step : DiagnosticsStep → Option Diagnostics
  | .session e =>
    (d.after env e).bind fun l =>
      (d.logger.logAll logEnv l.lines).map fun messages =>
        { d with
          session :=
            { world := l.world
              refs := (d.session.dropped e).1
              frames := d.session.framesAfter e }
          lines := d.lines ++ l.lines
          received := d.received ++ messages }
  | .setCategory client category =>
    some { d with categories := Function.update d.categories client category }
  | .setLogLevel logLevel => some { d with logger := { d.logger with logLevel := logLevel } }
  | .setLogDelegate delegate => some { d with logger := { d.logger with delegate := delegate } }

/-- What the initializer of a client offers, when the category is set. -/
def initialLine (clientIDs : ClientId → NSString) : Obj → Option LogLine
  | .client client => some
      { moment := 0
        category := "Default"
        level := .info
        function := "initWithClientID:"
        line := 51
        clientID := clientIDs client
        format := "Initial Client."
        args := [] }
  | _ => none

/-- New objects, made under the eyes of a logger. -/
def initial (logger : PahoLogger) (objects : List Obj) (clientIDs : ClientId → NSString)
    (delegates : ClientId → Option Delegate) : Diagnostics where
  session := Session.initial objects clientIDs delegates
  categories := fun _ => "Default"
  logger := logger
  lines := objects.filterMap (initialLine clientIDs)
  received := (logger.logAll logEnv (objects.filterMap (initialLine clientIDs))).getD []

end Diagnostics

namespace Diagnostics

variable {env : Env} {logEnv : LogEnv} {d d' : Diagnostics} {e : SessionStep} {l : Logged}

theorem foldl_dealloc_world (objects : List Obj) (l : Logged) :
    (objects.foldl (Logged.dealloc env) l).world = objects.foldl (World.dealloc env) l.world := by
  induction objects generalizing l with
  | nil => rfl
  | cons object objects ih =>
      rw [List.foldl_cons, List.foldl_cons, ih, Logged.dealloc_world]

/-- An operation logs on its own account, the other steps through the callbacks in them. -/
theorem effect_cases (h : d.effect env e = some l) :
    (∃ client op, e = .operation client op ∧ d.before.run env client op = some l) ∨
      ∃ w, d.session.effect env e = some w ∧ l = d.before.through w := by
  cases e with
  | operation client op => exact Or.inl ⟨client, op, rfl, h⟩
  | _ =>
      unfold effect at h
      obtain ⟨w, hw, rfl⟩ := Option.map_eq_some_iff.1 h
      exact Or.inr ⟨w, hw, rfl⟩

theorem effect_world (d : Diagnostics) (e : SessionStep) :
    (d.effect env e).map Logged.world = d.session.effect env e := by
  cases e with
  | operation client op => exact d.before.run_world op
  | _ => rfl

/-- The session after a step, as far as the log is concerned. -/
theorem after_session (d : Diagnostics) (e : SessionStep) :
    ((d.after env e).map fun l =>
      { world := l.world
        refs := (d.session.dropped e).1
        frames := d.session.framesAfter e : Session }) = d.session.step env e := by
  unfold after Session.step
  split_ifs
  · rw [← effect_world, Option.map_map, Option.map_map]
    congr 1
    funext l
    simp only [Function.comp_apply, Logged.through, foldl_dealloc_world]
  · rfl

/-- A line that is well-formed once its statement is. -/
theorem eventLines_matched (l : Logged) (events : List Event) (place : ℕ) :
    ∀ line ∈ l.eventLines place events, line.Matched := by
  induction events generalizing place with
  | nil => simp [Logged.eventLines]
  | cons e events ih =>
      intro line hline
      rcases List.mem_append.1 hline with hline | hline
      · obtain ⟨statement, hstatement, rfl⟩ := Option.map_eq_some_iff.1 (Option.mem_toList.1 hline)
        cases e with
        | enter d result => exact Logged.callbackLog_matched hstatement
        | _ => cases hstatement
      · exact ih (place + 1) line hline

/-- The format of every line a step offers is met by its arguments. -/
theorem after_matched (h : d.after env e = some l) : ∀ line ∈ l.lines, line.Matched := by
  have hthrough : ∀ (l : Logged) (w : World), (∀ line ∈ l.lines, line.Matched) →
      ∀ line ∈ (l.through w).lines, line.Matched := by
    intro l w hl line hline
    rcases List.mem_append.1 hline with hline | hline
    · exact hl line hline
    · exact eventLines_matched l _ _ line hline
  have hlog : ∀ (l : Logged) (statement : LogStatement), statement.Matched →
      (∀ line ∈ l.lines, line.Matched) → ∀ line ∈ (l.log statement).lines, line.Matched := by
    intro l statement hstatement hl line hline
    rcases List.mem_append.1 hline with hline | hline
    · exact hl line hline
    · rw [List.mem_singleton.1 hline]
      exact hstatement
  have hbefore : ∀ line ∈ d.before.lines, line.Matched := by simp [before]
  unfold after at h
  split_ifs at h
  obtain ⟨l₁, heffect, rfl⟩ := Option.map_eq_some_iff.1 h
  have heffect' : ∀ line ∈ l₁.lines, line.Matched := by
    rcases effect_cases heffect with ⟨client, op, rfl, hrun⟩ | ⟨w, -, rfl⟩
    · exact Logged.run_induction hthrough hlog hbefore hrun
    · exact hthrough _ _ hbefore
  refine hthrough _ _ ?_
  exact Logged.foldl_dealloc_induction (J := fun l => ∀ line ∈ l.lines, line.Matched)
    (fun l object hl => Logged.dealloc_induction hthrough hlog hl object) _ heffect'

/-- A step of the session goes through with the log when it goes through without. -/
theorem step_session (d : Diagnostics) (e : SessionStep) :
    (d.step env logEnv (.session e)).map session = d.session.step env e := by
  rw [← after_session, step]
  cases hafter : d.after env e with
  | none => rfl
  | some l =>
      obtain ⟨messages, hmessages⟩ := d.logger.logAll_isSome logEnv (after_matched hafter)
      rw [Option.bind_some, hmessages]
      rfl

end Diagnostics

/-- **Logging is transparent.** Whatever categories, levels and log delegates are set on the way, a
session goes through with the log exactly when it goes through without, and comes to the same end; in
particular no line, whatever the application, the library and the server put into it, has a format that
its arguments do not fit. -/
theorem logging_is_transparent (env : Env) (logEnv : LogEnv) (logger : PahoLogger)
    (objects : List Obj) (clientIDs : ClientId → NSString) (delegates : ClientId → Option Delegate)
    (steps : List DiagnosticsStep) :
    (runFrom (Diagnostics.step env logEnv)
        (Diagnostics.initial logEnv logger objects clientIDs delegates) steps).map
      Diagnostics.session =
    runFrom (Session.step env) (Session.initial objects clientIDs delegates)
      (steps.filterMap DiagnosticsStep.visible) := by
  have hvisible : ∀ (d : Diagnostics) (e : DiagnosticsStep) (visible : SessionStep),
      e.visible = some visible →
        (d.step env logEnv e).map Diagnostics.session = d.session.step env visible := by
    intro d e visible he
    cases e with
    | session e =>
        cases he
        exact d.step_session visible
    | _ => cases he
  have hhidden : ∀ (d : Diagnostics) (e : DiagnosticsStep), e.visible = none →
      ∃ d', d.step env logEnv e = some d' ∧ d'.session = d.session := by
    intro d e he
    cases e with
    | session e => cases he
    | _ => exact ⟨_, rfl, rfl⟩
  exact runFrom_project hvisible hhidden steps _

end CocoaPaho
