import Mathlib.Logic.Function.Basic
import CocoaPaho.Base.Bytes

/-!
`PahoTrace.m`: the trace of the library, shown to a delegate. The level and the callback of the trace
are the library's, and any trace object sets them; the callback shows the trace to the delegate of the
shared object, which is made when it is first asked for.
-/

namespace CocoaPaho

open Base

inductive PahoTraceLevel where
  | maximum
  | medium
  | minimum
  | protocol
  | error
  | severe
  | fatal
  deriving DecidableEq

/-- The numbers of the enumeration. -/
def PahoTraceLevel.rawValue : PahoTraceLevel → ℕ
  | maximum => 1
  | medium => 2
  | minimum => 3
  | protocol => 4
  | error => 5
  | severe => 6
  | fatal => 7

/-- `enum MQTTASYNC_TRACE_LEVELS`. -/
inductive MQTTAsyncTraceLevel where
  | maximum
  | medium
  | minimum
  | protocol
  | error
  | severe
  | fatal
  deriving DecidableEq

/-- The numbers of the enumeration. -/
def MQTTAsyncTraceLevel.rawValue : MQTTAsyncTraceLevel → ℕ
  | maximum => 1
  | medium => 2
  | minimum => 3
  | protocol => 4
  | error => 5
  | severe => 6
  | fatal => 7

def pahoTraceLevelFromAsyncTraceLevel : MQTTAsyncTraceLevel → PahoTraceLevel
  | .maximum => .maximum
  | .medium => .medium
  | .minimum => .minimum
  | .protocol => .protocol
  | .error => .error
  | .severe => .severe
  | .fatal => .fatal

def asyncTraceLevelFromPahoTraceLevel : PahoTraceLevel → MQTTAsyncTraceLevel
  | .maximum => .maximum
  | .medium => .medium
  | .minimum => .minimum
  | .protocol => .protocol
  | .error => .error
  | .severe => .severe
  | .fatal => .fatal

theorem rawValue_asyncTraceLevel (traceLevel : PahoTraceLevel) :
    (asyncTraceLevelFromPahoTraceLevel traceLevel).rawValue = traceLevel.rawValue := by
  cases traceLevel <;> rfl

abbrev TraceDelegate := ℕ

abbrev TraceId := ℕ

/-- `PahoTrace`. The delegate is weak; the level of a new object is zero, which is none of the
levels. -/
structure PahoTrace where
  delegate : Option TraceDelegate := none
  traceLevel : Option PahoTraceLevel := none
  hadTraced : Bool := false

/-- The weak reference to a delegate that has been deallocated becomes `nil`. -/
def PahoTrace.forget (gone : TraceDelegate) (self : PahoTrace) : PahoTrace :=
  { self with delegate := if self.delegate = some gone then none else self.delegate }

/-- The calls `PahoTrace` makes to the library. -/
inductive TraceCall where
  | setTraceCallback
  | setTraceLevel (level : MQTTAsyncTraceLevel)

/-- What happens, in order. -/
inductive TraceEvent where
  | call (c : TraceCall)
  /-- The library calls `onTraceCallback`. -/
  | enter (level : MQTTAsyncTraceLevel) (message : Option CString)
  | received (delegate : TraceDelegate) (message : Option CString) (level : PahoTraceLevel)
  | leave
  /-- A delegate has been deallocated. -/
  | gone (delegate : TraceDelegate)

structure Tracing where
  objects : TraceId → PahoTrace := fun _ => {}
  /-- The shared object, object 0, has been made. -/
  onceToken : Bool := false
  history : List TraceEvent := []

def sharedTrace : TraceId := 0

/-- Whether the library has been given the callback. -/
def callbackSet (history : List TraceEvent) : Bool :=
  history.any fun
    | .call .setTraceCallback => true
    | _ => false

def TraceEvent.levelSet : TraceEvent → Option MQTTAsyncTraceLevel
  | .call (.setTraceLevel level) => some level
  | _ => none

/-- The level set last. -/
def lastLevelSet (history : List TraceEvent) : Option MQTTAsyncTraceLevel :=
  (history.filterMap TraceEvent.levelSet).getLast?

/-- The library decides, after what has happened, which of the entries it traces reach the callback. -/
structure TraceLibrary where
  returns : List TraceEvent → MQTTAsyncTraceLevel → Option CString → Bool

namespace Tracing

variable (t : Tracing)

def emit (e : TraceEvent) : Tracing := { t with history := t.history ++ [e] }

def modify (object : TraceId) (f : PahoTrace → PahoTrace) : Tracing :=
  { t with objects := Function.update t.objects object (f (t.objects object)) }

@[simp] theorem modify_self (object : TraceId) (f : PahoTrace → PahoTrace) :
    (t.modify object f).objects object = f (t.objects object) := by
  simp [modify]

/-- `setTraceLevel:`. -/
def setTraceLevel (object : TraceId) (traceLevel : PahoTraceLevel) : Tracing :=
  (t.modify object fun trace => { trace with traceLevel := some traceLevel }).emit
    (.call (.setTraceLevel (asyncTraceLevelFromPahoTraceLevel traceLevel)))

@[simp] theorem setTraceLevel_self (object : TraceId) (traceLevel : PahoTraceLevel) :
    (t.setTraceLevel object traceLevel).objects object =
      { t.objects object with traceLevel := some traceLevel } := by
  rw [setTraceLevel, emit, modify_self]

@[simp] theorem setTraceLevel_history (object : TraceId) (traceLevel : PahoTraceLevel) :
    (t.setTraceLevel object traceLevel).history =
      t.history ++ [.call (.setTraceLevel (asyncTraceLevelFromPahoTraceLevel traceLevel))] := rfl

/-- `shared`. -/
def shared : Tracing :=
  if t.onceToken then t
  else { t with onceToken := true }.setTraceLevel sharedTrace .error

/-- `setDelegate:`. -/
def setDelegate (object : TraceId) (delegate : Option TraceDelegate) : Tracing :=
  let t := t.modify object fun trace => { trace with delegate := delegate }
  if (t.objects object).hadTraced then t
  else (t.modify object fun trace => { trace with hadTraced := true }).emit (.call .setTraceCallback)

/-- `onTraceCallback`, given which delegates respond to `pahoTraceDidReceiveMessage:onLevel:`. -/
def onTraceCallback (responds : TraceDelegate → Bool) (level : MQTTAsyncTraceLevel)
    (message : Option CString) : Tracing :=
  let t := t.shared
  match (t.objects sharedTrace).delegate with
  | none => t
  | some delegate =>
    if responds delegate then
      t.emit (.received delegate message (pahoTraceLevelFromAsyncTraceLevel level))
    else t

end Tracing

/-- What an application does with trace objects, and what the library has to trace. -/
inductive TraceStep where
  | setDelegate (object : TraceId) (delegate : Option TraceDelegate)
  | setTraceLevel (object : TraceId) (traceLevel : PahoTraceLevel)
  | gone (delegate : TraceDelegate)
  | traced (level : MQTTAsyncTraceLevel) (message : Option CString)

namespace Tracing

variable (t : Tracing)

/-- The shared object is asked for, the others are there. -/
def ask (object : TraceId) : Tracing := if object = sharedTrace then t.shared else t

/-- Whether a delegate has been deallocated. -/
def hasGone (delegate : TraceDelegate) : Bool :=
  t.history.any fun
    | .gone delegate' => delegate' = delegate
    | _ => false

def step (library : TraceLibrary) (responds : TraceDelegate → Bool) (t : Tracing) :
    TraceStep → Option Tracing
  | .setDelegate object delegate =>
    if delegate.any t.hasGone then none else some ((t.ask object).setDelegate object delegate)
  | .setTraceLevel object traceLevel => some ((t.ask object).setTraceLevel object traceLevel)
  | .gone delegate =>
    some ({ t with objects := fun object => (t.objects object).forget delegate }.emit
      (.gone delegate))
  | .traced level message =>
    if library.returns t.history level message then
      some (((t.emit (.enter level message)).onTraceCallback responds level message).emit .leave)
    else some t

end Tracing

end CocoaPaho
