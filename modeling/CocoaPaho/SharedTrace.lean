import CocoaPaho.Base.Histories
import CocoaPaho.Base.Lockstep
import CocoaPaho.PahoTrace

/-!
What the shared trace object is for: a filter that shows its delegate what the library traces at its
level or above. An application that makes no trace object of its own sees just that. The library asks
not to be called from inside the trace callback, which happens when the callback is the first to ask
for the shared object.
-/

namespace CocoaPaho

open Base

structure TraceFilter where
  delegate : Option TraceDelegate := none
  traceLevel : PahoTraceLevel := .error
  gone : List TraceDelegate := []
  shown : List (TraceDelegate × Option CString × PahoTraceLevel) := []

inductive FilterStep where
  | setDelegate (delegate : Option TraceDelegate)
  | setTraceLevel (traceLevel : PahoTraceLevel)
  | gone (delegate : TraceDelegate)
  | traced (level : PahoTraceLevel) (message : Option CString)

namespace TraceFilter

/-- What is shown of something the library traces. -/
def passed (f : TraceFilter) (responds : TraceDelegate → Bool) (level : PahoTraceLevel)
    (message : Option CString) : List (TraceDelegate × Option CString × PahoTraceLevel) :=
  if f.traceLevel.rawValue ≤ level.rawValue then
    ((f.delegate.filter responds).map fun delegate => (delegate, message, level)).toList
  else []

def step (responds : TraceDelegate → Bool) (f : TraceFilter) : FilterStep → Option TraceFilter
  | .setDelegate delegate =>
    if delegate.any fun delegate => delegate ∈ f.gone then none
    else some { f with delegate := delegate }
  | .setTraceLevel traceLevel => some { f with traceLevel := traceLevel }
  | .gone delegate =>
    some { f with
      delegate := if f.delegate = some delegate then none else f.delegate
      gone := delegate :: f.gone }
  | .traced level message => some { f with shown := f.shown ++ f.passed responds level message }

end TraceFilter

/-- The step on the shared object. -/
def FilterStep.traceStep : FilterStep → TraceStep
  | setDelegate delegate => .setDelegate sharedTrace delegate
  | setTraceLevel traceLevel => .setTraceLevel sharedTrace traceLevel
  | gone delegate => .gone delegate
  | traced level message => .traced (asyncTraceLevelFromPahoTraceLevel level) message

namespace TraceEvent

def isEnter : TraceEvent → Bool
  | enter _ _ => true
  | _ => false

def isLeave : TraceEvent → Bool
  | leave => true
  | _ => false

def isSetCallback : TraceEvent → Bool
  | call .setTraceCallback => true
  | _ => false

def shown : TraceEvent → Option (TraceDelegate × Option CString × PahoTraceLevel)
  | received delegate message level => some (delegate, message, level)
  | _ => none

end TraceEvent

/-- No trace callback is under way. -/
def Quiet (history : List TraceEvent) : Prop :=
  history.countP TraceEvent.isEnter = history.countP TraceEvent.isLeave

/-- No call to the library is made from inside a trace callback. -/
def NoCallInside (history : List TraceEvent) : Prop :=
  AtEach (fun past e => ∀ c, e = .call c → Quiet past) history

theorem Quiet.append {h u : List TraceEvent} (hh : Quiet h)
    (hu : ∀ e ∈ u, e.isEnter = false ∧ e.isLeave = false) : Quiet (h ++ u) := by
  have henter : u.countP TraceEvent.isEnter = 0 :=
    List.countP_eq_zero.2 fun e he => by simp [(hu e he).1]
  have hleave : u.countP TraceEvent.isLeave = 0 :=
    List.countP_eq_zero.2 fun e he => by simp [(hu e he).2]
  rw [Quiet, List.countP_append, List.countP_append, henter, hleave, hh]

/-- Outside callbacks anything may be called. -/
theorem noCallInside_append {h u : List TraceEvent} (hh : Quiet h)
    (hu : ∀ e ∈ u, e.isEnter = false ∧ e.isLeave = false) :
    NoCallInside (h ++ u) ↔ NoCallInside h := by
  rw [NoCallInside, atEach_append]
  refine and_iff_left ?_
  intro past e future heq c _
  exact hh.append fun e' he' => hu e' (by rw [heq]; exact List.mem_append_left _ he')

namespace Tracing

variable {library : TraceLibrary} {responds : TraceDelegate → Bool} {t t' : Tracing} {e : TraceStep}

/-- The calls made when the shared object is asked for. -/
def sharedCalls (t : Tracing) : List TraceEvent :=
  if t.onceToken then [] else [.call (.setTraceLevel .error)]

theorem shared_history (t : Tracing) : t.shared.history = t.history ++ t.sharedCalls := by
  unfold shared sharedCalls
  split_ifs
  · rw [List.append_nil]
  · rfl

/-- The call made when an object is given its first delegate. -/
def installCalls (t : Tracing) (object : TraceId) : List TraceEvent :=
  if (t.objects object).hadTraced then [] else [.call .setTraceCallback]

theorem setDelegate_history (t : Tracing) (object : TraceId) (delegate : Option TraceDelegate) :
    (t.setDelegate object delegate).history = t.history ++ t.installCalls object := by
  unfold setDelegate installCalls
  dsimp only
  rw [modify_self]
  split_ifs
  · exact (List.append_nil _).symm
  · rfl

theorem installCalls_quiet (t : Tracing) (object : TraceId) :
    ∀ e ∈ t.installCalls object, e.isEnter = false ∧ e.isLeave = false := by
  unfold installCalls
  split_ifs
  · simp
  · simp [TraceEvent.isEnter, TraceEvent.isLeave]

theorem setDelegate_self (t : Tracing) (object : TraceId) (delegate : Option TraceDelegate) :
    (t.setDelegate object delegate).objects object =
      { t.objects object with delegate := delegate, hadTraced := true } := by
  unfold setDelegate
  dsimp only
  rw [modify_self]
  split_ifs with hhad
  · rw [modify_self, ← hhad]
  · rw [emit, modify_self, modify_self]

theorem ask_history (t : Tracing) (object : TraceId) :
    ∃ u, (t.ask object).history = t.history ++ u ∧
      ∀ e ∈ u, e.isEnter = false ∧ e.isLeave = false := by
  unfold ask
  split_ifs
  · refine ⟨t.sharedCalls, t.shared_history, ?_⟩
    unfold sharedCalls
    split_ifs
    · simp
    · simp [TraceEvent.isEnter, TraceEvent.isLeave]
  · exact ⟨[], (List.append_nil _).symm, by simp⟩

/-- What the callback adds to the history. -/
theorem onTraceCallback_history (t : Tracing) (level : MQTTAsyncTraceLevel)
    (message : Option CString) :
    (t.onTraceCallback responds level message).history = t.history ++ t.sharedCalls ++
      (((t.shared.objects sharedTrace).delegate.filter responds).map fun delegate =>
        .received delegate message (pahoTraceLevelFromAsyncTraceLevel level)).toList := by
  unfold onTraceCallback
  dsimp only
  cases hdelegate : (t.shared.objects sharedTrace).delegate with
  | none => rw [shared_history]; exact (List.append_nil _).symm
  | some delegate =>
      dsimp only
      split_ifs with hresponds
      · rw [emit, shared_history, Option.filter_some_pos hresponds]
        rfl
      · rw [shared_history, Option.filter_some_neg (Bool.not_eq_true _ ▸ hresponds)]
        exact (List.append_nil _).symm

/-- What a step adds to the history: things outside of callbacks, or one callback. -/
theorem step_history (h : t.step library responds e = some t') :
    ((∀ level message, e = .traced level message → ¬ library.returns t.history level message = true) ∧
      ∃ u, t'.history = t.history ++ u ∧ ∀ x ∈ u, x.isEnter = false ∧ x.isLeave = false) ∨
    ∃ level message delegates, e = .traced level message ∧
      library.returns t.history level message = true ∧
      t'.history = t.history ++ (.enter level message :: (t.sharedCalls ++
        ((delegates : Option TraceDelegate).map fun delegate =>
          .received delegate message (pahoTraceLevelFromAsyncTraceLevel level)).toList ++
        [.leave])) := by
  cases e with
  | setDelegate object delegate =>
      rw [step] at h
      split_ifs at h
      cases h
      obtain ⟨u, hu, hquiet⟩ := t.ask_history object
      refine Or.inl ⟨by rintro _ _ ⟨⟩, u ++ (t.ask object).installCalls object, ?_, fun x hx => ?_⟩
      · rw [setDelegate_history, hu, List.append_assoc]
      · rcases List.mem_append.1 hx with hx | hx
        · exact hquiet x hx
        · exact installCalls_quiet _ object x hx
  | setTraceLevel object traceLevel =>
      cases h
      obtain ⟨u, hu, hquiet⟩ := t.ask_history object
      refine Or.inl ⟨by rintro _ _ ⟨⟩, u ++
        [.call (.setTraceLevel (asyncTraceLevelFromPahoTraceLevel traceLevel))], ?_, fun x hx => ?_⟩
      · rw [setTraceLevel, emit, modify, hu, List.append_assoc]
      · rcases List.mem_append.1 hx with hx | hx
        · exact hquiet x hx
        · rw [List.mem_singleton.1 hx]
          exact ⟨rfl, rfl⟩
  | gone delegate =>
      cases h
      exact Or.inl ⟨by rintro _ _ ⟨⟩, [.gone delegate], rfl,
        by simp [TraceEvent.isEnter, TraceEvent.isLeave]⟩
  | traced level message =>
      rw [step] at h
      split_ifs at h with hreturned
      · cases h
        refine Or.inr ⟨level, message, (((t.emit (.enter level message)).shared.objects
          sharedTrace).delegate.filter responds), rfl, hreturned, ?_⟩
        rw [emit, onTraceCallback_history, emit]
        simp only [List.append_assoc, List.singleton_append]
        rfl
      · cases h
        refine Or.inl ⟨?_, [], (List.append_nil _).symm, by simp⟩
        rintro level' message' heq
        cases heq
        exact hreturned

theorem quiet_step (hquiet : Quiet t.history) (h : t.step library responds e = some t') :
    Quiet t'.history := by
  rcases step_history h with ⟨-, u, hu, hnone⟩ | ⟨level, message, delegates, -, -, hu⟩
  · rw [hu]
    exact hquiet.append hnone
  · have hcalls : t.sharedCalls.countP TraceEvent.isEnter = 0 ∧
        t.sharedCalls.countP TraceEvent.isLeave = 0 := by
      unfold sharedCalls
      split_ifs <;> exact ⟨rfl, rfl⟩
    rw [Quiet] at hquiet
    rw [hu, Quiet]
    cases delegates <;>
      simp [List.countP_append, List.countP_cons, hcalls, hquiet, TraceEvent.isEnter,
        TraceEvent.isLeave]

/-- A step keeps calls out of callbacks unless it is a callback before there is a shared object. -/
theorem noCallInside_step (hquiet : Quiet t.history) (h : t.step library responds e = some t') :
    NoCallInside t'.history ↔ NoCallInside t.history ∧
      ∀ level message, e = .traced level message →
        library.returns t.history level message = true → t.onceToken = true := by
  rcases step_history h with
    ⟨hunreturned, u, hu, hnone⟩ | ⟨level, message, delegates, rfl, hreturned, hu⟩
  · rw [hu, noCallInside_append hquiet hnone]
    refine (and_iff_left ?_).symm
    exact fun level message he hreturned => absurd hreturned (hunreturned level message he)
  · have hbusy : ¬ Quiet (t.history ++ [.enter level message]) := by
      rw [Quiet] at hquiet
      rw [Quiet, List.countP_append, List.countP_append, hquiet]
      simp [TraceEvent.isEnter, TraceEvent.isLeave]
    rw [hu, NoCallInside, atEach_append]
    refine and_congr_right fun _ => ⟨fun hat level' message' _ _ => ?_, fun hmade => ?_⟩
    · -- the call that makes the shared object would be inside
      by_contra honce
      rw [sharedCalls, if_neg honce] at hat
      exact hbusy (hat [.enter level message] (.call (.setTraceLevel .error)) _ rfl _ rfl)
    · have honce := hmade level message rfl hreturned
      intro past e' future heq c he'
      subst he'
      have hmem : TraceEvent.call c ∈ past ++ TraceEvent.call c :: future :=
        List.mem_append_right past (List.mem_cons_self ..)
      rw [← heq, sharedCalls, if_pos honce] at hmem
      cases delegates <;> simp at hmem

end Tracing

/-- **Calls inside the trace callback.** A run keeps the library's rule exactly when the shared object
has been asked for before the library has anything to trace to the callback. -/
theorem trace_callback_calls_nothing_iff {library : TraceLibrary} {responds : TraceDelegate → Bool}
    {steps : List TraceStep} {t : Tracing}
    (hrun : runFrom (Tracing.step library responds) {} steps = some t) :
    NoCallInside t.history ↔
      AllSteps (Tracing.step library responds)
        (fun t e => ∀ level message, e = .traced level message →
          library.returns t.history level message = true → t.onceToken = true) {} steps := by
  have hstart : Quiet (Tracing.history {}) := rfl
  have hexact := runFrom_iff_allSteps (I := fun t : Tracing => Quiet t.history)
    (P := fun t : Tracing => NoCallInside t.history)
    (fun _ _ _ hquiet h => Tracing.quiet_step hquiet h)
    (fun _ _ _ hquiet h => Tracing.noCallInside_step hquiet h) hstart hrun
  rw [hexact]
  exact and_iff_right (atEach_nil _)

/-- What `MQTTAsync.h` says of the trace: it is returned to the callback that has been set, and the
level set last is the maximum of what is passed to it. -/
structure TraceLibrary.Documented (library : TraceLibrary) : Prop where
  callback_set : ∀ history level message, library.returns history level message = true →
    callbackSet history = true
  level_set : ∀ history level message set, callbackSet history = true →
    lastLevelSet history = some set →
      (library.returns history level message = true ↔ set.rawValue ≤ level.rawValue)

/-- Such a library, with its default level. -/
def documentedTrace : TraceLibrary where
  returns history level _ := callbackSet history &&
    decide (((lastLevelSet history).getD .minimum).rawValue ≤ level.rawValue)

theorem documentedTrace_documented : documentedTrace.Documented where
  callback_set := by
    intro history level message hreturned
    exact (Bool.and_eq_true_iff.1 hreturned).1
  level_set := by
    intro history level message set hset hlast
    simp [documentedTrace, hset, hlast]

/-- A delegate given to another object has the shared one made in the callback. -/
theorem trace_callback_makes_shared :
    ∃ t : Tracing, runFrom (Tracing.step documentedTrace fun _ => true) {}
      [.setDelegate 1 (some 0), .traced .error none] = some t ∧ ¬ NoCallInside t.history := by
  have hrun : runFrom (Tracing.step documentedTrace fun _ => true) {}
    [.setDelegate 1 (some 0), .traced .error none] = some _ := rfl
  refine ⟨_, hrun, fun hnone => ?_⟩
  have hmade := ((trace_callback_calls_nothing_iff hrun).1 hnone).2 _ rfl
  exact Bool.false_ne_true (hmade.1 .error none rfl rfl)

theorem lastLevelSet_concat {h : List TraceEvent} {e : TraceEvent} {level : MQTTAsyncTraceLevel}
    (he : e.levelSet = some level) : lastLevelSet (h ++ [e]) = some level := by
  rw [lastLevelSet, List.filterMap_append, List.filterMap_cons_some he, List.filterMap_nil,
    List.getLast?_concat]

theorem lastLevelSet_append {h u : List TraceEvent} (hu : ∀ e ∈ u, e.levelSet = none) :
    lastLevelSet (h ++ u) = lastLevelSet h := by
  rw [lastLevelSet, List.filterMap_append, List.filterMap_eq_nil_iff.2 hu, List.append_nil,
    lastLevelSet]

theorem callbackSet_iff (h : List TraceEvent) :
    callbackSet h = true ↔ h.countP TraceEvent.isSetCallback ≠ 0 := by
  rw [← Nat.pos_iff_ne_zero, List.countP_pos_iff, callbackSet, List.any_eq_true]
  refine exists_congr fun e => and_congr_right fun _ => ?_
  cases e with
  | call c => cases c <;> rfl
  | _ => rfl

/-- The tracing of an application that uses the shared object only, and the filter it sees. -/
structure Tracing.Refines (f : TraceFilter) (t : Tracing) : Prop where
  shown : t.history.filterMap TraceEvent.shown = f.shown
  gone : ∀ delegate, t.hasGone delegate = decide (delegate ∈ f.gone)
  quiet : Quiet t.history
  outside : NoCallInside t.history
  installed : t.history.countP TraceEvent.isSetCallback =
    if (t.objects sharedTrace).hadTraced then 1 else 0
  delegate : (t.objects sharedTrace).delegate = f.delegate
  hadTraced : f.delegate ≠ none → (t.objects sharedTrace).hadTraced = true
  made : t.onceToken = true → (t.objects sharedTrace).traceLevel = some f.traceLevel ∧
    lastLevelSet t.history = some (asyncTraceLevelFromPahoTraceLevel f.traceLevel)
  unmade : t.onceToken = false → (t.objects sharedTrace).hadTraced = false ∧ f.traceLevel = .error

namespace Tracing.Refines

variable {library : TraceLibrary} {responds : TraceDelegate → Bool} {f : TraceFilter} {t : Tracing}

theorem initial : Tracing.Refines {} {} where
  shown := rfl
  gone := fun _ => rfl
  quiet := rfl
  outside := atEach_nil _
  installed := rfl
  delegate := rfl
  hadTraced := fun h => absurd rfl h
  made := nofun
  unmade := fun _ => ⟨rfl, rfl⟩

theorem setTraceLevel (h : Tracing.Refines f t) (traceLevel : PahoTraceLevel) :
    Tracing.Refines { f with traceLevel := traceLevel }
      ({ t with onceToken := true }.setTraceLevel sharedTrace traceLevel) where
  shown := by
    rw [← h.shown, setTraceLevel_history, List.filterMap_append]
    exact List.append_nil _
  gone := by
    intro delegate
    rw [← h.gone, hasGone, setTraceLevel_history, List.any_append]
    exact Bool.or_false _
  quiet := h.quiet.append (by simp [TraceEvent.isEnter, TraceEvent.isLeave])
  outside := (noCallInside_append h.quiet
    (by simp [TraceEvent.isEnter, TraceEvent.isLeave])).2 h.outside
  installed := by
    rw [setTraceLevel_history, setTraceLevel_self, List.countP_append]
    exact h.installed
  delegate := by
    rw [setTraceLevel_self]
    exact h.delegate
  hadTraced := by
    rw [setTraceLevel_self]
    exact h.hadTraced
  made := by
    intro _
    rw [setTraceLevel_self, setTraceLevel_history]
    exact ⟨rfl, lastLevelSet_concat rfl⟩
  unmade := nofun

theorem shared (h : Tracing.Refines f t) :
    Tracing.Refines f t.shared ∧ t.shared.onceToken = true := by
  unfold Tracing.shared
  split_ifs with honce
  · exact ⟨h, honce⟩
  · have hlevel := (h.unmade (Bool.not_eq_true _ ▸ honce)).2
    refine ⟨?_, rfl⟩
    have hset := h.setTraceLevel .error
    have hsame : { f with traceLevel := .error } = f := by rw [← hlevel]
    rwa [hsame] at hset

theorem setDelegate (h : Tracing.Refines f t) (honce : t.onceToken = true)
    (delegate : Option TraceDelegate) :
    Tracing.Refines { f with delegate := delegate } (t.setDelegate sharedTrace delegate) where
  shown := by
    rw [← h.shown, setDelegate_history, List.filterMap_append, installCalls]
    split_ifs <;> exact List.append_nil _
  gone := by
    intro delegate'
    rw [← h.gone, hasGone, setDelegate_history, List.any_append, installCalls]
    split_ifs <;> exact Bool.or_false _
  quiet := by
    rw [setDelegate_history]
    exact h.quiet.append (installCalls_quiet t sharedTrace)
  outside := by
    rw [setDelegate_history, noCallInside_append h.quiet (installCalls_quiet t sharedTrace)]
    exact h.outside
  installed := by
    rw [setDelegate_history, setDelegate_self, List.countP_append, h.installed, installCalls,
      if_pos rfl]
    split_ifs <;> rfl
  delegate := by rw [setDelegate_self]
  hadTraced := by
    intro _
    rw [setDelegate_self]
  made := by
    intro _
    rw [setDelegate_self, setDelegate_history, lastLevelSet_append]
    · exact h.made honce
    · unfold installCalls
      split_ifs <;> simp [TraceEvent.levelSet]
  unmade := by
    intro hunmade
    have hmade : (t.setDelegate sharedTrace delegate).onceToken = t.onceToken := by
      unfold Tracing.setDelegate
      dsimp only
      split_ifs <;> rfl
    rw [hmade, honce] at hunmade
    cases hunmade

theorem forget (h : Tracing.Refines f t) (delegate : TraceDelegate) :
    Tracing.Refines
      { f with
        delegate := if f.delegate = some delegate then none else f.delegate
        gone := delegate :: f.gone }
      ({ t with objects := fun object => (t.objects object).forget delegate }.emit
        (.gone delegate)) where
  shown := by
    rw [← h.shown, emit, List.filterMap_append]
    exact List.append_nil _
  gone := by
    intro delegate'
    have hold := h.gone delegate'
    rw [hasGone] at hold
    rw [hasGone, emit, List.any_append, hold]
    simp [Bool.or_comm, eq_comm]
  quiet := h.quiet.append (by simp [TraceEvent.isEnter, TraceEvent.isLeave])
  outside := (noCallInside_append h.quiet
    (by simp [TraceEvent.isEnter, TraceEvent.isLeave])).2 h.outside
  installed := by
    rw [emit, List.countP_append]
    exact h.installed
  delegate := by
    rw [← h.delegate]
    rfl
  hadTraced := by
    intro hdelegate
    refine h.hadTraced fun hnone => hdelegate ?_
    dsimp only
    rw [hnone, ite_self]
  made := by
    intro honce
    rw [emit, lastLevelSet_append (by simp [TraceEvent.levelSet])]
    exact h.made honce
  unmade := h.unmade

/-- Nothing is traced to the callback before the shared object is there. -/
theorem onceToken_of_callbackSet (h : Tracing.Refines f t) (hset : callbackSet t.history = true) :
    t.onceToken = true := by
  rw [callbackSet_iff, h.installed] at hset
  by_contra honce
  rw [(h.unmade (Bool.not_eq_true _ ▸ honce)).1] at hset
  exact hset rfl

/-- What the library traces is returned when it is at the level the application has set. -/
theorem returns_iff (hlibrary : library.Documented) (h : Tracing.Refines f t)
    (hset : callbackSet t.history = true) (level : PahoTraceLevel) (message : Option CString) :
    library.returns t.history (asyncTraceLevelFromPahoTraceLevel level) message = true ↔
      f.traceLevel.rawValue ≤ level.rawValue := by
  rw [hlibrary.level_set _ _ _ _ hset (h.made (h.onceToken_of_callbackSet hset)).2,
    rawValue_asyncTraceLevel, rawValue_asyncTraceLevel]

theorem passed_eq_nil (h : Tracing.Refines f t) (hset : ¬ callbackSet t.history = true)
    (level : PahoTraceLevel) (message : Option CString) : f.passed responds level message = [] := by
  have hnone : f.delegate = none := by
    by_contra hdelegate
    refine hset ((callbackSet_iff _).2 ?_)
    rw [h.installed, if_pos (h.hadTraced hdelegate)]
    exact Nat.one_ne_zero
  rw [TraceFilter.passed, hnone]
  split_ifs <;> rfl

/-- The callback, once there is a shared object. -/
theorem step_returned (h : Tracing.Refines f t) {level : PahoTraceLevel} {message : Option CString}
    (hset : callbackSet t.history = true)
    (hreturned : library.returns t.history (asyncTraceLevelFromPahoTraceLevel level) message = true) :
    t.step library responds (.traced (asyncTraceLevelFromPahoTraceLevel level) message) =
      some { t with history := t.history ++
        (.enter (asyncTraceLevelFromPahoTraceLevel level) message ::
          (((f.delegate.filter responds).map fun delegate =>
            .received delegate message level).toList ++ [.leave])) } := by
  have honce := h.onceToken_of_callbackSet hset
  have hlevel : pahoTraceLevelFromAsyncTraceLevel (asyncTraceLevelFromPahoTraceLevel level) =
      level := by cases level <;> rfl
  rw [Tracing.step, if_pos hreturned, onTraceCallback, Tracing.shared,
    if_pos (show (t.emit _).onceToken = true from honce)]
  have hdelegate : ((t.emit (.enter (asyncTraceLevelFromPahoTraceLevel level) message)).objects
      sharedTrace).delegate = f.delegate := h.delegate
  rw [hdelegate, hlevel]
  cases f.delegate with
  | none => simp [emit]
  | some delegate =>
      dsimp only
      split_ifs with hresponds
      · rw [Option.filter_some_pos hresponds]
        simp [emit]
      · rw [Option.filter_some_neg (Bool.not_eq_true _ ▸ hresponds)]
        simp [emit]

theorem traced (hlibrary : library.Documented) (h : Tracing.Refines f t) {level : PahoTraceLevel}
    {message : Option CString}
    (hreturned : library.returns t.history (asyncTraceLevelFromPahoTraceLevel level) message = true)
    {t' : Tracing}
    (hstep : t.step library responds
      (.traced (asyncTraceLevelFromPahoTraceLevel level) message) = some t') :
    Tracing.Refines { f with shown := f.shown ++ f.passed responds level message } t' := by
  have hset := hlibrary.callback_set _ _ _ hreturned
  have honce := h.onceToken_of_callbackSet hset
  have hpassed : f.passed responds level message =
      ((f.delegate.filter responds).map fun delegate => (delegate, message, level)).toList :=
    if_pos ((returns_iff hlibrary h hset level message).1 hreturned)
  have hquiet := quiet_step h.quiet hstep
  have houtside := (noCallInside_step h.quiet hstep).2 ⟨h.outside, fun _ _ _ _ => honce⟩
  rw [h.step_returned hset hreturned] at hstep
  cases hstep
  exact
    { shown := by
        rw [List.filterMap_append, h.shown, hpassed]
        cases f.delegate.filter responds <;> rfl
      gone := by
        intro delegate'
        rw [← h.gone, hasGone, hasGone, List.any_append]
        cases f.delegate.filter responds <;> exact Bool.or_false _
      quiet := hquiet
      outside := houtside
      installed := by
        rw [List.countP_append, ← h.installed]
        cases f.delegate.filter responds <;> rfl
      delegate := h.delegate
      hadTraced := h.hadTraced
      made := by
        intro _
        rw [lastLevelSet_append]
        · exact h.made honce
        · cases f.delegate.filter responds <;> simp [TraceEvent.levelSet]
      unmade := fun hunmade => nomatch honce.symm.trans hunmade }

theorem step (hlibrary : library.Documented) (h : Tracing.Refines f t) (e : FilterStep) :
    Option.Rel Tracing.Refines (TraceFilter.step responds f e)
      (Tracing.step library responds t e.traceStep) := by
  have hask : t.ask sharedTrace = t.shared := if_pos rfl
  cases e with
  | setDelegate delegate =>
      have hgone : (delegate.any fun delegate => delegate ∈ f.gone) = delegate.any t.hasGone := by
        congr 1
        funext delegate
        exact (h.gone delegate).symm
      rw [TraceFilter.step, FilterStep.traceStep, Tracing.step, hask, hgone]
      split_ifs
      · exact .none
      · exact .some (h.shared.1.setDelegate h.shared.2 delegate)
  | setTraceLevel traceLevel =>
      rw [TraceFilter.step, FilterStep.traceStep, Tracing.step, hask]
      have hset := h.shared.1.setTraceLevel traceLevel
      have hsame : { t.shared with onceToken := true } = t.shared := by rw [← h.shared.2]
      rw [hsame] at hset
      exact .some hset
  | gone delegate => exact .some (h.forget delegate)
  | traced level message =>
      rw [TraceFilter.step, FilterStep.traceStep]
      by_cases hreturned :
        library.returns t.history (asyncTraceLevelFromPahoTraceLevel level) message = true
      · have hset := hlibrary.callback_set _ _ _ hreturned
        rw [h.step_returned hset hreturned]
        exact .some (traced hlibrary h hreturned (h.step_returned hset hreturned))
      · have hpassed : f.passed responds level message = [] := by
          by_cases hset : callbackSet t.history = true
          · rw [returns_iff hlibrary h hset] at hreturned
            exact if_neg hreturned
          · exact h.passed_eq_nil hset level message
        rw [Tracing.step, if_neg hreturned, hpassed, List.append_nil]
        exact .some h

end Tracing.Refines

/-- **The shared trace object is a filter.** For an application that makes no other trace object, over a
library that traces as documented: its delegates are shown what the filter lets through, one callback is
installed at most, and from inside the callback the library is not called. -/
theorem shared_trace_filters {library : TraceLibrary} (hlibrary : library.Documented)
    (responds : TraceDelegate → Bool) (steps : List FilterStep) :
    Option.Rel
      (fun f t => t.history.filterMap TraceEvent.shown = f.shown ∧
        t.history.countP TraceEvent.isSetCallback ≤ 1 ∧ NoCallInside t.history)
      (runFrom (TraceFilter.step responds) {} steps)
      (runFrom (Tracing.step library responds) {} (steps.map FilterStep.traceStep)) := by
  have hstep : ∀ (f : TraceFilter) (t : Tracing) (e : FilterStep), Tracing.Refines f t →
      Option.Rel (fun f t => Tracing.Refines f t) (f.step responds e)
        (t.step library responds e.traceStep) := fun _ _ e h => h.step hlibrary e
  have hrun := runFrom_rel hstep steps Tracing.Refines.initial
  generalize runFrom (TraceFilter.step responds) {} steps = result at hrun ⊢
  generalize runFrom (Tracing.step library responds) {} (steps.map FilterStep.traceStep) = result'
    at hrun ⊢
  cases hrun with
  | none => exact .none
  | some h =>
      refine .some ⟨h.shown, ?_, h.outside⟩
      rw [h.installed]
      split_ifs
      · exact le_rfl
      · exact Nat.zero_le 1

/-- Two delegates, the second at another level. -/
def sharedTraceLevels : List FilterStep :=
  [.setDelegate (some 0), .traced .minimum none, .traced .error none, .setDelegate (some 1),
    .setTraceLevel .maximum, .traced .minimum none]

/-- The first sees the error alone, the second what is below it. -/
theorem shared_trace_filters_levels :
    ∃ t : Tracing,
      runFrom (Tracing.step documentedTrace fun _ => true) {}
        (sharedTraceLevels.map FilterStep.traceStep) = some t ∧
      t.history.filterMap TraceEvent.shown = [(0, none, .error), (1, none, .minimum)] ∧
      NoCallInside t.history := by
  have hfilter : runFrom (TraceFilter.step fun _ => true) {} sharedTraceLevels = some _ := rfl
  have hrun : runFrom (Tracing.step documentedTrace fun _ => true) {}
    (sharedTraceLevels.map FilterStep.traceStep) = some _ := rfl
  have h := shared_trace_filters documentedTrace_documented (fun _ => true) sharedTraceLevels
  rw [hfilter, hrun] at h
  cases h with
  | some h => exact ⟨_, hrun, h.1, h.2.2⟩

end CocoaPaho
