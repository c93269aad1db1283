import CocoaPaho.Base.Runs
import CocoaPaho.Base.Histories
import CocoaPaho.MethodEffects

/-!
The life of a library handle. For each handle the calls made on it are read off the history; between
the operations of the clients such a list is empty, or belongs to the current handle of one client
and shows it connected, or ends with the destruction of the handle. The library is assumed to store a
new handle or none, to store one when the creation succeeds, and to clear the handle it destroys.
-/

namespace CocoaPaho

open Base

/-- The handle a call is made on; of a creation, the handle it stores. -/
def LibCall.subject (c : LibCall) (r : Reply) : Option Handle :=
  if c.kind = .create then r.handle else c.handle

/-- The calls on one handle: what was called, and whether it succeeded. -/
abbrev HandleCalls := List (CallKind × Bool)

def Event.onHandle (h : Handle) : Event → Option (CallKind × Bool)
  | .call _ _ c r => if c.subject r = some h then some (c.kind, r.rc = mqttAsyncSuccess) else none
  | _ => none

def callsOn (h : Handle) (t : List Event) : HandleCalls := t.filterMap (Event.onHandle h)

def Event.isCreate : Event → Bool
  | .call _ _ c _ => c.kind = .create
  | _ => false

/-- The number of creations so far, the handle that is new. -/
def created (t : List Event) : ℕ := t.countP Event.isCreate

/-- What the wrapper relies on of the library's handles. -/
structure Env.Honest (env : Env) : Prop where
  create_handle : ∀ t uri id, (env.reply t (.createWithOptions uri id)).handle = none ∨
    (env.reply t (.createWithOptions uri id)).handle = some (created t)
  create_success : ∀ t uri id,
    (env.reply t (.createWithOptions uri id)).rc = mqttAsyncSuccess →
      (env.reply t (.createWithOptions uri id)).handle ≠ none
  destroy_handle : ∀ t h, (env.reply t (.destroy h)).handle = none

/-- A library that accepts every call and invokes nothing. -/
def obligingEnv : Env where
  reply t c :=
    { rc := mqttAsyncSuccess
      handle := if c.kind = .create then some (created t) else none
      token := 0
      window := [] }
  enableSSLConnection := true

theorem obligingEnv_honest : obligingEnv.Honest where
  create_handle := fun _ _ _ => Or.inr rfl
  create_success := fun _ _ _ _ => Option.some_ne_none _
  destroy_handle := fun _ _ => rfl

/-- The calls of a connect on its handle. -/
def attempts : List CallKind := [.create, .setConnected, .setCallbacks, .connect]

/-- A handle in use: connected, and then any requests. -/
def Opened (l : HandleCalls) : Prop :=
  ∃ requests : HandleCalls, (∀ q ∈ requests, q.1 = .request) ∧
    l = attempts.map (·, true) ++ requests

/-- A handle after its life: disconnected and destroyed, or destroyed at once when a call of the
connect failed. -/
inductive Closed : HandleCalls → Prop where
  | disconnected (l : HandleCalls) (accepted destroyed : Bool) (h : Opened l) :
      Closed (l ++ [(.disconnect, accepted), (.destroy, destroyed)])
  | failed (done rest : List CallKind) (kind : CallKind) (destroyed : Bool)
      (h : attempts = done ++ kind :: rest) :
      Closed (done.map (·, true) ++ [(kind, false), (.destroy, destroyed)])

theorem callsOn_append (h : Handle) (t u : List Event) :
    callsOn h (t ++ u) = callsOn h t ++ callsOn h u := List.filterMap_append

theorem created_append (t u : List Event) : created (t ++ u) = created t + created u :=
  List.countP_append

/-- Events other than library calls. -/
def Event.isCall : Event → Bool
  | .call _ _ _ _ => true
  | _ => false

/-- A reading of events that takes in library calls only. -/
def ReadsCalls {β : Type} (read : Event → Option β) : Prop :=
  ∀ e, e.isCall = false → read e = none

theorem filterMap_eq_nil_of_readsCalls {β : Type} {read : Event → Option β} (hread : ReadsCalls read)
    {t : List Event} (ht : ∀ e ∈ t, e.isCall = false) : t.filterMap read = [] :=
  List.filterMap_eq_nil_iff.2 fun e he => hread e (ht e he)

theorem readsCalls_onHandle (h : Handle) : ReadsCalls (Event.onHandle h) := by
  intro e he
  cases e with
  | call client method c r => cases he
  | _ => rfl

theorem created_eq_zero {t : List Event} (ht : ∀ e ∈ t, e.isCall = false) : created t = 0 := by
  rw [created, List.countP_eq_zero]
  intro e he
  cases e with
  | call client method c r => cases ht _ he
  | _ => exact Bool.false_ne_true

theorem World.Plain.isCall {self : ClientId} {t : List Event} {e : Event} (he : World.Plain self t e) :
    e.isCall = false := by
  cases he <;> rfl

theorem isCall_window (w : World) (r : Reply) :
    ∀ e ∈ r.window.flatMap w.dispatch, e.isCall = false := by
  intro e he
  obtain ⟨d, -, rfl | rfl⟩ := World.mem_window he <;> rfl

/-- A call adds what is read of it, and nothing for the callbacks in its window. -/
theorem filterMap_call {β : Type} {read : Event → Option β} (hread : ReadsCalls read) (env : Env)
    (self : ClientId) (method : Method) (c : LibCall) (w : World) :
    (w.call env self method c).1.trace.filterMap read =
      w.trace.filterMap read ++ (read (.call self method c (env.reply w.trace c))).toList := by
  have hwindow := filterMap_eq_nil_of_readsCalls hread (isCall_window w (env.reply w.trace c))
  rw [World.call, World.emit_trace, World.answer, List.filterMap_append, ← List.singleton_append,
    List.filterMap_append, hwindow, List.append_nil]
  cases hcall : read (.call self method c (env.reply w.trace c)) with
  | none => rw [List.filterMap_cons_none hcall, List.filterMap_nil, Option.toList_none]
  | some b => rw [List.filterMap_cons_some hcall, List.filterMap_nil, Option.toList_some]

theorem callsOn_call (h : Handle) (env : Env) (self : ClientId) (method : Method) (c : LibCall)
    (w : World) :
    callsOn h (w.call env self method c).1.trace = callsOn h w.trace ++
      if c.subject (env.reply w.trace c) = some h then
        [(c.kind, decide ((env.reply w.trace c).rc = mqttAsyncSuccess))]
      else [] := by
  rw [callsOn, filterMap_call (readsCalls_onHandle h), Event.onHandle, callsOn]
  split_ifs <;> rfl

theorem created_call (env : Env) (self : ClientId) (method : Method) (c : LibCall) (w : World) :
    created (w.call env self method c).1.trace =
      created w.trace + if c.kind = .create then 1 else 0 := by
  have hwindow := created_eq_zero (isCall_window w (env.reply w.trace c))
  rw [World.call, World.emit_trace, World.answer, created_append, ← List.singleton_append,
    created_append,
    hwindow, Nat.add_zero]
  split_ifs with hcreate <;> simp [created, Event.isCreate, hcreate]

theorem mem_trace_call {env : Env} {self : ClientId} {method : Method} {c : LibCall} {w : World}
    {i : ClientId} {method' : Method} {c' : LibCall} {r : Reply}
    (h : Event.call i method' c' r ∈ (w.call env self method c).1.trace) :
    Event.call i method' c' r ∈ w.trace ∨ i = self ∧ c' = c ∧ r = env.reply w.trace c := by
  rw [World.call, World.emit_trace, World.answer, List.mem_append, List.mem_cons] at h
  rcases h with h | h | h
  · exact Or.inl h
  · cases h
    exact Or.inr ⟨rfl, rfl, rfl⟩
  · cases isCall_window w _ _ h

theorem callsOn_ne_nil {i : ClientId} {method : Method} {c : LibCall} {r : Reply} {h : Handle}
    {t : List Event} (hmem : Event.call i method c r ∈ t) (hsubject : c.subject r = some h) :
    callsOn h t ≠ [] := by
  rw [callsOn, ne_eq, List.filterMap_eq_nil_iff]
  intro hnone
  have hcall := hnone _ hmem
  rw [Event.onHandle, if_pos hsubject] at hcall
  cases hcall

/-- The handles of a world in which the current handle of one client has the calls `P` and those of
all others are in use. -/
structure Handles (client : ClientId) (P : HandleCalls → Prop) (w : World) : Prop where
  own : ∀ h, (w.clients client).mqttAsyncHandle = some h → P (callsOn h w.trace)
  others : ∀ i h, i ≠ client → (w.clients i).mqttAsyncHandle = some h →
    Opened (callsOn h w.trace)
  distinct : ∀ i j h, (w.clients i).mqttAsyncHandle = some h →
    (w.clients j).mqttAsyncHandle = some h → i = j
  released : ∀ h, (∀ i, (w.clients i).mqttAsyncHandle ≠ some h) →
    callsOn h w.trace = [] ∨ Closed (callsOn h w.trace)
  stored : ∀ i h, (w.clients i).mqttAsyncHandle = some h → h < created w.trace
  unused : ∀ h, created w.trace ≤ h → callsOn h w.trace = []
  callers : ∀ i method c r h, Event.call i method c r ∈ w.trace → c.subject r = some h →
    ∀ j, (w.clients j).mqttAsyncHandle = some h → j = i

/-- The handles of a world between operations. -/
def Settled (w : World) : Prop := ∀ i, Handles i Opened w

variable {env : Env} {self : ClientId} {w w' : World} {P Q : HandleCalls → Prop}

theorem Handles.settled (hw : Handles self Opened w) : Settled w := by
  intro i
  refine { hw with own := fun h hi => ?_, others := fun j h _ hj => ?_ }
  · by_cases heq : i = self
    · exact hw.own h (heq ▸ hi)
    · exact hw.others i h heq hi
  · by_cases heq : j = self
    · exact hw.own h (heq ▸ hj)
    · exact hw.others j h heq hj

theorem Handles.mono (hw : Handles self P w)
    (hPQ : ∀ h, (w.clients self).mqttAsyncHandle = some h → P (callsOn h w.trace) →
      Q (callsOn h w.trace)) : Handles self Q w :=
  { hw with own := fun h hself => hPQ h hself (hw.own h hself) }

/-- Steps that leave the handles and the calls alone. -/
structure Silent (w w' : World) : Prop where
  handle : ∀ i, (w'.clients i).mqttAsyncHandle = (w.clients i).mqttAsyncHandle
  trace : ∃ events, w'.trace = w.trace ++ events ∧ ∀ e ∈ events, e.isCall = false

theorem Silent.refl (w : World) : Silent w w := ⟨fun _ => rfl, [], by simp, by simp⟩

theorem Silent.trans {w'' : World} (h : Silent w w') (h' : Silent w' w'') : Silent w w'' := by
  obtain ⟨events, htrace, hcalls⟩ := h.trace
  obtain ⟨events', htrace', hcalls'⟩ := h'.trace
  refine ⟨fun i => (h'.handle i).trans (h.handle i), events ++ events', ?_, fun e he => ?_⟩
  · rw [htrace', htrace, List.append_assoc]
  · rcases List.mem_append.1 he with he | he
    · exact hcalls e he
    · exact hcalls' e he

theorem filterMap_silent {β : Type} {read : Event → Option β} (hread : ReadsCalls read)
    (h : Silent w w') : w'.trace.filterMap read = w.trace.filterMap read := by
  obtain ⟨events, htrace, hcalls⟩ := h.trace
  rw [htrace, List.filterMap_append, filterMap_eq_nil_of_readsCalls hread hcalls, List.append_nil]

/-- What a part of a method does adds nothing that is not read off its calls. -/
theorem World.Does.filterMap_eq {calls : List (Method × CallKind)} {parts : List ClientPart} {β : Type}
    {read : Event → Option β} (hread : ReadsCalls read) (h : World.Does env self calls parts w w')
    (hcalls : ∀ method c r, (method, c.kind) ∈ calls → read (.call self method c r) = none) :
    w'.trace.filterMap read = w.trace.filterMap read := by
  induction h with
  | refl => rfl
  | call method c _ hcall _ ih =>
      rw [filterMap_call hread, hcalls method c _ hcall, ih]
      exact List.append_nil _
  | plain e _ he ih =>
      rw [World.emit_trace, List.filterMap_append, ih, List.filterMap_cons_none (hread e he.isCall)]
      exact List.append_nil _
  | assign _ _ _ _ ih => exact ih

theorem Handles.silent (hw : Handles self P w) (h : Silent w w') : Handles self P w' := by
  obtain ⟨events, htrace, hcalls⟩ := h.trace
  have hcallsOn : ∀ x, callsOn x w'.trace = callsOn x w.trace :=
    fun x => filterMap_silent (readsCalls_onHandle x) h
  have hcreated : created w'.trace = created w.trace := by
    rw [htrace, created_append, created_eq_zero hcalls, Nat.add_zero]
  constructor
  · intro x hx
    rw [h.handle] at hx
    rw [hcallsOn]
    exact hw.own x hx
  · intro i x hi hx
    rw [h.handle] at hx
    rw [hcallsOn]
    exact hw.others i x hi hx
  · intro i j x hi hj
    rw [h.handle] at hi hj
    exact hw.distinct i j x hi hj
  · intro x hx
    rw [hcallsOn]
    exact hw.released x fun i hi => hx i ((h.handle i).trans hi)
  · intro i x hx
    rw [h.handle] at hx
    rw [hcreated]
    exact hw.stored i x hx
  · intro x hx
    rw [hcreated] at hx
    rw [hcallsOn]
    exact hw.unused x hx
  · intro i method c r x hmem hsubject j hj
    rw [h.handle] at hj
    rw [htrace, List.mem_append] at hmem
    rcases hmem with hmem | hmem
    · exact hw.callers i method c r x hmem hsubject j hj
    · cases hcalls _ hmem

/-- A call on the current handle of a client. -/
theorem Handles.call (hw : Handles self P w) {method : Method} {c : LibCall}
    (hhandle : c.handle = (w.clients self).mqttAsyncHandle) (hkind : c.kind ≠ .create)
    (hPQ : ∀ l, P l →
      Q (l ++ [(c.kind, decide ((env.reply w.trace c).rc = mqttAsyncSuccess))])) :
    Handles self Q (w.call env self method c).1 := by
  have hsubject : ∀ r, c.subject r = (w.clients self).mqttAsyncHandle := by
    intro r
    rw [LibCall.subject, if_neg hkind, hhandle]
  have hother : ∀ h, (w.clients self).mqttAsyncHandle ≠ some h →
      callsOn h (w.call env self method c).1.trace = callsOn h w.trace := by
    intro h hne
    rw [callsOn_call, hsubject, if_neg hne, List.append_nil]
  have hcreated : created (w.call env self method c).1.trace = created w.trace := by
    rw [created_call, if_neg hkind, Nat.add_zero]
  constructor
  · intro h hself
    have hself' : (w.clients self).mqttAsyncHandle = some h := hself
    rw [callsOn_call, hsubject, if_pos hself']
    exact hPQ _ (hw.own h hself')
  · intro i h hi hhi
    rw [hother h fun hself => hi (hw.distinct i self h hhi hself)]
    exact hw.others i h hi hhi
  · exact hw.distinct
  · intro h hfree
    rw [hother h (hfree self)]
    exact hw.released h hfree
  · intro i h hhi
    rw [hcreated]
    exact hw.stored i h hhi
  · intro h hle
    rw [hcreated] at hle
    rw [hother h fun hself => absurd (hw.stored self h hself) (Nat.not_lt.2 hle)]
    exact hw.unused h hle
  · intro i method' c' r h hmem hsub j hj
    rcases mem_trace_call hmem with hmem | ⟨rfl, rfl, rfl⟩
    · exact hw.callers i method' c' r h hmem hsub j hj
    · rw [hsubject] at hsub
      exact hw.distinct j i h hj hsub

/-- What a creation does whose reply stores a new handle or none. -/
structure Creates (client : ClientId) (w w' : World) (r : Reply) : Prop where
  fresh : r.handle = none ∨ r.handle = some (created w.trace)
  handle : (w'.clients client).mqttAsyncHandle = r.handle.or (w.clients client).mqttAsyncHandle
  others : ∀ i, i ≠ client → w'.clients i = w.clients i
  calls : ∀ h, callsOn h w'.trace = callsOn h w.trace ++
    if r.handle = some h then [(.create, decide (r.rc = mqttAsyncSuccess))] else []
  count : created w'.trace = created w.trace + 1
  callers : ∀ i method c r' h, Event.call i method c r' ∈ w'.trace → c.subject r' = some h →
    Event.call i method c r' ∈ w.trace ∨ i = client ∧ r.handle = some h

theorem create_spec (henv : env.Honest) (w : World) (self : ClientId) :
    ∃ r : Reply, (w.create env self).2 = r.rc ∧ (r.rc = mqttAsyncSuccess → r.handle ≠ none) ∧
      Creates self w (w.create env self).1 r := by
  refine ⟨env.reply w.trace (.createWithOptions (utf8String (w.clients self).hostAndPort)
    (utf8String (some (w.clients self).clientID))), rfl, henv.create_success _ _ _,
    henv.create_handle _ _ _, ?_, ?_, ?_, ?_, ?_⟩
  · simp only [World.create, World.modify_self]
    rfl
  · intro i hi
    simp only [World.create, World.modify_of_ne _ hi]
    rfl
  · intro h
    exact callsOn_call h env self .connect _ w
  · exact created_call env self .connect _ w
  · intro i method c r' h hmem hsubject
    rcases mem_trace_call hmem with hmem | ⟨rfl, rfl, rfl⟩
    · exact Or.inl hmem
    · exact Or.inr ⟨rfl, hsubject⟩

section Creates

variable {r : Reply} {h : Handle} {i : ClientId}

theorem Creates.eq_created (hc : Creates self w w' r) (hr : r.handle = some h) :
    h = created w.trace := by
  rcases hc.fresh with hfresh | hfresh
  · rw [hfresh] at hr
    cases hr
  · exact Option.some.inj (hr.symm.trans hfresh)

theorem Creates.callsOn_of_ne (hc : Creates self w w' r) (hr : r.handle ≠ some h) :
    callsOn h w'.trace = callsOn h w.trace := by
  rw [hc.calls, if_neg hr, List.append_nil]

/-- A handle after a creation is the stored one, or an old one of another client. -/
theorem Creates.handle_cases (hc : Creates self w w' r) (hw : Handles self P w)
    (hnone : (w.clients self).mqttAsyncHandle = none)
    (hi : (w'.clients i).mqttAsyncHandle = some h) :
    i = self ∧ r.handle = some h ∨
      i ≠ self ∧ (w.clients i).mqttAsyncHandle = some h ∧ r.handle ≠ some h := by
  by_cases heq : i = self
  · rw [heq, hc.handle, hnone, Option.or_none] at hi
    exact Or.inl ⟨heq, hi⟩
  · rw [hc.others i heq] at hi
    refine Or.inr ⟨heq, hi, fun hr => ?_⟩
    have hlt := hw.stored i h hi
    rw [hc.eq_created hr] at hlt
    exact lt_irrefl _ hlt

/-- The handle stored by the creation of a client without one has the creation as its only call. -/
theorem Creates.handles (hc : Creates self w w' r) (hw : Handles self P w)
    (hnone : (w.clients self).mqttAsyncHandle = none) :
    Handles self (fun l => l = [(.create, decide (r.rc = mqttAsyncSuccess))]) w' := by
  constructor
  · intro h hh
    rcases hc.handle_cases hw hnone hh with ⟨-, hr⟩ | ⟨hne, -⟩
    · rw [hc.calls, if_pos hr, hw.unused h (hc.eq_created hr).ge, List.nil_append]
    · exact absurd rfl hne
  · intro i h hi hh
    rcases hc.handle_cases hw hnone hh with ⟨heq, -⟩ | ⟨-, hih, hr⟩
    · exact absurd heq hi
    · rw [hc.callsOn_of_ne hr]
      exact hw.others i h hi hih
  · intro i j h hi hj
    rcases hc.handle_cases hw hnone hi with ⟨rfl, hr⟩ | ⟨-, hih, hr⟩
    · rcases hc.handle_cases hw hnone hj with ⟨rfl, -⟩ | ⟨-, -, hr'⟩
      · rfl
      · exact absurd hr hr'
    · rcases hc.handle_cases hw hnone hj with ⟨-, hr'⟩ | ⟨-, hjh, -⟩
      · exact absurd hr' hr
      · exact hw.distinct i j h hih hjh
  · intro h hfree
    have hr : r.handle ≠ some h := by
      intro hr
      apply hfree self
      rw [hc.handle, hnone, Option.or_none, hr]
    rw [hc.callsOn_of_ne hr]
    refine hw.released h fun i hi => ?_
    by_cases heq : i = self
    · rw [heq, hnone] at hi
      cases hi
    · exact hfree i (by rw [hc.others i heq, hi])
  · intro i h hi
    rw [hc.count]
    rcases hc.handle_cases hw hnone hi with ⟨-, hr⟩ | ⟨-, hih, -⟩
    · rw [hc.eq_created hr]
      exact Nat.lt_succ_self _
    · exact Nat.lt_succ_of_lt (hw.stored i h hih)
  · intro h hle
    rw [hc.count] at hle
    have hr : r.handle ≠ some h := fun hr => absurd (hc.eq_created hr) (Nat.ne_of_gt hle)
    rw [hc.callsOn_of_ne hr]
    exact hw.unused h (Nat.le_of_succ_le hle)
  · intro i method c r' h hmem hsubject j hj
    rcases hc.callers i method c r' h hmem hsubject with hmem | ⟨rfl, hr⟩
    · rcases hc.handle_cases hw hnone hj with ⟨-, hr⟩ | ⟨-, hjh, -⟩
      · exact absurd (hw.unused h (hc.eq_created hr).ge) (callsOn_ne_nil hmem hsubject)
      · exact hw.callers i method c r' h hmem hsubject j hjh
    · rcases hc.handle_cases hw hnone hj with ⟨heq, -⟩ | ⟨-, -, hr'⟩
      · exact heq
      · exact absurd hr hr'

end Creates

/-- A creation of a client without a handle. -/
theorem Handles.create (henv : env.Honest) (hw : Handles self P w)
    (hnone : (w.clients self).mqttAsyncHandle = none) :
    Handles self (fun l => l = [(.create, decide ((w.create env self).2 = mqttAsyncSuccess))])
        (w.create env self).1 ∧
      ((w.create env self).2 = mqttAsyncSuccess →
        ((w.create env self).1.clients self).mqttAsyncHandle ≠ none) := by
  obtain ⟨r, hrc, hsuccess, hc⟩ := create_spec henv w self
  rw [hc.handle, hnone, Option.or_none]
  simp only [hrc]
  exact ⟨hc.handles hw hnone, hsuccess⟩

/-- When the calls on the current handle are closed, the client may forget it. -/
theorem Handles.forget (hw : Handles self P w) (hP : ∀ l, P l → Closed l) :
    Settled (w.modify self fun c => { c with mqttAsyncHandle := none }) := by
  have hself : ((w.modify self fun c => { c with mqttAsyncHandle := none }).clients
      self).mqttAsyncHandle = none := by
    rw [World.modify_self]
  have hother : ∀ {i}, i ≠ self → ((w.modify self fun c => { c with mqttAsyncHandle := none }).clients
      i).mqttAsyncHandle = (w.clients i).mqttAsyncHandle := by
    intro i hi
    rw [World.modify_of_ne w hi]
  have hne : ∀ {i h}, ((w.modify self fun c => { c with mqttAsyncHandle := none }).clients
      i).mqttAsyncHandle = some h → i ≠ self ∧ (w.clients i).mqttAsyncHandle = some h := by
    intro i h hi
    by_cases heq : i = self
    · rw [heq, hself] at hi
      cases hi
    · exact ⟨heq, (hother heq).symm.trans hi⟩
  suffices hopened : Handles self Opened
      (w.modify self fun c => { c with mqttAsyncHandle := none }) from hopened.settled
  refine ⟨?_, ?_, ?_, ?_, ?_, hw.unused, ?_⟩
  · intro h hh
    exact absurd rfl (hne hh).1
  · intro i h _ hh
    exact hw.others i h (hne hh).1 (hne hh).2
  · intro i j h hi hj
    exact hw.distinct i j h (hne hi).2 (hne hj).2
  · intro h hfree
    by_cases hown : (w.clients self).mqttAsyncHandle = some h
    · exact Or.inr (hP _ (hw.own h hown))
    · refine hw.released h fun i hi => ?_
      by_cases heq : i = self
      · exact hown (heq ▸ hi)
      · exact hfree i ((hother heq).trans hi)
  · intro i h hh
    exact hw.stored i h (hne hh).2
  · intro i method c r h hmem hsubject j hj
    exact hw.callers i method c r h hmem hsubject j (hne hj).2

/-- The destruction of the current handle of a client, when that ends its life. -/
theorem Handles.destroy (henv : env.Honest) (hw : Handles self P w) (method : Method)
    (hP : ∀ l b, P l → Closed (l ++ [(.destroy, b)])) :
    Settled (w.destroy env self method) ∧
      ((w.destroy env self method).clients self).mqttAsyncHandle = none := by
  unfold World.destroy
  dsimp only
  have hreply : (w.call env self method (.destroy (w.clients self).mqttAsyncHandle)).2.handle =
      none := henv.destroy_handle _ _
  rw [hreply]
  refine ⟨?_, by rw [World.modify_self]⟩
  have hcall : Handles self Closed
      (w.call env self method (.destroy (w.clients self).mqttAsyncHandle)).1 :=
    hw.call rfl (by simp [LibCall.kind]) fun l hl => hP l _ hl
  exact hcall.forget fun _ h => h

theorem modify_handle (w : World) (self : ClientId) {f : PahoClient → PahoClient}
    (hf : ∀ c, (f c).mqttAsyncHandle = c.mqttAsyncHandle) (i : ClientId) :
    ((w.modify self f).clients i).mqttAsyncHandle = (w.clients i).mqttAsyncHandle := by
  by_cases hi : i = self
  · rw [hi, World.modify_self, hf]
  · rw [World.modify_of_ne w hi]

theorem Silent.modify (w : World) (self : ClientId) {f : PahoClient → PahoClient}
    (hf : ∀ c, (f c).mqttAsyncHandle = c.mqttAsyncHandle) : Silent w (w.modify self f) :=
  ⟨modify_handle w self hf, [], by simp, by simp⟩

theorem Silent.emit (w : World) {events : List Event} (he : ∀ e ∈ events, e.isCall = false) :
    Silent w (w.emit events) := ⟨fun _ => rfl, events, rfl, he⟩

theorem Silent.set (w : World) (self : ClientId) (setter : ClientSetter) :
    Silent w (w.modify self setter.apply) :=
  Silent.modify w self fun c => (setter.apply_frame c).2.2

/-- What a part of a method does is silent when it makes no call and does not assign to the handle. -/
theorem World.Does.silent {parts : List ClientPart} (h : World.Does env self [] parts w w')
    (hparts : .handle ∉ parts) : Silent w w' := by
  constructor
  · intro i
    refine h.sameBut i _ fun part hpart c => ?_
    cases part with
    | handle => exact absurd hpart hparts
    | _ => rfl
  · induction h with
    | refl => exact (Silent.refl w).trace
    | call _ _ _ hcall => cases hcall
    | plain e _ he ih =>
        obtain ⟨events, htrace, hcalls⟩ := ih
        refine ⟨events ++ [e], ?_, fun e' he' => ?_⟩
        · rw [World.emit_trace, htrace, List.append_assoc]
        · rcases List.mem_append.1 he' with he' | he'
          · exact hcalls e' he'
          · rw [List.mem_singleton.1 he']
            exact he.isCall
    | assign _ _ _ _ ih => exact ih

theorem Silent.malloc (w : World) : Silent w w.malloc :=
  Silent.emit w (by simp [Event.isCall])

theorem Silent.free (w : World) (address : ℕ) : Silent w (w.free address) :=
  Silent.emit w (by simp [Event.isCall])

/-- An array and the copies of some strings are obtained. -/
theorem Silent.copied (w : World) (strings : List CString) :
    Silent w (w.malloc.strdup strings).1 :=
  World.strdup_induction (fun v hv => hv.trans (Silent.malloc v)) strings (Silent.malloc w)

/-- The copies and the array are released. -/
theorem Silent.released {α : Type} (w : World) (buffers : List (Buffer α)) (address : ℕ) :
    Silent w ((w.freeAll buffers).free address) := by
  have hcopies : Silent w (w.freeAll buffers) :=
    World.freeAll_induction (fun v address hv => hv.trans (Silent.free v address)) buffers
      (Silent.refl w)
  exact hcopies.trans (Silent.free _ address)

theorem Silent.fillConnectOpts (env : Env) (self : ClientId)
    (userProperties : Option (NSDictionary PropertyObject)) (w : World) :
    Silent w (w.fillConnectOpts env self userProperties) :=
  (World.does_fillConnectOpts env self w userProperties).silent (by simp)

theorem Silent.setServerURIs (self : ClientId) (serverURIs : Option (List NSString)) (w : World) :
    Silent w (w.setServerURIs self serverURIs) := by
  -- no call is made, so that any library will do
  have hdoes : World.Does obligingEnv self [] [.serverURIs] w (w.setServerURIs self serverURIs) :=
    World.does_setServerURIs serverURIs
  exact hdoes.silent (by simp)

theorem Settled.disconnect (henv : env.Honest) (hw : Settled w) :
    Settled (w.disconnect env self) ∧
      ((w.disconnect env self).clients self).mqttAsyncHandle = none := by
  unfold World.disconnect
  split
  · next hnone => exact ⟨hw, hnone⟩
  · next handle hhandle =>
      have hcall : Handles self (fun l => ∃ l₀ b, Opened l₀ ∧ l = l₀ ++ [(.disconnect, b)])
          (w.call env self .disconnect (.disconnect (some handle)
            { onSuccess5 := some .onDisconnectSuccess
              onFailure5 := some .onDisconnectFailue
              context := some (.client self) })).1 :=
        (hw self).call hhandle.symm (by simp [LibCall.kind]) fun l hl => ⟨l, _, hl, rfl⟩
      refine hcall.destroy henv .disconnect ?_
      rintro _ b ⟨l, accepted, hl, rfl⟩
      rw [List.append_assoc]
      exact .disconnected l accepted b hl

/-- The calls of a connect up to one of them, of which the earlier ones succeeded. -/
def Attempted (done : List CallKind) (kind : CallKind) (success : Bool) (l : HandleCalls) : Prop :=
  l = done.map (·, true) ++ [(kind, success)]

/-- The outcome of a connect: a settled world, in which the client has a handle exactly when the
returned code is success. -/
def Connected (self : ClientId) (result : World × ℤ) : Prop :=
  Settled result.1 ∧
    ((result.1.clients self).mqttAsyncHandle ≠ none ↔ result.2 = mqttAsyncSuccess)

theorem connected_orDestroy (henv : env.Honest) {done rest : List CallKind} {kind : CallKind}
    (hattempts : attempts = done ++ kind :: rest) {attempt : World × ℤ}
    {next : World → World × ℤ}
    (h : Handles self (Attempted done kind (attempt.2 = mqttAsyncSuccess)) attempt.1)
    (hstored : attempt.2 = mqttAsyncSuccess →
      (attempt.1.clients self).mqttAsyncHandle ≠ none)
    (hnext : Handles self (Attempted done kind true) attempt.1 →
      (attempt.1.clients self).mqttAsyncHandle ≠ none → Connected self (next attempt.1)) :
    Connected self (World.orDestroy env self attempt next) := by
  unfold World.orDestroy
  split_ifs with hrc
  · rw [decide_eq_false hrc] at h
    have hdestroyed := h.destroy henv .connect fun l b (hl : Attempted done kind false l) => by
      rw [hl, List.append_assoc]
      exact .failed done rest kind b hattempts
    exact ⟨hdestroyed.1, iff_of_false (not_not.2 hdestroyed.2) hrc⟩
  · rw [ne_eq, not_not] at hrc
    rw [decide_eq_true hrc] at h
    exact hnext h (hstored hrc)

theorem Handles.request {done : List CallKind} {kind : CallKind}
    (hw : Handles self (Attempted done kind true) w) {method : Method} {c : LibCall}
    (hhandle : c.handle = (w.clients self).mqttAsyncHandle) (hkind : c.kind ≠ .create) :
    Handles self (Attempted (done ++ [kind]) c.kind
        ((w.request env self method c).2 = mqttAsyncSuccess))
      (w.request env self method c).1 := by
  refine hw.call hhandle hkind fun l hl => ?_
  rw [Attempted, hl, List.map_append]
  rfl

theorem request_handle {method : Method} {c : LibCall} (i : ClientId) :
    ((w.request env self method c).1.clients i).mqttAsyncHandle =
      (w.clients i).mqttAsyncHandle := rfl

theorem Handles.setConnected {done : List CallKind} {kind : CallKind}
    (hw : Handles self (Attempted done kind true) w) :
    Handles self (Attempted (done ++ [kind]) .setConnected
        ((w.setConnected env self).2 = mqttAsyncSuccess))
      (w.setConnected env self).1 := by
  have hrequest : Handles self _ (w.request env self .connect
      (.setConnected (w.clients self).mqttAsyncHandle (some (.client self))
        .onConnectionConnected)).1 := hw.request rfl (by simp [LibCall.kind])
  exact hrequest

theorem Handles.setCallbacks {done : List CallKind} {kind : CallKind}
    (hw : Handles self (Attempted done kind true) w) :
    Handles self (Attempted (done ++ [kind]) .setCallbacks
        ((w.setCallbacks env self).2 = mqttAsyncSuccess))
      (w.setCallbacks env self).1 := by
  have hrequest : Handles self _ (w.request env self .connect
      (.setCallbacks (w.clients self).mqttAsyncHandle (some (.client self))
        .onConnectionLost .onMessageArrived)).1 := hw.request rfl (by simp [LibCall.kind])
  exact hrequest

theorem Handles.sendConnect {done : List CallKind} {kind : CallKind}
    (hw : Handles self (Attempted done kind true) w)
    (userProperties : Option (NSDictionary PropertyObject)) :
    Handles self (Attempted (done ++ [kind]) .connect
        ((w.sendConnect env self userProperties).2 = mqttAsyncSuccess))
      (w.sendConnect env self userProperties).1 := by
  have hfilled := hw.silent (Silent.fillConnectOpts env self userProperties w)
  have hrequest : Handles self _ (World.request env self .connect
      (.connect ((w.fillConnectOpts env self userProperties).clients self).mqttAsyncHandle
        ((w.fillConnectOpts env self userProperties).clients self).connectOpts)
      (w.fillConnectOpts env self userProperties)).1 :=
    hfilled.request rfl (by simp [LibCall.kind])
  unfold World.sendConnect
  dsimp only
  refine hrequest.silent (Silent.modify _ self ?_)
  exact fun _ => rfl

theorem sendConnect_handle (userProperties : Option (NSDictionary PropertyObject)) :
    ((w.sendConnect env self userProperties).1.clients self).mqttAsyncHandle =
      (w.clients self).mqttAsyncHandle := by
  unfold World.sendConnect
  dsimp only
  rw [World.modify_self]
  exact (Silent.fillConnectOpts env self userProperties w).handle self

/-- **A connect.** It leaves the client with a handle in use, or with none and the handle it made
destroyed. -/
theorem Settled.connectWithUsername (henv : env.Honest) (hw : Settled w)
    (username password : Option NSString)
    (userProperties : Option (NSDictionary PropertyObject)) :
    Connected self (w.connectWithUsername env self username password userProperties) := by
  have hdisconnect : Settled (w.disconnect env self) ∧
      ((w.disconnect env self).clients self).mqttAsyncHandle = none := hw.disconnect henv
  obtain ⟨hdisconnected, hnone⟩ := hdisconnect
  have husername := Silent.set (w.disconnect env self) self (.username username)
  have hpassword := Silent.set
    ((w.disconnect env self).modify self (ClientSetter.username username).apply)
    self (.password password)
  have hsetup := ((hdisconnected self).silent husername).silent hpassword
  obtain ⟨hcreate, hstored⟩ := hsetup.create henv
    ((hpassword.handle self).trans ((husername.handle self).trans hnone))
  refine connected_orDestroy henv (show attempts = [] ++ .create :: _ from rfl) hcreate hstored
    fun h₁ hne₁ => ?_
  refine connected_orDestroy henv (show attempts = [.create] ++ .setConnected :: _ from rfl)
    h₁.setConnected (fun _ => hne₁) fun h₂ hne₂ => ?_
  refine connected_orDestroy henv
    (show attempts = [.create, .setConnected] ++ .setCallbacks :: _ from rfl)
    h₂.setCallbacks (fun _ => hne₂) fun h₃ hne₃ => ?_
  refine connected_orDestroy henv
    (show attempts = [.create, .setConnected, .setCallbacks] ++ .connect :: _ from rfl)
    (h₃.sendConnect userProperties) (fun _ => by rwa [sendConnect_handle]) fun h₄ hne₄ => ?_
  refine ⟨(h₄.mono fun h _ hl => ?_).settled, iff_of_true hne₄ rfl⟩
  exact ⟨[], by simp, hl⟩

theorem Settled.silent (hw : Settled w) (h : Silent w w') : Settled w' :=
  fun i => (hw i).silent h

/-- A request on the current handle of a client, or on `NULL`. -/
theorem Settled.request (hw : Settled w) {method : Method} {c : LibCall}
    (hhandle : c.handle = (w.clients self).mqttAsyncHandle) (hkind : c.kind = .request) :
    Settled (w.request env self method c).1 := by
  have hcall : Handles self Opened (w.request env self method c).1 := by
    refine (hw self).call hhandle (by rw [hkind]; simp) fun l hl => ?_
    obtain ⟨requests, hrequests, rfl⟩ := hl
    refine ⟨requests ++ [(c.kind, _)], fun q hq => ?_, by rw [List.append_assoc]⟩
    rcases List.mem_append.1 hq with hq | hq
    · exact hrequests q hq
    · rw [List.mem_singleton.1 hq, hkind]
  exact hcall.settled

theorem returning_trace (method : Method) (result : World × ℤ) :
    (World.returning self method result).trace =
      result.1.trace ++ [.returned self method result.2] := rfl

/-- A step that makes at most one request, on the current handle of a client or on `NULL`. -/
inductive Requested (env : Env) (self : ClientId) (w w' : World) : Prop where
  | silent (h : Silent w w')
  | request {w₁ : World} (method : Method) (c : LibCall) (h₁ : Silent w w₁)
      (hhandle : c.handle = (w.clients self).mqttAsyncHandle) (hkind : c.kind = .request)
      (h : Silent (w₁.request env self method c).1 w')

theorem Requested.settled (h : Requested env self w w') (hw : Settled w) : Settled w' := by
  cases h with
  | silent h => exact hw.silent h
  | request method c h₁ hhandle hkind h =>
      have hcurrent := hhandle.trans (h₁.handle self).symm
      exact Settled.silent ((hw.silent h₁).request hcurrent hkind) h

theorem Requested.handle (h : Requested env self w w') (i : ClientId) :
    (w'.clients i).mqttAsyncHandle = (w.clients i).mqttAsyncHandle := by
  cases h with
  | silent h => exact h.handle i
  | request method c h₁ hhandle hkind h => rw [h.handle, request_handle, h₁.handle]

theorem Silent.returning (method : Method) (result : World × ℤ) :
    Silent result.1 (World.returning self method result) :=
  Silent.emit _ (by simp [Event.isCall])

theorem Requested.returning {result : World × ℤ} (h : Requested env self w result.1)
    (method : Method) : Requested env self w (World.returning self method result) := by
  cases h with
  | silent h => exact .silent (h.trans (Silent.returning method result))
  | request m c h₁ hhandle hkind h =>
      exact .request m c h₁ hhandle hkind (h.trans (Silent.returning method result))

theorem requested_request (w : World) (method : Method) {c : LibCall}
    (hhandle : c.handle = (w.clients self).mqttAsyncHandle) (hkind : c.kind = .request) :
    Requested env self w (w.request env self method c).1 :=
  .request method c (Silent.refl w) hhandle hkind (Silent.refl _)

theorem requested_subscribeTopics (w : World) (topics : List PahoTopic) :
    Requested env self w (w.subscribeTopics env self topics).1 := by
  have hcopied := (Silent.malloc w).trans
    (Silent.copied w.malloc (topics.map fun topic => utf8 topic.topic))
  unfold World.subscribeTopics
  dsimp only
  exact .request .subscribeTopics _ hcopied rfl rfl (Silent.released _ _ _)

theorem requested_unsubscribeTopics (w : World) (topics : List NSString) :
    Requested env self w (w.unsubscribeTopics env self topics).1 := by
  have hcopied := Silent.copied w ((topics.take (cInt topics.length).toNat).map utf8)
  unfold World.unsubscribeTopics
  dsimp only
  exact .request .unsubscribeTopics _ hcopied rfl rfl (Silent.released _ _ _)

theorem requested_publish {message : PahoPublishedMessage} {properties : PahoProperties}
    {result : World × ℤ} (h : w.publish env self message properties = some result) :
    Requested env self w result.1 := by
  obtain ⟨lenString, -, h⟩ := Option.bind_eq_some_iff.1 h
  obtain ⟨props, -, rfl⟩ := Option.map_eq_some_iff.1 h
  dsimp only
  exact .request .publish _ (Silent.refl w) rfl rfl (Silent.emit _ (by simp [Event.isCall]))

theorem requested_isConnected (w : World) :
    Requested env self w (w.isConnected env self).1 := by
  unfold World.isConnected
  split
  · exact .silent (Silent.refl w)
  · next handle hhandle => exact requested_request w .isConnected hhandle.symm rfl

/-- Operations other than a connect and a disconnect make at most one request. -/
theorem requested_run {op : Operation} (h : op.run env self w = some w')
    (hconnect : op.method ≠ some .connect) (hdisconnect : op.method ≠ some .disconnect) :
    Requested env self w w' := by
  cases op with
  | connect username password userProperties => exact absurd rfl hconnect
  | disconnect => exact absurd rfl hdisconnect
  | subscribe topic qos =>
      cases h
      exact (requested_request w .subscribe rfl rfl).returning _
  | subscribeTopics topics =>
      cases h
      exact (requested_subscribeTopics w topics).returning _
  | unsubscribeTopic topic =>
      cases h
      exact (requested_request w .unsubscribeTopic rfl rfl).returning _
  | unsubscribeTopics topics =>
      cases h
      exact (requested_unsubscribeTopics w topics).returning _
  | publish message properties =>
      obtain ⟨result, hresult, rfl⟩ := Option.map_eq_some_iff.1 h
      exact (requested_publish hresult).returning _
  | isConnected =>
      cases h
      exact (requested_isConnected w).returning _
  | set setter =>
      cases h
      exact .silent (Silent.set w self setter)
  | setServerURIs serverURIs =>
      cases h
      exact .silent (Silent.setServerURIs self serverURIs w)
  | setSSL ssl =>
      cases h
      exact .silent (Silent.modify w self fun _ => rfl)

/-- What an operation does: it connects, disconnects, or makes at most one request. -/
theorem operation_cases {op : Operation} (h : op.run env self w = some w') :
    (∃ username password userProperties, op = .connect username password userProperties ∧
        w' = World.returning self .connect
          (w.connectWithUsername env self username password userProperties)) ∨
      (op = .disconnect ∧ w' = World.returning self .disconnect (w.disconnect env self, 0)) ∨
      (op.method ≠ some .connect ∧ op.method ≠ some .disconnect ∧ Requested env self w w') := by
  by_cases hconnect : op.method = some .connect
  · cases op with
    | connect username password userProperties =>
        cases h
        exact Or.inl ⟨username, password, userProperties, rfl, rfl⟩
    | _ => cases hconnect
  · by_cases hdisconnect : op.method = some .disconnect
    · cases op with
      | disconnect =>
          cases h
          exact Or.inr (Or.inl ⟨rfl, rfl⟩)
      | _ => cases hdisconnect
    · exact Or.inr (Or.inr ⟨hconnect, hdisconnect, requested_run h hconnect hdisconnect⟩)

/-- Every operation leaves the handles settled. -/
theorem Settled.run (henv : env.Honest) (hw : Settled w) {op : Operation}
    (h : op.run env self w = some w') : Settled w' := by
  rcases operation_cases h with ⟨username, password, userProperties, -, rfl⟩ | ⟨-, rfl⟩ |
    ⟨-, -, hrequested⟩
  · have hconnected : Connected self (w.connectWithUsername env self username password
        userProperties) := hw.connectWithUsername henv username password userProperties
    exact hconnected.1.silent (Silent.returning .connect _)
  · have hdisconnected : Settled (w.disconnect env self) := (hw.disconnect henv).1
    exact hdisconnected.silent (Silent.returning .disconnect (_, 0))
  · exact hrequested.settled hw

end CocoaPaho
