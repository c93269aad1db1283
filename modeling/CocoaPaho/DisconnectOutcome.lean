import CocoaPaho.ClientSession

/-!
The outcome of a disconnect. The library brings it through the two functions registered with the
disconnect, and invokes nothing for a handle once its destruction has been called. A disconnect calls
`MQTTAsync_disconnect` and in the next statement `MQTTAsync_destroy`, be it explicit, at the start of
a connect or in `dealloc`; so the delegate is told the outcome only of a library that dispatches it
between the two.
-/

namespace CocoaPaho

open Base

/-- A completion registered by the call at a place of the history has been invoked. -/
def OutcomeDispatched (t : List Event) (source : ℕ) (c : LibCall) : Prop :=
  ∃ d result, Event.enter d result ∈ t.drop (source + 1) ∧ d.source = source ∧
    (d.context, d.invocation.fn) ∈ c.registered

/-- The call at a place of the history is a disconnect of the handle, and was accepted. -/
def AcceptedDisconnect (t : List Event) (h : Handle) (source : ℕ) (c : LibCall) : Prop :=
  c.kind = .disconnect ∧ c.handle = some h ∧
    ∃ client method r, t[source]? = some (.call client method c r) ∧ r.rc = mqttAsyncSuccess

/-- When a handle is destroyed, every accepted disconnect of it has had its outcome dispatched. -/
def OutcomeReported (past : List Event) (e : Event) : Prop :=
  ∀ client method h r, e = .call client method (.destroy (some h)) r →
    ∀ source c, AcceptedDisconnect past h source c → OutcomeDispatched past source c

/-- The library refuses the disconnect of a handle, or dispatches its outcome before the next call
has been made. -/
def Env.Prompt (env : Env) (client : ClientId) (h : Handle) (t : List Event) : Prop :=
  (env.reply t (World.disconnectCall client h)).rc = mqttAsyncSuccess →
    ∃ d ∈ (env.reply t (World.disconnectCall client h)).window, d.source = t.length ∧
      (d.context, d.invocation.fn) ∈ (World.disconnectCall client h).registered

/-- Every accepted disconnect has been followed by the destruction of its handle. -/
def Finished (t : List Event) : Prop :=
  ∀ h source c, AcceptedDisconnect t h source c →
    ∃ place client method r, source < place ∧
      t[place]? = some (.call client method (.destroy (some h)) r)

def Event.kind : Event → Option CallKind
  | .call _ _ c _ => some c.kind
  | _ => none

variable {env : Env} {w : World} {t u : List Event} {h h' : Handle} {source : ℕ}
  {c : LibCall}

theorem OutcomeDispatched.append (hd : OutcomeDispatched t source c) (u : List Event) :
    OutcomeDispatched (t ++ u) source c := by
  obtain ⟨d, result, hmem, hrest⟩ := hd
  refine ⟨d, result, ?_, hrest⟩
  rw [List.drop_append]
  exact List.mem_append_left _ hmem

theorem AcceptedDisconnect.lt_length (ha : AcceptedDisconnect t h source c) : source < t.length := by
  obtain ⟨-, -, client, method, r, hget, -⟩ := ha
  exact (List.getElem?_eq_some_iff.1 hget).1

theorem acceptedDisconnect_append (u : List Event) (hlt : source < t.length) :
    AcceptedDisconnect (t ++ u) h source c ↔ AcceptedDisconnect t h source c := by
  rw [AcceptedDisconnect, AcceptedDisconnect, List.getElem?_append_left hlt]

/-- Events that are no disconnects add no accepted one. -/
theorem AcceptedDisconnect.of_append (hu : ∀ e ∈ u, e.kind ≠ some .disconnect)
    (ha : AcceptedDisconnect (t ++ u) h source c) : AcceptedDisconnect t h source c := by
  by_cases hlt : source < t.length
  · exact (acceptedDisconnect_append u hlt).1 ha
  · obtain ⟨hkind, -, client, method, r, hget, -⟩ := ha
    rw [List.getElem?_append_right (Nat.not_lt.1 hlt)] at hget
    have hne := hu _ (List.mem_of_getElem? hget)
    rw [Event.kind, hkind] at hne
    exact absurd rfl hne

theorem outcomeReported_of_ne_destroy {past : List Event} {e : Event}
    (he : e.kind ≠ some .destroy) : OutcomeReported past e := by
  intro client method h r heq
  rw [heq] at he
  exact absurd rfl he

theorem reported_append_iff (hu : ∀ e ∈ u, e.kind ≠ some .destroy) :
    AtEach OutcomeReported (t ++ u) ↔ AtEach OutcomeReported t := by
  rw [atEach_append, and_iff_left]
  exact atEach_of_forall_mem fun e he _ => outcomeReported_of_ne_destroy (hu e he)

/-- In a finished history where every destruction found the outcomes dispatched, they are. -/
theorem Finished.dispatched (hF : Finished t) (hP : AtEach OutcomeReported t)
    (ha : AcceptedDisconnect t h source c) : OutcomeDispatched t source c := by
  obtain ⟨place, client, method, r, hlt, hget⟩ := hF h source c ha
  obtain ⟨hplace, hget⟩ := List.getElem?_eq_some_iff.1 hget
  have hsplit : t = t.take place ++ t[place] :: t.drop (place + 1) := by
    rw [← List.drop_eq_getElem_cons hplace, List.take_append_drop]
  have hearlier : AcceptedDisconnect (t.take place) h source c := by
    rw [hsplit] at ha
    refine (acceptedDisconnect_append _ ?_).1 ha
    rw [List.length_take]
    omega
  have hreported := hP _ _ _ hsplit client method h r hget source c hearlier
  rw [hsplit]
  exact hreported.append _

theorem Finished.append (hF : Finished t) (hu : ∀ e ∈ u, e.kind ≠ some .disconnect) :
    Finished (t ++ u) := by
  intro h source c ha
  obtain ⟨place, client, method, r, hlt, hget⟩ := hF h source c (ha.of_append hu)
  refine ⟨place, client, method, r, hlt, ?_⟩
  rwa [List.getElem?_append_left (List.getElem?_eq_some_iff.1 hget).1]

/-- Events that are no disconnects change nothing, the destructions among them included: their
handles have no disconnect without an outcome. -/
theorem Finished.grow (hF : Finished t) (hu : ∀ e ∈ u, e.kind ≠ some .disconnect) :
    Finished (t ++ u) ∧ (AtEach OutcomeReported (t ++ u) ↔ AtEach OutcomeReported t) := by
  refine ⟨hF.append hu, ?_⟩
  rw [atEach_append, and_iff_left_iff_imp]
  intro hP past e future heq client method h r _ source c ha
  have hpast : ∀ e' ∈ past, e'.kind ≠ some .disconnect :=
    fun e' he' => hu e' (by simp [heq, he'])
  exact (hF.dispatched hP (ha.of_append hpast)).append past

theorem Event.kind_ne {e : Event} (he : e.isCall = false) (kind : CallKind) :
    e.kind ≠ some kind := by
  cases e with
  | call => cases he
  | _ => exact fun h => by cases h

theorem kind_window (w : World) (r : Reply) (kind : CallKind) :
    ∀ e ∈ r.window.flatMap w.dispatch, e.kind ≠ some kind :=
  fun e he => Event.kind_ne (isCall_window w r e he) kind

theorem kind_answer {client : ClientId} {method : Method} {kind : CallKind} (hne : c.kind ≠ kind) :
    ∀ e ∈ w.answer env client method c t, e.kind ≠ some kind := by
  intro e he
  rw [World.answer, List.mem_cons] at he
  rcases he with rfl | he
  · exact fun hkind => hne (Option.some.inj hkind)
  · exact kind_window w _ kind e he

theorem grows_finished {client : ClientId} {methods : List Method}
    (hgrows : w.Grows env client methods t u) (hmethods : ∀ m ∈ methods, .disconnect ∉ m.kinds)
    (hF : Finished t) :
    Finished u ∧ (AtEach OutcomeReported u ↔ AtEach OutcomeReported t) := by
  refine hgrows.invariant (J := fun u => Finished u ∧
    (AtEach OutcomeReported u ↔ AtEach OutcomeReported t)) ⟨hF, Iff.rfl⟩ ?_ ?_
  · intro v method c hv hmethod hmade
    have hne : c.kind ≠ .disconnect := fun heq => hmethods method hmethod (heq ▸ hmade.kind)
    have hanswer : ∀ e ∈ w.answer env client method c v, e.kind ≠ some .disconnect :=
      kind_answer hne
    have hgrow := hv.1.grow hanswer
    exact ⟨hgrow.1, hgrow.2.trans hv.2⟩
  · intro v e hv he
    have hplain : ∀ e' ∈ [e], e'.kind ≠ some .disconnect :=
      List.forall_mem_singleton.2 (Event.kind_ne he.isCall _)
    have hgrow := hv.1.grow hplain
    exact ⟨hgrow.1, hgrow.2.trans hv.2⟩

section Disconnect

variable {client : ClientId}

/-- The history between the two calls of a disconnect. -/
def afterRequest (env : Env) (w : World) (client : ClientId) (h : Handle) : List Event :=
  w.trace ++ w.answer env client .disconnect (World.disconnectCall client h) w.trace

theorem length_lt_afterRequest : w.trace.length < (afterRequest env w client h).length := by
  simp [afterRequest, World.answer]

theorem reported_afterRequest_iff :
    AtEach OutcomeReported (afterRequest env w client h) ↔ AtEach OutcomeReported w.trace :=
  reported_append_iff (kind_answer (by simp [World.disconnectCall, LibCall.kind]))

/-- The accepted disconnects after a request: those before, and this one. -/
theorem acceptedDisconnect_afterRequest
    (ha : AcceptedDisconnect (afterRequest env w client h) h' source c) :
    AcceptedDisconnect w.trace h' source c ∨ source = w.trace.length ∧ h' = h ∧
      c = World.disconnectCall client h ∧
      (env.reply w.trace (World.disconnectCall client h)).rc = mqttAsyncSuccess := by
  rw [afterRequest, World.answer, List.append_cons] at ha
  have hcall := ha.of_append (kind_window w _ .disconnect)
  by_cases hlt : source < w.trace.length
  · exact Or.inl ((acceptedDisconnect_append _ hlt).1 hcall)
  · have heq : source = w.trace.length := by
      have hle := hcall.lt_length
      rw [List.length_append, List.length_singleton] at hle
      omega
    subst heq
    obtain ⟨-, hhandle, client', method, r, hget, hrc⟩ := hcall
    rw [List.getElem?_concat_length] at hget
    cases hget
    exact Or.inr ⟨rfl, (Option.some.inj hhandle).symm, rfl, hrc⟩

theorem acceptedDisconnect_request
    (hrc : (env.reply w.trace (World.disconnectCall client h)).rc = mqttAsyncSuccess) :
    AcceptedDisconnect (afterRequest env w client h) h w.trace.length
      (World.disconnectCall client h) := by
  refine ⟨rfl, rfl, client, .disconnect, _, ?_, hrc⟩
  rw [afterRequest, List.getElem?_append_right le_rfl, Nat.sub_self]
  rfl

/-- Between the two calls the outcome has been dispatched if that happened in the window. -/
theorem outcomeDispatched_afterRequest_iff :
    OutcomeDispatched (afterRequest env w client h) w.trace.length
        (World.disconnectCall client h) ↔
      ∃ d ∈ (env.reply w.trace (World.disconnectCall client h)).window,
        d.source = w.trace.length ∧
          (d.context, d.invocation.fn) ∈ (World.disconnectCall client h).registered := by
  have hdrop : (afterRequest env w client h).drop (w.trace.length + 1) =
      (env.reply w.trace (World.disconnectCall client h)).window.flatMap w.dispatch := by
    rw [afterRequest, World.answer, List.append_cons]
    exact List.drop_left' (by simp)
  rw [OutcomeDispatched, hdrop]
  constructor
  · rintro ⟨d, result, hmem, hsource, hfn⟩
    obtain ⟨d', hd', heq | heq⟩ := World.mem_window hmem
    · cases heq
      exact ⟨d, hd', hsource, hfn⟩
    · cases heq
  · rintro ⟨d, hd, hsource, hfn⟩
    refine ⟨d, runCallback w.clients d.context w.ssls d.invocation,
      List.mem_flatMap.2 ⟨d, hd, ?_⟩, hsource, hfn⟩
    rw [World.dispatch]
    exact List.mem_cons_self

/-- The destruction after the request finds the outcome dispatched if the library is prompt. -/
theorem outcomeReported_destroy_iff (hF : Finished w.trace) (hP : AtEach OutcomeReported w.trace)
    {method : Method} {r : Reply} :
    OutcomeReported (afterRequest env w client h) (.call client method (.destroy (some h)) r) ↔
      env.Prompt client h w.trace := by
  constructor
  · intro hreported hrc
    exact outcomeDispatched_afterRequest_iff.1
      (hreported _ _ _ _ rfl _ _ (acceptedDisconnect_request hrc))
  · intro hprompt client' method' h' r' heq source c ha
    rcases acceptedDisconnect_afterRequest ha with hold | ⟨rfl, -, rfl, hrc⟩
    · exact (hF.dispatched hP hold).append _
    · exact outcomeDispatched_afterRequest_iff.2 (hprompt hrc)

/-- **A disconnect** keeps the property exactly when the library is prompt. -/
theorem disconnect_reported_iff (hhandle : (w.clients client).mqttAsyncHandle = some h)
    (hF : Finished w.trace) :
    Finished (w.disconnect env client).trace ∧
      (AtEach OutcomeReported (w.disconnect env client).trace ↔
        AtEach OutcomeReported w.trace ∧ env.Prompt client h w.trace) := by
  have htrace : (w.disconnect env client).trace = afterRequest env w client h ++
      w.answer env client .disconnect (.destroy (some h)) (afterRequest env w client h) :=
    World.disconnect_trace hhandle
  rw [htrace, World.answer, List.append_cons]
  have hwindow := kind_window w (env.reply (afterRequest env w client h) (.destroy (some h)))
  constructor
  · intro h' source c ha
    have hbefore := AcceptedDisconnect.of_append (by simp [Event.kind, LibCall.kind])
      (ha.of_append (hwindow .disconnect))
    rcases acceptedDisconnect_afterRequest hbefore with hold | ⟨rfl, rfl, -, -⟩
    · obtain ⟨place, client', method, r, hlt, hget⟩ := hF h' source c hold
      refine ⟨place, client', method, r, hlt, ?_⟩
      have hplace := (List.getElem?_eq_some_iff.1 hget).1
      rw [afterRequest, List.append_assoc, List.append_assoc, List.getElem?_append_left hplace, hget]
    · refine ⟨(afterRequest env w client h').length, client, .disconnect,
        env.reply (afterRequest env w client h') (.destroy (some h')),
        length_lt_afterRequest, ?_⟩
      rw [List.append_assoc, List.getElem?_append_right le_rfl, Nat.sub_self]
      rfl
  · rw [reported_append_iff (hwindow .destroy), atEach_append, reported_afterRequest_iff,
      atEach_singleton, List.append_nil]
    exact and_congr_right fun hP => outcomeReported_destroy_iff hF hP

end Disconnect

theorem outcomeRule (env : Env) :
    TraceRule env Finished (AtEach OutcomeReported) (env.Prompt) True where
  requests := by
    intro w i methods t u hmethods hgrows hF
    refine grows_finished hgrows (fun m hm hkind => ?_) hF
    rw [hmethods m hm] at hkind
    simp at hkind
  mark := by
    intro t e he hF
    exact hF.grow (List.forall_mem_singleton.2 (Event.kind_ne he.isCall _))
  disconnect := fun hhandle hF => disconnect_reported_iff hhandle hF
  connect := by
    intro w w' i hwired hacts hF
    have hcreated : World.Acts env i [.connect] w (w.create env i).1 := World.acts_create hwired
    have hgrown := grows_finished (hcreated.trans hacts).grows (by simp [Method.kinds]) hF
    simpa using hgrown

/-- Every disconnect of a client with a handle in a step is refused by the library, or has its outcome
dispatched before the handle is destroyed. -/
def Session.Prompt (env : Env) (s : Session) (e : SessionStep) : Prop := s.TornDown e env.Prompt

theorem step_reported_iff {s s' : Session} {e : SessionStep} (hwired : s.world.Wired env)
    (hF : Finished s.world.trace) (h : s.step env e = some s') :
    Finished s'.world.trace ∧ (AtEach OutcomeReported s'.world.trace ↔
      AtEach OutcomeReported s.world.trace ∧ s.Prompt env e) := by
  obtain ⟨-, w, hw, hworld, -, -⟩ := Session.step_eq_some h
  by_cases henter : ∃ d, e = .enter d
  · obtain ⟨d, rfl⟩ := henter
    cases hw
    have hgrow := hF.grow (u := [.enter d (runCallback s.world.clients d.context s.world.ssls
      d.invocation)]) (by simp [Event.kind])
    have hprompt : s.Prompt env (.enter d) := by
      intro p hp
      cases hp
    rw [hworld]
    exact ⟨hgrow.1, hgrow.2.trans (and_iff_left hprompt).symm⟩
  · have hstep := (outcomeRule env).step hwired hF (fun d hd => henter ⟨d, hd⟩) hw
    rw [hworld]
    rcases s.finish_cases ((s.gone e).foldl (World.dealloc env) w) e with heq | ⟨d, -, heq⟩
    · rw [heq]
      simpa [Session.Prompt] using hstep
    · have hgrow := hstep.1.grow (u := [.leave d]) (by simp [Event.kind])
      rw [heq]
      refine ⟨hgrow.1, hgrow.2.trans ?_⟩
      simpa [Session.Prompt] using hstep.2

/-- **The outcome of a disconnect.** In a run of any clients, started without a history, a handle is
destroyed only after the outcome of its accepted disconnect has been dispatched if and only if every
disconnect of a client that has a handle is refused by the library or has its outcome dispatched
before the wrapper makes its next call. -/
theorem disconnect_outcome_iff_prompt (env : Env) (objects : List Obj)
    (clientIDs : ClientId → NSString) (delegates : ClientId → Option Delegate)
    (steps : List SessionStep) {s : Session}
    (hrun : runFrom (Session.step env) (Session.initial objects clientIDs delegates) steps = some s) :
    AtEach OutcomeReported s.world.trace ↔
      AllSteps (Session.step env) (Session.Prompt env)
        (Session.initial objects clientIDs delegates) steps := by
  have hinitial : Finished (Session.initial objects clientIDs delegates).world.trace := by
    intro h source c ha
    exact absurd ha.lt_length (Nat.not_lt_zero _)
  have hiff := runFrom_iff_allSteps
    (I := fun s : Session => s.world.Wired env ∧ Finished s.world.trace)
    (P := fun s => AtEach OutcomeReported s.world.trace)
    (fun s e s' hs h => ⟨Session.wired_step hs.1 h, (step_reported_iff hs.1 hs.2 h).1⟩)
    (fun s e s' hs h => (step_reported_iff hs.1 hs.2 h).2)
    ⟨World.wired_initial env clientIDs delegates, hinitial⟩ hrun
  exact hiff.trans (and_iff_right (atEach_nil _))

/-- A connect and a disconnect with a library that accepts both and has dispatched nothing yet. -/
theorem disconnect_outcome_lost :
    ∃ s, runFrom (Session.step obligingEnv)
        (Session.initial [.client 0] (fun _ => "c") fun _ => some 0)
        [.operation 0 (.connect none none none), .operation 0 .disconnect] = some s ∧
      ¬ AtEach OutcomeReported s.world.trace := by
  refine ⟨_, rfl, fun hreported => ?_⟩
  -- the disconnect is the sixth event of the run, and the destruction the seventh
  obtain ⟨d, result, hmem, -⟩ := hreported (_ :: _ :: _ :: _ :: _ :: [_]) _ _ rfl 0 .disconnect 0 _
    rfl 5 (World.disconnectCall 0 0) ⟨rfl, rfl, 0, .disconnect, _, rfl, rfl⟩
  exact absurd hmem List.not_mem_nil

/-- A library that brings the outcome of a disconnect before it returns. -/
def promptEnv : Env where
  reply t c :=
    { obligingEnv.reply t c with
      window := match c with
        | .disconnect _ options =>
            [⟨t.length, options.context, .success .onDisconnectSuccess ⟨0, 0, []⟩⟩]
        | _ => [] }
  enableSSLConnection := true

theorem disconnect_outcome_prompt :
    ∃ s, runFrom (Session.step promptEnv)
        (Session.initial [.client 0] (fun _ => "c") fun _ => some 0)
        [.operation 0 (.connect none none none), .operation 0 .disconnect] = some s ∧
      AtEach OutcomeReported s.world.trace := by
  have hrun : runFrom (Session.step promptEnv)
      (Session.initial [.client 0] (fun _ => "c") fun _ => some 0)
      [.operation 0 (.connect none none none), .operation 0 .disconnect] = some _ := rfl
  refine ⟨_, hrun, (disconnect_outcome_iff_prompt promptEnv _ _ _ _ hrun).2 ?_⟩
  refine allSteps_of_forall (fun s e => ?_) _ _
  intro p _ h _ _
  refine ⟨_, List.mem_singleton_self _, rfl, ?_⟩
  simp [World.disconnectCall, LibCall.registered, LibCall.completions, Invocation.fn]

end CocoaPaho
