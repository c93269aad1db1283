import CocoaPaho.InterleavedSession

/-!
The library's callback contract: within a callback of a client neither `MQTTAsync_create` nor
`MQTTAsync_destroy` should be called. The depth of a history counts the callbacks that have been
entered and not yet left. A callback calls its delegate while it runs, and runs beside the methods
called on other threads, so whether the contract is kept depends on where a method stands when it goes
on and on whether a callback runs at that moment.
-/

namespace CocoaPaho

open Base

/-- The callbacks that work on a client. -/
def CallbackFn.ofClient : CallbackFn → Bool
  | .sslErrorCb => false
  | .sslPSKCb => false
  | _ => true

def Dispatch.ofClient (d : Dispatch) : Bool := d.invocation.fn.ofClient

def Event.opens : Event → Bool
  | .enter d _ => d.ofClient
  | _ => false

def Event.closes : Event → Bool
  | .leave d => d.ofClient
  | _ => false

/-- The number of callbacks of clients that run after a history. -/
def depth (t : List Event) : ℤ := (t.countP Event.opens : ℤ) - t.countP Event.closes

def LibCall.CreatesOrDestroys (c : LibCall) : Prop := c.kind = .create ∨ c.kind = .destroy

/-- A creation or destruction is called outside all callbacks of clients. -/
def OutsideCallbacks (past : List Event) (e : Event) : Prop :=
  ∀ client method c r, e = .call client method c r → c.CreatesOrDestroys → depth past = 0

variable {env : Env} {w w' : World} {t u : List Event} {c : LibCall} {client : ClientId}
  {method : Method}

theorem depth_append (t u : List Event) : depth (t ++ u) = depth t + depth u := by
  simp only [depth, List.countP_append]
  omega

/-- The callbacks in the window of a call are left again. -/
theorem depth_window (w : World) (ds : List Dispatch) : depth (ds.flatMap w.dispatch) = 0 := by
  induction ds with
  | nil => rfl
  | cons d ds ih =>
      rw [List.flatMap_cons, depth_append, ih]
      cases hd : d.ofClient <;>
        simp [depth, World.dispatch, Event.opens, Event.closes, hd]

theorem depth_answer : depth (w.answer env client method c t) = 0 := by
  rw [World.answer, ← List.singleton_append, depth_append, depth_window]
  rfl

theorem outsideCallbacks_window (w : World) (r : Reply) (t : List Event) :
    AtEach (fun past e => OutsideCallbacks (t ++ past) e) (r.window.flatMap w.dispatch) := by
  refine atEach_of_forall_mem fun e he past client method c r' heq => ?_
  have hcall := isCall_window w r e he
  rw [heq] at hcall
  cases hcall

theorem depth_enter (d : Dispatch) (result : CallbackResult) :
    depth [.enter d result] = (if d.ofClient then 1 else 0 : ℕ) := by
  cases hd : d.ofClient <;> simp [depth, Event.opens, Event.closes, hd]

theorem depth_leave (d : Dispatch) : depth [.leave d] = -(if d.ofClient then 1 else 0 : ℕ) := by
  cases hd : d.ofClient <;> simp [depth, Event.opens, Event.closes, hd]

theorem depth_call (client : ClientId) (method : Method) (c : LibCall) (r : Reply) :
    depth [.call client method c r] = 0 := rfl

theorem outside_call_iff {r : Reply} :
    AtEach OutsideCallbacks (t ++ [.call client method c r]) ↔
      AtEach OutsideCallbacks t ∧ (c.CreatesOrDestroys → depth t = 0) := by
  rw [atEach_append, atEach_singleton, List.append_nil]
  refine and_congr_right fun _ => ⟨fun h => h _ _ _ _ rfl, fun h client' method' c' r' heq => ?_⟩
  cases heq
  exact h

/-- A call, up to the end of its window. -/
theorem outside_answer_iff :
    AtEach OutsideCallbacks (t ++ w.answer env client method c t) ↔
      AtEach OutsideCallbacks t ∧ (c.CreatesOrDestroys → depth t = 0) := by
  rw [World.answer, List.append_cons, atEach_append, and_iff_left (outsideCallbacks_window w _ _),
    outside_call_iff]

theorem outside_append_iff (hu : ∀ e ∈ u, e.isCall = false) :
    AtEach OutsideCallbacks (t ++ u) ↔ AtEach OutsideCallbacks t := by
  rw [atEach_append, and_iff_left]
  refine atEach_of_forall_mem fun e he past client method c r heq => ?_
  have hcall := hu e he
  rw [heq] at hcall
  cases hcall

/-- The bodies of methods keep the depth, and the contract if they neither create nor destroy, or are
run outside callbacks. -/
theorem grows_outside {methods : List Method} (hgrows : w.Grows env client methods t u) :
    depth u = depth t ∧
      ((∀ m ∈ methods, ∀ c : LibCall, c.kind ∈ m.kinds → c.CreatesOrDestroys → depth t = 0) →
        (AtEach OutsideCallbacks u ↔ AtEach OutsideCallbacks t)) := by
  refine hgrows.invariant (J := fun u => depth u = depth t ∧
    ((∀ m ∈ methods, ∀ c : LibCall, c.kind ∈ m.kinds → c.CreatesOrDestroys → depth t = 0) →
      (AtEach OutsideCallbacks u ↔ AtEach OutsideCallbacks t))) ⟨rfl, fun _ => Iff.rfl⟩ ?_ ?_
  · intro v method c hv hmethod hmade
    rw [depth_append, depth_answer, outside_answer_iff, hv.1]
    refine ⟨Int.add_zero _, fun hmethods => ?_⟩
    rw [hv.2 hmethods]
    exact and_iff_left (hmethods method hmethod c hmade.kind)
  · intro v e hv he
    have hdepth : depth [e] = 0 := by cases he <;> rfl
    rw [depth_append, hdepth, outside_append_iff (List.forall_mem_singleton.2 he.isCall), hv.1]
    exact ⟨Int.add_zero _, hv.2⟩

/-- A method of one library call neither creates nor destroys. -/
theorem run_outside {op : Operation} (hwired : w.Wired env) (hbody : op.body = none)
    (h : op.run env client w = some w') :
    depth w'.trace = depth w.trace ∧
      (AtEach OutsideCallbacks w'.trace ↔ AtEach OutsideCallbacks w.trace) := by
  rcases World.run_cases hwired h with ⟨method, result, hmethod, hacts, rfl⟩ | ⟨-, hacts⟩ |
    ⟨ssl, rfl, rfl⟩
  · have hkinds : ∀ m ∈ method.bodies, m.kinds = [.request] := by
      cases op with
      | connect _ _ _ => cases hbody
      | disconnect => cases hbody
      | _ => cases hmethod <;> simp [Method.bodies, Method.kinds]
    have hgrown := grows_outside hacts.grows
    have hreturned : ∀ e ∈ [Event.returned client method result.2], e.isCall = false := by
      simp [Event.isCall]
    rw [World.returning, World.emit_trace, depth_append, outside_append_iff hreturned]
    refine ⟨(Int.add_zero _).trans hgrown.1, hgrown.2 fun m hm c hkind hc => ?_⟩
    rw [hkinds m hm, List.mem_singleton] at hkind
    rw [LibCall.CreatesOrDestroys, hkind] at hc
    simp at hc
  · have hgrown := grows_outside hacts.grows
    exact ⟨hgrown.1, hgrown.2 fun m hm => absurd hm List.not_mem_nil⟩
  · exact ⟨rfl, Iff.rfl⟩

/-- The places from which a method must not go on while a callback of a client runs: a connect at its
beginning if it finds no handle, behind the destruction of the handle it found, and behind a call
that failed; any method behind `MQTTAsync_disconnect`. -/
def MethodBody.Waits (body : MethodBody) (handle : Option Handle) : Place → Prop
  | .entry => (∃ username password userProperties,
      body = .connect username password userProperties) ∧ handle = none
  | .behind .disconnect _ => True
  | .behind .destroy _ => ∃ username password userProperties,
      body = .connect username password userProperties
  | .behind (.cleanUp _) _ => False
  | .behind _ rc => rc ≠ mqttAsyncSuccess

theorem Next.orCleanUp_cases (rc : ℤ) (rest : Next) :
    rc ≠ mqttAsyncSuccess ∧ Next.orCleanUp rc rest = .call (.cleanUp rc) ∨
      rc = mqttAsyncSuccess ∧ Next.orCleanUp rc rest = rest := by
  unfold Next.orCleanUp
  by_cases h : rc = mqttAsyncSuccess <;> simp [h]

def CallSite.CreatesOrDestroys : CallSite → Prop
  | .create => True
  | .destroy => True
  | .cleanUp _ => True
  | _ => False

theorem CallSite.createsOrDestroys_libCall (site : CallSite) (w : World) (client : ClientId) :
    (site.libCall client w).CreatesOrDestroys ↔ site.CreatesOrDestroys := by
  cases site <;> simp [CallSite.libCall, LibCall.CreatesOrDestroys, LibCall.kind,
    CallSite.CreatesOrDestroys]

/-- What a method does next creates or destroys. -/
def Next.CreatesOrDestroys : Next → Prop
  | .call site => site.CreatesOrDestroys
  | .returns _ => False

theorem Next.createsOrDestroys_orCleanUp {rc : ℤ} {rest : Next} (h : ¬ rest.CreatesOrDestroys) :
    (Next.orCleanUp rc rest).CreatesOrDestroys ↔ rc ≠ mqttAsyncSuccess := by
  rcases Next.orCleanUp_cases rc rest with ⟨hrc, heq⟩ | ⟨hrc, heq⟩
  · rw [heq]
    exact iff_of_true trivial hrc
  · rw [heq]
    exact iff_of_false h (not_not.2 hrc)

theorem MethodBody.createsOrDestroys_behindDisconnect (body : MethodBody) :
    body.behindDisconnect.CreatesOrDestroys ↔
      ∃ username password userProperties, body = .connect username password userProperties := by
  cases body with
  | connect username password userProperties => exact iff_of_true trivial ⟨_, _, _, rfl⟩
  | _ => exact iff_of_false id (by rintro ⟨_, _, _, ⟨⟩⟩)

/-- Whether a method creates or destroys next shows in its place. -/
theorem MethodBody.createsOrDestroys_next (body : MethodBody) (handle : Option Handle)
    (place : Place) : (body.next handle place).CreatesOrDestroys ↔ body.Waits handle place := by
  cases place with
  | entry =>
      by_cases hhandle : handle = none
      · rw [MethodBody.next, if_pos hhandle, body.createsOrDestroys_behindDisconnect]
        exact (and_iff_left hhandle).symm
      · rw [MethodBody.next, if_neg hhandle]
        exact iff_of_false id fun h => hhandle h.2
  | behind site rc =>
      cases site with
      | disconnect => exact Iff.rfl
      | destroy => exact body.createsOrDestroys_behindDisconnect
      | cleanUp code => exact Iff.rfl
      | _ => exact Next.createsOrDestroys_orCleanUp id

/-- The callbacks of clients among what the threads execute. -/
def Frame.ofClient : Frame → Bool
  | .callback d => d.ofClient
  | .leaving d => d.ofClient
  | _ => false

namespace ThreadedSession

variable {s s' : ThreadedSession} {e : ThreadedStep} {thread : Thread} {body : MethodBody}
  {place : Place}

def clientFrames (s : ThreadedSession) : ℕ := s.frames.countP fun entry => entry.2.ofClient

/-- While a callback of a client runs, no method goes on from a place where it has to wait. -/
def RespectsCallbacks (s : ThreadedSession) (e : ThreadedStep) : Prop :=
  s.clientFrames ≠ 0 → ∀ thread client body place, e = .proceed thread →
    top thread s.frames = some (.method client body place) →
      ¬ body.Waits (s.world.clients client).mqttAsyncHandle place

/-- The youngest frame of a thread, and the others. -/
theorem clientFrames_of_top {frame : Frame} (h : top thread s.frames = some frame) :
    s.clientFrames = ((pop thread s.frames).countP fun entry => entry.2.ofClient) +
      if frame.ofClient then 1 else 0 := by
  rw [clientFrames, countP_of_top _ h]

/-- Another frame in the place of the youngest one. -/
theorem countP_replace {frame frame' : Frame} (h : top thread s.frames = some frame)
    (hframe : frame'.ofClient = frame.ofClient) :
    ((thread, frame') :: pop thread s.frames).countP (fun entry => entry.2.ofClient) =
      s.clientFrames := by
  rw [List.countP_cons, clientFrames_of_top h, hframe]

/-- Steps that keep the count of the running callbacks and the contract. -/
structure Quiet (s s' : ThreadedSession) : Prop where
  balance : depth s'.world.trace - s'.clientFrames = depth s.world.trace - s.clientFrames
  outside : AtEach OutsideCallbacks s'.world.trace ↔ AtEach OutsideCallbacks s.world.trace

theorem Quiet.trans {s'' : ThreadedSession} (h : Quiet s s') (h' : Quiet s' s'') : Quiet s s'' :=
  ⟨h'.balance.trans h.balance, h'.outside.trans h.outside⟩

/-- Events that are no calls, with as many callbacks more as they open. -/
theorem quiet_of_events {events : List Event} (htrace : s'.world.trace = s.world.trace ++ events)
    (hevents : ∀ e ∈ events, e.isCall = false)
    (hframes : (s'.clientFrames : ℤ) = s.clientFrames + depth events) : Quiet s s' := by
  refine ⟨?_, ?_⟩
  · rw [htrace, depth_append, hframes]
    omega
  · rw [htrace]
    exact outside_append_iff hevents

theorem quiet_of_trace (htrace : s'.world.trace = s.world.trace)
    (hframes : s'.clientFrames = s.clientFrames) : Quiet s s' :=
  ⟨by rw [htrace, hframes], by rw [htrace]⟩

theorem quiet_drop (s : ThreadedSession) (thread : Thread) (holder : Holder) (client : ClientId) :
    Quiet s (s.drop thread holder client) := by
  unfold drop
  dsimp only
  split_ifs
  · refine quiet_of_events (show _ = _ ++ [Event.dealloc (.client client)] from rfl)
      (by simp [Event.isCall]) ?_
    simp [clientFrames, Frame.ofClient, depth, Event.opens, Event.closes]
  · exact quiet_of_trace rfl rfl

theorem quiet_giveUp {d : Dispatch} (h : top thread s.frames = some (.callback d)) :
    Quiet s (s.giveUp thread d) := by
  have hframes : Quiet s { s with frames := (thread, .leaving d) :: pop thread s.frames } :=
    quiet_of_trace rfl (countP_replace h rfl)
  unfold giveUp
  dsimp only
  split
  · exact hframes.trans (quiet_drop _ _ _ _)
  · exact hframes

theorem quiet_operation {env : Env} {client : ClientId} {op : Operation}
    (hwired : s.world.Wired env.windowless)
    (h : s.step env (.operation thread client op) = some s') : Quiet s s' := by
  rw [step] at h
  split_ifs at h
  cases hbody : op.body with
  | some body =>
      rw [hbody] at h
      cases h
      exact quiet_of_trace rfl (by simp [clientFrames, Frame.ofClient])
  | none =>
      rw [hbody] at h
      obtain ⟨w, hw, rfl⟩ := Option.map_eq_some_iff.1 h
      have hrun := run_outside hwired hbody hw
      exact ⟨congrArg (· - (s.clientFrames : ℤ)) hrun.1, hrun.2⟩

/-- A method that goes on keeps the contract when it does not have to wait, or no callback runs. -/
theorem goOn_outside_iff (env : Env) {client : ClientId}
    (h : top thread s.frames = some (.method client body place)) :
    depth (s.goOn env thread client body place).world.trace -
          (s.goOn env thread client body place).clientFrames =
        depth s.world.trace - s.clientFrames ∧
      (AtEach OutsideCallbacks (s.goOn env thread client body place).world.trace ↔
        AtEach OutsideCallbacks s.world.trace ∧
          (body.Waits (s.world.clients client).mqttAsyncHandle place →
            depth s.world.trace = 0)) := by
  rcases s.goOn_cases env thread client body place with
    ⟨site, w, r, hnext, rfl, heq⟩ | ⟨rc, hnext, heq⟩
  · have htrace := site.prepare_trace env.windowless client s.world body
    have hwaits := body.createsOrDestroys_next (s.world.clients client).mqttAsyncHandle place
    rw [hnext] at hwaits
    have hframes : ((thread, Frame.calling client body site r) :: pop thread s.frames).countP
        (fun entry => entry.2.ofClient) = s.clientFrames := countP_replace h rfl
    rw [heq]
    constructor
    · rw [clientFrames, hframes, World.emit_trace, htrace, depth_append, depth_call, Int.add_zero]
    · rw [World.emit_trace, htrace, outside_call_iff, site.createsOrDestroys_libCall]
      exact and_congr_right fun _ => imp_congr_left hwaits
  · have hpop : ((pop thread s.frames).countP fun entry => entry.2.ofClient) = s.clientFrames :=
      (clientFrames_of_top h).symm
    have hquiet : Quiet s { s with world := body.returning client rc s.world
                                   frames := pop thread s.frames } := by
      cases body with
      | dealloc => exact quiet_of_trace rfl hpop
      | _ =>
          refine quiet_of_events rfl (by simp [Event.isCall]) ?_
          exact (congrArg Nat.cast hpop).trans (Int.add_zero _).symm
    rw [heq]
    refine ⟨hquiet.balance, hquiet.outside.trans (and_iff_left fun hwaits => ?_).symm⟩
    rw [← body.createsOrDestroys_next, hnext] at hwaits
    exact hwaits.elim

theorem step_outside_iff {env : Env} (hwired : s.world.Wired env.windowless)
    (hframes : depth s.world.trace = s.clientFrames) (h : s.step env e = some s') :
    depth s'.world.trace = s'.clientFrames ∧ (AtEach OutsideCallbacks s'.world.trace ↔
      AtEach OutsideCallbacks s.world.trace ∧ s.RespectsCallbacks e) := by
  have hquiet : (∀ thread, e ≠ .proceed thread) → Quiet s s' →
      depth s'.world.trace = s'.clientFrames ∧ (AtEach OutsideCallbacks s'.world.trace ↔
        AtEach OutsideCallbacks s.world.trace ∧ s.RespectsCallbacks e) := by
    intro hne hquiet
    have hbalance := hquiet.balance
    refine ⟨by omega, hquiet.outside.trans (and_iff_left ?_).symm⟩
    exact fun _ thread _ _ _ heq => absurd heq (hne thread)
  cases e with
  | proceed thread =>
      rw [step] at h
      split at h
      · next client body place htop =>
          cases h
          have hgoOn := goOn_outside_iff env htop
          have hbalance := hgoOn.1
          refine ⟨by omega, hgoOn.2.trans (and_congr_right fun _ => ?_)⟩
          rw [hframes, Int.natCast_eq_zero]
          constructor
          · intro hwaits hrunning _ _ _ _ heq htop'
            cases heq
            rw [htop] at htop'
            cases htop'
            exact fun h => hrunning (hwaits h)
          · intro hrespects hwaits
            by_contra hrunning
            exact hrespects hrunning thread client body place rfl htop hwaits
      · cases h
  | operation thread client op =>
      exact hquiet (fun thread h => by cases h) (quiet_operation hwired h)
  | setSSLOption ssl setter =>
      cases h
      exact hquiet (fun thread h => by cases h) (quiet_of_trace rfl rfl)
  | retain client =>
      rw [step] at h
      split_ifs at h
      cases h
      exact hquiet (fun thread h => by cases h) (quiet_of_trace rfl rfl)
  | release thread client =>
      rw [step] at h
      split_ifs at h
      cases h
      exact hquiet (fun thread h => by cases h) (quiet_drop s thread .app client)
  | answer thread =>
      rw [step] at h
      split at h
      · next client body site r htop =>
          cases h
          exact hquiet (fun thread h => by cases h)
            (quiet_of_trace (site.store_trace client r s.world) (countP_replace htop rfl))
      · cases h
  | enter thread d =>
      rw [step] at h
      split_ifs at h
      cases h
      refine hquiet (fun thread h => by cases h) (quiet_of_events rfl (by simp [Event.isCall]) ?_)
      rw [depth_enter, clientFrames, List.countP_cons]
      rfl
  | finish thread =>
      rw [step] at h
      split at h
      · next d htop =>
          cases h
          exact hquiet (fun thread h => by cases h) (quiet_giveUp htop)
      · cases h
  | leave thread =>
      rw [step] at h
      split at h
      · next d htop =>
          cases h
          refine hquiet (fun thread h => by cases h)
            (quiet_of_events rfl (by simp [Event.isCall]) ?_)
          rw [depth_leave, clientFrames_of_top htop, Int.natCast_add]
          exact (Int.add_neg_cancel_right _ _).symm
      · cases h

end ThreadedSession

/-- **The callback contract.** In a run of any clients on any threads, started with no callback
running, no handle is created or destroyed while a callback of a client runs if and only if no method
goes on from a place where it has to wait while a callback of a client runs. -/
theorem outside_callbacks_iff_respected (env : Env) (clients : List ClientId)
    (clientIDs : ClientId → NSString) (delegates : ClientId → Option Delegate)
    (steps : List ThreadedStep) {s : ThreadedSession}
    (hrun : runFrom (ThreadedSession.step env)
      (ThreadedSession.initial clients clientIDs delegates) steps = some s) :
    AtEach OutsideCallbacks s.world.trace ↔
      AllSteps (ThreadedSession.step env) ThreadedSession.RespectsCallbacks
        (ThreadedSession.initial clients clientIDs delegates) steps := by
  have hiff := runFrom_iff_allSteps
    (I := fun s : ThreadedSession =>
      s.world.Wired env.windowless ∧ depth s.world.trace = s.clientFrames)
    (P := fun s => AtEach OutsideCallbacks s.world.trace)
    (fun s e s' hs h => ⟨ThreadedSession.wired_step hs.1 h,
      (ThreadedSession.step_outside_iff hs.1 hs.2 h).1⟩)
    (fun s e s' hs h => (ThreadedSession.step_outside_iff hs.1 hs.2 h).2)
    ⟨World.wired_initial env.windowless clientIDs delegates, rfl⟩ hrun
  exact hiff.trans (and_iff_right (atEach_nil _))

/-- A thread goes on to a library call, which returns, a number of times. -/
def callSteps (thread : Thread) (calls : ℕ) : List ThreadedStep :=
  (List.replicate calls [ThreadedStep.proceed thread, .answer thread]).flatten

/-- A connect without credentials, from its beginning to its end. -/
def connectSteps (thread : Thread) (client : ClientId) : List ThreadedStep :=
  .operation thread client (.connect none none none) :: callSteps thread 4 ++ [.proceed thread]

/-- The library enters a callback of client 0 on thread 1. -/
def enterStep (invocation : Invocation) : ThreadedStep :=
  .enter 1 ⟨2, some (.client 0), invocation⟩

def onDisconnected : Invocation :=
  .success .onDisconnectSuccess { token := 0, reasonCode := 0, properties := [] }

/-- A delegate that connects its client again when it is told that the connection is lost; and a
disconnect on thread 0 whose completion the library reports before `MQTTAsync_disconnect` returns. -/
theorem contract_broken :
    (∃ s, runFrom (ThreadedSession.step obligingEnv)
        (ThreadedSession.initial [0] (fun _ => "c") fun _ => some 0)
        (connectSteps 0 0 ++ [enterStep (.onConnectionLost none),
          .operation 1 0 (.connect none none none), .proceed 1, .answer 1, .proceed 1]) = some s ∧
      ¬ AtEach OutsideCallbacks s.world.trace) ∧
      ∃ s, runFrom (ThreadedSession.step obligingEnv)
          (ThreadedSession.initial [0] (fun _ => "c") fun _ => some 0)
          (connectSteps 0 0 ++ [.operation 0 0 .disconnect, .proceed 0,
            enterStep onDisconnected, .answer 0, .proceed 0]) = some s ∧
        ¬ AtEach OutsideCallbacks s.world.trace := by
  constructor
  · refine ⟨_, rfl, fun houtside => ?_⟩
    have hdepth := houtside (_ :: _ :: _ :: _ :: _ :: _ :: [_]) _ _ rfl 0 .disconnect _ _ rfl
      (Or.inr rfl)
    exact absurd hdepth (by decide)
  · refine ⟨_, rfl, fun houtside => ?_⟩
    have hdepth := houtside (_ :: _ :: _ :: _ :: _ :: _ :: [_]) _ _ rfl 0 .disconnect _ _ rfl
      (Or.inr rfl)
    exact absurd hdepth (by decide)

/-- A connect goes on to its second call while a callback runs that was entered within the first. -/
def besideSteps : List ThreadedStep :=
  [.operation 0 0 (.connect none none none), .proceed 0, enterStep (.onConnectionConnected none),
    .answer 0, .proceed 0]

theorem connect_beside_callback :
    ∃ s, runFrom (ThreadedSession.step obligingEnv)
        (ThreadedSession.initial [0] (fun _ => "c") fun _ => some 0) besideSteps = some s ∧
      s.clientFrames = 1 ∧ AtEach OutsideCallbacks s.world.trace := by
  have hrun : runFrom (ThreadedSession.step obligingEnv)
      (ThreadedSession.initial [0] (fun _ => "c") fun _ => some 0) besideSteps = some _ := rfl
  refine ⟨_, hrun, rfl, (outside_callbacks_iff_respected obligingEnv _ _ _ _ hrun).2 ?_⟩
  refine ⟨fun hne => absurd rfl hne, fun s₁ h₁ => ?_⟩
  cases h₁
  refine ⟨fun hne => absurd rfl hne, fun s₂ h₂ => ?_⟩
  cases h₂
  refine ⟨fun hne => absurd rfl hne, fun s₃ h₃ => ?_⟩
  cases h₃
  have hanswer : ∀ thread, ThreadedStep.answer 0 ≠ .proceed thread := by
    rintro _ ⟨⟩
  refine ⟨fun _ thread _ _ _ heq => absurd heq (hanswer thread), fun s₄ h₄ => ?_⟩
  cases h₄
  refine ⟨fun _ thread client body place heq htop => ?_, fun _ _ => trivial⟩
  cases heq
  cases htop
  exact fun hwaits => hwaits rfl

end CocoaPaho
