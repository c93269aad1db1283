import CocoaPaho.Base.Stacks
import CocoaPaho.ClientSession

/-!
Sessions of several threads. A connect, a disconnect and the `dealloc` of a client are cut at their
library calls, and a thread stands in a library call or between two; any other method makes one call
at most and is a single step. The library enters a callback on a thread of its own, or within a call
made on the thread; the callback runs beside whatever the other threads do and may outlive that call,
and the delegate calls methods on its thread as the application does on others. A thread that drops
the last reference to a client, itself or at the end of a callback, runs the `dealloc`.
-/

namespace CocoaPaho

open Base

/-- The methods that make several library calls. -/
inductive MethodBody where
  | connect (username password : Option NSString)
      (userProperties : Option (NSDictionary PropertyObject))
  | disconnect
  | dealloc

/-- Their library calls, in the order of the source; a clean-up follows a failure with some code. -/
inductive CallSite where
  | disconnect
  | destroy
  | create
  | setConnected
  | setCallbacks
  | connect
  | cleanUp (code : ℤ)

/-- Where a method stands: at its beginning, or behind a library call that returned a code. -/
inductive Place where
  | entry
  | behind (site : CallSite) (rc : ℤ)

/-- What a method does next: it makes a library call, or returns. -/
inductive Next where
  | call (site : CallSite)
  | returns (rc : ℤ)

/-- Behind a call of a connect: clean up if it failed, otherwise go on. -/
def Next.orCleanUp (rc : ℤ) (rest : Next) : Next :=
  if rc ≠ mqttAsyncSuccess then .call (.cleanUp rc) else rest

namespace MethodBody

/-- A connect begins with a disconnect; the other two are one. -/
def behindDisconnect : MethodBody → Next
  | connect _ _ _ => .call .create
  | disconnect => .returns 0
  | dealloc => .returns 0

def next (body : MethodBody) (handle : Option Handle) : Place → Next
  | .entry => if handle = none then body.behindDisconnect else .call .disconnect
  | .behind .disconnect _ => .call .destroy
  | .behind .destroy _ => body.behindDisconnect
  | .behind .create rc => .orCleanUp rc (.call .setConnected)
  | .behind .setConnected rc => .orCleanUp rc (.call .setCallbacks)
  | .behind .setCallbacks rc => .orCleanUp rc (.call .connect)
  | .behind .connect rc => .orCleanUp rc (.returns mqttAsyncSuccess)
  | .behind (.cleanUp code) _ => .returns code

/-- The return of a method to its caller; a `dealloc` is not noted. -/
def returning (self : ClientId) (rc : ℤ) (w : World) : MethodBody → World
  | connect _ _ _ => World.returning self .connect (w, rc)
  | disconnect => World.returning self .disconnect (w, rc)
  | dealloc => w

end MethodBody

namespace CallSite

/-- The method in whose text the call stands. -/
def method : CallSite → Method
  | disconnect => .disconnect
  | destroy => .disconnect
  | _ => .connect

/-- The assignments of a connect between a library call and the one before it. -/
def prepare (env : Env) (self : ClientId) (w : World) : CallSite → MethodBody → World
  | create, .connect username password _ =>
      (w.modify self (PahoClient.setUsername username)).modify self
        (PahoClient.setPassword password)
  | connect, .connect _ _ userProperties => w.fillConnectOpts env self userProperties
  | _, _ => w

/-- The call itself. -/
def libCall (self : ClientId) (w : World) : CallSite → LibCall
  | disconnect =>
      .disconnect (w.clients self).mqttAsyncHandle
        { onSuccess5 := some .onDisconnectSuccess
          onFailure5 := some .onDisconnectFailue
          context := some (.client self) }
  | destroy => .destroy (w.clients self).mqttAsyncHandle
  | create =>
      .createWithOptions (utf8String (w.clients self).hostAndPort)
        (utf8String (some (w.clients self).clientID))
  | setConnected =>
      .setConnected (w.clients self).mqttAsyncHandle (some (.client self)) .onConnectionConnected
  | setCallbacks =>
      .setCallbacks (w.clients self).mqttAsyncHandle (some (.client self))
        .onConnectionLost .onMessageArrived
  | connect => .connect (w.clients self).mqttAsyncHandle (w.clients self).connectOpts
  | cleanUp _ => .destroy (w.clients self).mqttAsyncHandle

/-- What is left in the client when the call returns. -/
def store (self : ClientId) (r : Reply) (w : World) : CallSite → World
  | destroy => w.modify self fun c => { c with mqttAsyncHandle := r.handle }
  | create => w.modify self fun c => { c with mqttAsyncHandle := r.handle.or c.mqttAsyncHandle }
  | connect =>
      w.modify self fun c =>
        { c with connectOpts := { c.connectOpts with connectProperties := none } }
  | cleanUp _ => w.modify self fun c => { c with mqttAsyncHandle := r.handle }
  | _ => w

end CallSite

/-- A call from its preparation to its return, with nothing in between. -/
def CallSite.perform (env : Env) (self : ClientId) (body : MethodBody) (w : World)
    (site : CallSite) : World × ℤ :=
  let w := site.prepare env self w body
  let result := w.call env self site.method (site.libCall self w)
  (site.store self result.2 result.1, result.2.rc)

namespace CallSite

variable {env : Env} {self : ClientId} {w : World}

theorem prepare_trace (env : Env) (self : ClientId) (w : World) (site : CallSite)
    (body : MethodBody) : (site.prepare env self w body).trace = w.trace := by
  unfold prepare
  split
  · rfl
  · unfold World.fillConnectOpts
    dsimp only
    split <;> split <;> rfl
  · rfl

theorem store_trace (self : ClientId) (r : Reply) (w : World) (site : CallSite) :
    (site.store self r w).trace = w.trace := by
  cases site <;> rfl

theorem wired_prepare (hw : w.Wired env) (site : CallSite) (body : MethodBody) :
    (site.prepare env self w body).Wired env := by
  unfold prepare
  split
  · exact (((World.Acts.refl self [] hw).set (.username _)).set (.password _)).wired
  · exact (World.does_fillConnectOpts env self w _).wired hw
  · exact hw

theorem wired_store (hw : w.Wired env) (r : Reply) (site : CallSite) :
    (site.store self r w).Wired env := by
  unfold store
  split
  · exact hw.modify_part .handle (fun _ => rfl) fun _ => rfl
  · exact hw.modify_part .handle (fun _ => rfl) fun _ => rfl
  · exact hw.modify_part .attempt (fun _ => rfl) fun _ => rfl
  · exact hw.modify_part .handle (fun _ => rfl) fun _ => rfl
  · exact hw

end CallSite

/-- The library without the callbacks it invokes around a call: these are steps of their own. -/
def Env.windowless (env : Env) : Env :=
  { env with reply := fun t c => { env.reply t c with window := [] } }

abbrev Thread := ℕ

/-- What a thread is executing. -/
inductive Frame where
  | callback (d : Dispatch)
  /-- A callback whose function has given up its context. -/
  | leaving (d : Dispatch)
  | method (client : ClientId) (body : MethodBody) (place : Place)
  /-- A method within a library call, with the reply that the call is going to return. -/
  | calling (client : ClientId) (body : MethodBody) (site : CallSite) (r : Reply)

/-- A thread executes code of the application, be it a delegate's. -/
def inApplication : Option Frame → Bool
  | none => true
  | some (.callback _) => true
  | _ => false

/-- A thread executes code of the library, or nothing. -/
def inLibrary : Option Frame → Bool
  | none => true
  | some (.calling _ _ _ _) => true
  | _ => false

/-- A callback that runs and has a client as its context. -/
def Frame.worksOn (client : ClientId) : Frame → Bool
  | .callback d => d.context = some (.client client)
  | _ => false

structure ThreadedSession where
  world : World
  /-- The references to clients, of the application and of callbacks. -/
  refs : List Reference
  /-- What the threads execute, of each thread the frame entered last first. -/
  frames : List (Thread × Frame)

inductive ThreadedStep where
  | operation (thread : Thread) (client : ClientId) (op : Operation)
  | setSSLOption (ssl : SSLId) (setter : SSLSetter)
  | retain (client : ClientId)
  | release (thread : Thread) (client : ClientId)
  /-- A method goes on, up to its next library call or to its end. -/
  | proceed (thread : Thread)
  /-- A library call of a method returns. -/
  | answer (thread : Thread)
  | enter (thread : Thread) (d : Dispatch)
  /-- The C function of a callback comes to its end. -/
  | finish (thread : Thread)
  | leave (thread : Thread)

instance : LawfulBEq Reference := inferInstance

/-- The body of an operation that makes several library calls. -/
def Operation.body : Operation → Option MethodBody
  | connect username password userProperties => some (.connect username password userProperties)
  | disconnect => some .disconnect
  | _ => none

namespace ThreadedSession

variable (env : Env) (s : ThreadedSession)

/-- A client that can be called: held, or the context of a callback that runs. -/
def InUse (client : ClientId) : Prop :=
  Held s.refs (.client client) ∨ ∃ entry ∈ s.frames, entry.2.worksOn client = true

instance (client : ClientId) : Decidable (s.InUse client) :=
  inferInstanceAs (Decidable (_ ∨ _))

/-- The reference of a callback to its client. One whose `dealloc` has begun is not kept by it. -/
def kept (d : Dispatch) : List Reference :=
  match d.context with
  | some (.client client) =>
    if Held s.refs (.client client) then [(.callback, .client client)] else []
  | _ => []

/-- A reference is dropped on a thread; with the last one to a client its `dealloc` begins. -/
def drop (thread : Thread) (holder : Holder) (client : ClientId) : ThreadedSession :=
  let refs := s.refs.erase (holder, .client client)
  if (holder, .client client) ∈ s.refs ∧ ¬ Held refs (.client client) then
    { world := s.world.emit [.dealloc (.client client)]
      refs := refs
      frames := (thread, .method client .dealloc .entry) :: s.frames }
  else { s with refs := refs }

/-- The end of a callback's function: the reference to its context is dropped. -/
def giveUp (thread : Thread) (d : Dispatch) : ThreadedSession :=
  let s := { s with frames := (thread, .leaving d) :: pop thread s.frames }
  match d.context with
  | some (.client client) => s.drop thread .callback client
  | _ => s

/-- A method goes on from a place. The call it makes is noted with the reply, which takes effect when
the call returns. -/
def goOn (thread : Thread) (client : ClientId) (body : MethodBody) (place : Place) :
    ThreadedSession :=
  match body.next (s.world.clients client).mqttAsyncHandle place with
  | .call site =>
    let w := site.prepare env.windowless client s.world body
    let result := w.call env.windowless client site.method (site.libCall client w)
    { s with
      world := result.1
      frames := (thread, .calling client body site result.2) :: pop thread s.frames }
  | .returns rc =>
    { s with
      world := body.returning client rc s.world
      frames := pop thread s.frames }

def step : ThreadedStep → Option ThreadedSession
  | .operation thread client op =>
    if s.InUse client ∧ inApplication (top thread s.frames) then
      match op.body with
      | some body => some { s with frames := (thread, .method client body .entry) :: s.frames }
      | none => (op.run env.windowless client s.world).map fun w => { s with world := w }
    else none
  | .setSSLOption ssl setter =>
    (s.world.act env.windowless (.setSSLOption ssl setter)).map fun w => { s with world := w }
  | .retain client =>
    if Held s.refs (.client client) then
      some { s with refs := (.app, .client client) :: s.refs }
    else none
  | .release thread client =>
    if (.app, .client client) ∈ s.refs ∧ inApplication (top thread s.frames) then
      some (s.drop thread .app client)
    else none
  | .proceed thread =>
    match top thread s.frames with
    | some (.method client body place) => some (s.goOn env thread client body place)
    | _ => none
  | .answer thread =>
    match top thread s.frames with
    | some (.calling client body site r) => some
        { s with
          world := site.store client r s.world
          frames := (thread, .method client body (.behind site r.rc)) :: pop thread s.frames }
    | _ => none
  | .enter thread d =>
    if inLibrary (top thread s.frames) then
      some
        { world := s.world.enter d
          refs := s.kept d ++ s.refs
          frames := (thread, .callback d) :: s.frames }
    else none
  | .finish thread =>
    match top thread s.frames with
    | some (.callback d) => some (s.giveUp thread d)
    | _ => none
  | .leave thread =>
    match top thread s.frames with
    | some (.leaving d) => some
        { s with
          world := s.world.leave d
          frames := pop thread s.frames }
    | _ => none

/-- New clients, each held by the application, and no thread in the wrapper. -/
def initial (clients : List ClientId) (clientIDs : ClientId → NSString)
    (delegates : ClientId → Option Delegate) : ThreadedSession where
  world := World.initial clientIDs delegates
  refs := clients.map fun client => (.app, .client client)
  frames := []

variable {env s}

/-- What a method does when it goes on: it makes the next library call, or returns. -/
theorem goOn_cases (env : Env) (s : ThreadedSession) (thread : Thread) (client : ClientId)
    (body : MethodBody) (place : Place) :
    (∃ site w r, body.next (s.world.clients client).mqttAsyncHandle place = .call site ∧
        w = site.prepare env.windowless client s.world body ∧
        s.goOn env thread client body place =
          { s with world := w.emit [.call client site.method (site.libCall client w) r]
                   frames := (thread, .calling client body site r) :: pop thread s.frames }) ∨
      ∃ rc, body.next (s.world.clients client).mqttAsyncHandle place = .returns rc ∧
        s.goOn env thread client body place =
          { s with world := body.returning client rc s.world
                   frames := pop thread s.frames } := by
  cases hnext : body.next (s.world.clients client).mqttAsyncHandle place with
  | call site =>
      refine Or.inl ⟨site, _, env.windowless.reply
        (site.prepare env.windowless client s.world body).trace
        (site.libCall client (site.prepare env.windowless client s.world body)), rfl, rfl, ?_⟩
      rw [goOn, hnext]
      rfl
  | returns rc =>
      refine Or.inr ⟨rc, rfl, ?_⟩
      rw [goOn, hnext]

theorem wired_step {s' : ThreadedSession} {e : ThreadedStep} (hs : s.world.Wired env.windowless)
    (h : s.step env e = some s') : s'.world.Wired env.windowless := by
  have hdrop : ∀ (s : ThreadedSession) (thread : Thread) (holder : Holder) (client : ClientId),
      s.world.Wired env.windowless → (s.drop thread holder client).world.Wired env.windowless := by
    intro s thread holder client hs
    unfold drop
    dsimp only
    split_ifs
    · exact hs.emit _
    · exact hs
  cases e with
  | operation thread client op =>
      rw [step] at h
      split_ifs at h
      cases hbody : op.body with
      | some body =>
          rw [hbody] at h
          cases h
          exact hs
      | none =>
          rw [hbody] at h
          obtain ⟨w, hw, rfl⟩ := Option.map_eq_some_iff.1 h
          exact hs.run hw
  | setSSLOption ssl setter =>
      cases h
      exact hs.setSSLOption ssl setter
  | retain client =>
      rw [step] at h
      split_ifs at h
      cases h
      exact hs
  | release thread client =>
      rw [step] at h
      split_ifs at h
      cases h
      exact hdrop s thread .app client hs
  | proceed thread =>
      rw [step] at h
      split at h
      · next client body place htop =>
          cases h
          rcases s.goOn_cases env thread client body place with
            ⟨site, w, r, -, rfl, heq⟩ | ⟨rc, -, heq⟩
          · rw [heq]
            exact World.Wired.emit (site.wired_prepare hs body) _
          · rw [heq]
            cases body <;> first | exact hs | exact hs.emit _
      · cases h
  | answer thread =>
      rw [step] at h
      split at h
      · next client body site r htop =>
          cases h
          exact site.wired_store hs r
      · cases h
  | enter thread d =>
      rw [step] at h
      split_ifs at h
      cases h
      exact hs.emit _
  | finish thread =>
      rw [step] at h
      split at h
      · next d htop =>
          cases h
          unfold giveUp
          dsimp only
          split
          · exact hdrop _ thread .callback _ hs
          · exact hs
      · cases h
  | leave thread =>
      rw [step] at h
      split at h
      · next d htop =>
          cases h
          exact hs.emit _
      · cases h

section Alone

variable {thread : Thread} {refs : List Reference} {below : List (Thread × Frame)}
  {client : ClientId} {body : MethodBody} {place : Place} {w w' : World}

/-- A thread left alone brings its method from a place to the end, and the world `w` to `w'`. -/
def RunsTo (env : Env) (thread : Thread) (refs : List Reference) (below : List (Thread × Frame))
    (client : ClientId) (body : MethodBody) (place : Place) (w w' : World) : Prop :=
  ∃ steps : List ThreadedStep, (∀ e ∈ steps, e = .proceed thread ∨ e = .answer thread) ∧
    runFrom (step env) ⟨w, refs, (thread, .method client body place) :: below⟩ steps =
      some ⟨w', refs, below⟩

theorem runsTo_returns {rc : ℤ}
    (h : body.next (w.clients client).mqttAsyncHandle place = .returns rc) :
    RunsTo env thread refs below client body place w (body.returning client rc w) := by
  refine ⟨[.proceed thread], by simp, ?_⟩
  simp [runFrom_cons, step, goOn, h]

theorem runsTo_call {site : CallSite}
    (h : body.next (w.clients client).mqttAsyncHandle place = .call site)
    (hrest : RunsTo env thread refs below client body
      (.behind site (site.perform env.windowless client body w).2)
      (site.perform env.windowless client body w).1 w') :
    RunsTo env thread refs below client body place w w' := by
  obtain ⟨steps, hthread, hrun⟩ := hrest
  refine ⟨.proceed thread :: .answer thread :: steps, ?_, ?_⟩
  · intro e he
    rcases List.mem_cons.1 he with rfl | he
    · exact Or.inl rfl
    · rcases List.mem_cons.1 he with rfl | he
      · exact Or.inr rfl
      · exact hthread e he
  · rw [← hrun]
    simp [runFrom_cons, step, goOn, h, CallSite.perform]

/-- The failure of a call in a connect, and its success. -/
theorem runsTo_orDestroy {username password : Option NSString}
    {userProperties : Option (NSDictionary PropertyObject)} {site : CallSite} {following : Next}
    {attempt : World × ℤ} {rest : World → World × ℤ}
    (hnext : ∀ handle, (MethodBody.connect username password userProperties).next handle
      (.behind site attempt.2) = .orCleanUp attempt.2 following)
    (hrest : attempt.2 = mqttAsyncSuccess → RunsTo env thread refs below client
      (.connect username password userProperties) (.behind site attempt.2) attempt.1
      (World.returning client .connect (rest attempt.1))) :
    RunsTo env thread refs below client (.connect username password userProperties)
      (.behind site attempt.2) attempt.1
      (World.returning client .connect
        (World.orDestroy env.windowless client attempt rest)) := by
  unfold World.orDestroy
  by_cases hfail : attempt.2 ≠ mqttAsyncSuccess
  · rw [if_pos hfail]
    exact runsTo_call ((hnext _).trans (if_pos hfail)) (runsTo_returns rfl)
  · rw [if_neg hfail]
    exact hrest (not_not.1 hfail)

/-- The part of a connect behind its disconnect. -/
theorem runsTo_connect {username password : Option NSString}
    {userProperties : Option (NSDictionary PropertyObject)}
    (hnext : (MethodBody.connect username password userProperties).next
      (w.clients client).mqttAsyncHandle place = .call .create) :
    RunsTo env thread refs below client (.connect username password userProperties) place w
      (World.returning client .connect
        (World.orDestroy env.windowless client
          (((w.modify client (PahoClient.setUsername username)).modify client
            (PahoClient.setPassword password)).create env.windowless client) fun w =>
        World.orDestroy env.windowless client (w.setConnected env.windowless client) fun w =>
        World.orDestroy env.windowless client (w.setCallbacks env.windowless client) fun w =>
        World.orDestroy env.windowless client (w.sendConnect env.windowless client userProperties)
          fun w => (w, mqttAsyncSuccess))) := by
  refine runsTo_call hnext (runsTo_orDestroy (fun _ => rfl) fun hcreate => ?_)
  refine runsTo_call (if_neg (not_not.2 hcreate)) (runsTo_orDestroy (fun _ => rfl) fun hset => ?_)
  refine runsTo_call (if_neg (not_not.2 hset)) (runsTo_orDestroy (fun _ => rfl) fun hset => ?_)
  refine runsTo_call (if_neg (not_not.2 hset)) (runsTo_orDestroy (fun _ => rfl) fun hsent => ?_)
  exact runsTo_returns (if_neg (not_not.2 hsent))

/-- Every method begins with the disconnect. -/
theorem runsTo_disconnect
    (hrest : ∀ place, body.next ((w.disconnect env.windowless client).clients client).mqttAsyncHandle
        place = body.behindDisconnect →
      RunsTo env thread refs below client body place (w.disconnect env.windowless client) w') :
    RunsTo env thread refs below client body .entry w w' := by
  cases hhandle : (w.clients client).mqttAsyncHandle with
  | none =>
      rw [World.disconnect_of_none hhandle] at hrest
      exact hrest .entry (if_pos hhandle)
  | some handle =>
      have hentry : body.next (w.clients client).mqttAsyncHandle .entry = .call .disconnect :=
        if_neg (by simp [hhandle])
      refine runsTo_call hentry (runsTo_call rfl ?_)
      have hdisconnect : (CallSite.destroy.perform env.windowless client body
          (CallSite.disconnect.perform env.windowless client body w).1).1 =
          w.disconnect env.windowless client := by
        simp only [World.disconnect, hhandle]
        simp only [CallSite.perform, CallSite.prepare, CallSite.libCall, hhandle]
        rfl
      rw [hdisconnect]
      exact hrest (.behind .destroy _) rfl

/-- A method run by a thread that is left alone does what the method does in one piece. -/
theorem operation_alone {s : ThreadedSession} {op : Operation} (hinUse : s.InUse client)
    (hthread : inApplication (top thread s.frames) = true)
    (hrun : op.run env.windowless client s.world = some w) :
    ∃ steps : List ThreadedStep, (∀ e ∈ steps, e = .proceed thread ∨ e = .answer thread) ∧
      runFrom (step env) s (.operation thread client op :: steps) = some { s with world := w } := by
  have hbody : ∀ body, op.body = some body →
      RunsTo env thread s.refs s.frames client body .entry s.world w →
      ∃ steps : List ThreadedStep, (∀ e ∈ steps, e = .proceed thread ∨ e = .answer thread) ∧
        runFrom (step env) s (.operation thread client op :: steps) =
          some { s with world := w } := by
    rintro body hbody ⟨steps, hsteps, hruns⟩
    refine ⟨steps, hsteps, ?_⟩
    rw [runFrom_cons, step, if_pos ⟨hinUse, hthread⟩, hbody]
    exact hruns
  have hone : op.body = none → ∃ steps : List ThreadedStep,
      (∀ e ∈ steps, e = .proceed thread ∨ e = .answer thread) ∧
      runFrom (step env) s (.operation thread client op :: steps) =
        some { s with world := w } := by
    intro hnone
    refine ⟨[], by simp, ?_⟩
    rw [runFrom_cons, step, if_pos ⟨hinUse, hthread⟩, hnone]
    simp [hrun]
  cases op with
  | connect username password userProperties =>
      cases hrun
      exact hbody _ rfl (runsTo_disconnect fun place hplace => runsTo_connect hplace)
  | disconnect =>
      cases hrun
      exact hbody _ rfl (runsTo_disconnect fun place hplace => runsTo_returns hplace)
  | _ => exact hone rfl

/-- So does a `dealloc`. -/
theorem drop_alone {s : ThreadedSession} {holder : Holder}
    (hmem : (holder, .client client) ∈ s.refs)
    (hlast : ¬ Held (s.refs.erase (holder, .client client)) (.client client)) :
    ∃ steps : List ThreadedStep, (∀ e ∈ steps, e = .proceed thread ∨ e = .answer thread) ∧
      runFrom (step env) (s.drop thread holder client) steps =
        some { s with world := s.world.deallocClient env.windowless client
                      refs := s.refs.erase (holder, .client client) } := by
  rw [drop, if_pos ⟨hmem, hlast⟩]
  exact runsTo_disconnect fun place hplace => runsTo_returns hplace

end Alone

end ThreadedSession

end CocoaPaho
