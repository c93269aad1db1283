import CocoaPaho.Base.References
import CocoaPaho.HandleLifecycle

/-!
Sessions: the clients with the references that keep them alive, and the callbacks that are running.
The application holds references, a client holds its options object, and a callback holds its context
as long as it runs; what is handed to the library is no reference. With the last reference an object
goes: a client is deallocated, which disconnects it, and then lets go of its options object. Within a
callback the delegate may do whatever the application may.
-/

namespace CocoaPaho

open Base

inductive Holder where
  | app
  | client (client : ClientId)
  | callback
  deriving DecidableEq

abbrev Reference := Holder × Obj

/-- The reference an object owns: a client that to its options object. -/
def World.owned (w : World) : Obj → Option Reference
  | .client client => (w.clients client).ssl.map fun ssl => (.client client, .ssl ssl)
  | _ => none

theorem World.owner_of_owned (w : World) {object object' : Obj} {client : ClientId}
    (h : w.owned object = some (.client client, object')) : object = .client client := by
  cases object with
  | client client' =>
      obtain ⟨ssl', -, heq⟩ := Option.map_eq_some_iff.1 h
      cases heq
      rfl
  | _ => cases h

/-- `dealloc` of an object. -/
def World.dealloc (env : Env) (w : World) : Obj → World
  | .client client => w.deallocClient env client
  | object => w.emit [.dealloc object]

structure Session where
  world : World
  refs : List Reference
  /-- The callbacks that run, the one entered last first. -/
  frames : List Dispatch

inductive SessionStep where
  | operation (client : ClientId) (op : Operation)
  | setSSLOption (ssl : SSLId) (setter : SSLSetter)
  /-- The application takes another reference to an object. -/
  | retain (object : Obj)
  /-- The application drops a reference. -/
  | release (object : Obj)
  | enter (d : Dispatch)
  /-- A running callback, by its place, comes to its end. -/
  | leave (frame : ℕ)

namespace Session

variable (env : Env) (s : Session)

/-- Objects that are used are held, and a reference that is dropped is there. -/
def Enabled : SessionStep → Prop
  | .operation client (.setSSL ssl) =>
      Held s.refs (.client client) ∧ ∀ j ∈ ssl, Held s.refs (.ssl j)
  | .operation client _ => Held s.refs (.client client)
  | .setSSLOption ssl _ => Held s.refs (.ssl ssl)
  | .retain object => Held s.refs object
  | .release object => (.app, object) ∈ s.refs
  | .enter _ => True
  | .leave frame => frame < s.frames.length

instance (e : SessionStep) : Decidable (s.Enabled e) := by
  unfold Enabled
  split <;> infer_instance

/-- What a step does to the world before it drops a reference. -/
def effect : SessionStep → Option World
  | .operation client op => op.run env client s.world
  | .setSSLOption ssl setter => s.world.act env (.setSSLOption ssl setter)
  | .enter d => some (s.world.enter d)
  | _ => some s.world

/-- The references a step takes. -/
def taken : SessionStep → List Reference
  | .operation client (.setSSL ssl) =>
      (ssl.map fun ssl => (Holder.client client, Obj.ssl ssl)).toList
  | .retain object => [(.app, object)]
  | .enter d => (d.context.map fun object => (Holder.callback, object)).toList
  | _ => []

/-- The reference a step gives up. -/
def given : SessionStep → Option Reference
  | .operation client (.setSSL _) =>
      (s.world.clients client).ssl.map fun ssl => (Holder.client client, Obj.ssl ssl)
  | .release object => some (.app, object)
  | .leave frame =>
      (s.frames[frame]?.bind Dispatch.context).map fun object => (Holder.callback, object)
  | _ => none

/-- The references after a step, and the objects gone with the one it gives up. The setter of the
options object takes the new reference before it drops the old one. -/
def dropped (e : SessionStep) : List Reference × List Obj :=
  match s.given e with
  | none => (taken e ++ s.refs, [])
  | some r => drop s.world.owned (taken e ++ s.refs) r

def gone (e : SessionStep) : List Obj := (s.dropped e).2

/-- The end of a callback, after its reference has been dropped. -/
def finish (w : World) : SessionStep → World
  | .leave frame => (s.frames[frame]?.map fun d => w.leave d).getD w
  | _ => w

def framesAfter : SessionStep → List Dispatch
  | .enter d => d :: s.frames
  | .leave frame => s.frames.eraseIdx frame
  | _ => s.frames

def step (e : SessionStep) : Option Session :=
  if s.Enabled e then
    (s.effect env e).map fun w =>
      { world := s.finish ((s.gone e).foldl (World.dealloc env) w) e
        refs := (s.dropped e).1
        frames := s.framesAfter e }
  else none

/-- New objects, each held by the application. -/
def initial (objects : List Obj) (clientIDs : ClientId → NSString)
    (delegates : ClientId → Option Delegate) : Session where
  world := World.initial clientIDs delegates
  refs := objects.map fun object => (.app, object)
  frames := []

end Session

namespace Session

variable {env : Env} {s s' : Session} {e : SessionStep}

theorem step_eq_some (h : s.step env e = some s') :
    s.Enabled e ∧ ∃ w, s.effect env e = some w ∧
      s'.world = s.finish ((s.gone e).foldl (World.dealloc env) w) e ∧
      s'.refs = (s.dropped e).1 ∧ s'.frames = s.framesAfter e := by
  rw [step] at h
  split_ifs at h with henabled
  obtain ⟨w, hw, rfl⟩ := Option.map_eq_some_iff.1 h
  exact ⟨henabled, w, hw, rfl, rfl, rfl⟩

/-- The end of a callback leaves one of the callbacks that run; nothing else does. -/
theorem finish_cases (s : Session) (w : World) (e : SessionStep) :
    s.finish w e = w ∨ ∃ d ∈ s.frames, s.finish w e = w.leave d := by
  cases e with
  | leave frame =>
      cases hframe : s.frames[frame]? with
      | none => exact Or.inl (by rw [finish, hframe]; rfl)
      | some d => exact Or.inr ⟨d, List.mem_of_getElem? hframe, by rw [finish, hframe]; rfl⟩
  | _ => exact Or.inl rfl

theorem finish_clients (s : Session) (w : World) (e : SessionStep) :
    (s.finish w e).clients = w.clients := by
  rcases s.finish_cases w e with heq | ⟨d, -, heq⟩ <;> rw [heq]
  rfl

/-- A property of worlds that the parts of a step keep. -/
theorem step_invariant {J : World → Prop} (h : s.step env e = some s')
    (heffect : ∀ w, s.effect env e = some w → J w)
    (hdealloc : ∀ w object, object ∈ s.gone e → J w → J (w.dealloc env object))
    (hleave : ∀ w d, J w → J (w.leave d)) : J s'.world := by
  obtain ⟨-, w, hw, hworld, -, -⟩ := step_eq_some h
  have hfold : ∀ (objects : List Obj), objects ⊆ s.gone e → ∀ v, J v →
      J (objects.foldl (World.dealloc env) v) := by
    intro objects
    induction objects with
    | nil => exact fun _ v hv => hv
    | cons object objects ih =>
        intro hsub v hv
        exact ih (fun _ ho => hsub (List.mem_cons_of_mem _ ho)) _
          (hdealloc v object (hsub (List.mem_cons_self ..)) hv)
  have hgone := hfold _ (List.Subset.refl _) w (heffect w hw)
  rw [hworld]
  rcases s.finish_cases ((s.gone e).foldl (World.dealloc env) w) e with heq | ⟨d, -, heq⟩
  · rwa [heq]
  · rw [heq]
    exact hleave _ d hgone

/-- The objects gone in a step: none, one, or a client with its options object. -/
theorem gone_cases (s : Session) (e : SessionStep) :
    s.gone e = [] ∨ (∃ object, s.gone e = [object]) ∨
      ∃ client ssl, s.gone e = [.client client, .ssl ssl] := by
  have hdrop : ∀ (refs : List Reference) (r : Reference),
      (drop s.world.owned refs r).2 = [] ∨ (∃ object, (drop s.world.owned refs r).2 = [object]) ∨
        ∃ client ssl, (drop s.world.owned refs r).2 = [.client client, .ssl ssl] := by
    intro refs r
    rcases drop_cases s.world.owned refs r with ⟨-, heq⟩ | ⟨-, -, heq⟩ | ⟨r', -, howned, heq⟩
    · exact Or.inl (by rw [heq])
    · exact Or.inr (Or.inl ⟨_, by rw [heq]⟩)
    · rw [heq, dropOne]
      dsimp only
      split_ifs
      · exact Or.inr (Or.inl ⟨_, rfl⟩)
      · cases hobject : r.2 with
        | client client =>
            rw [hobject, World.owned] at howned
            obtain ⟨ssl, -, rfl⟩ := Option.map_eq_some_iff.1 howned
            exact Or.inr (Or.inr ⟨client, ssl, rfl⟩)
        | _ =>
            rw [hobject] at howned
            cases howned
  unfold gone dropped
  split
  · exact Or.inl rfl
  · exact hdrop _ _

theorem wired_dealloc {w : World} (hw : w.Wired env) (object : Obj) :
    (w.dealloc env object).Wired env := by
  cases object with
  | client client => exact (World.acts_disconnect (hw.emit [.dealloc (.client client)])).wired
  | _ => exact hw.emit _

theorem wired_effect (hs : s.world.Wired env) {w : World} (hw : s.effect env e = some w) :
    w.Wired env := by
  cases e with
  | operation client op => exact hs.run hw
  | setSSLOption ssl setter =>
      cases hw
      exact hs.setSSLOption ssl setter
  | enter d =>
      cases hw
      exact hs.emit _
  | _ =>
      cases hw
      exact hs

theorem wired_step (hs : s.world.Wired env) (h : s.step env e = some s') : s'.world.Wired env :=
  step_invariant h (fun _ hw => wired_effect hs hw) (fun _ object _ hw => wired_dealloc hw object)
    fun _ _ hw => hw.emit _

theorem trace_isPrefix_step (hs : s.world.Wired env) (h : s.step env e = some s') :
    s.world.trace <+: s'.world.trace := by
  refine step_invariant (J := fun w => s.world.trace <+: w.trace) h (fun w hw => ?_)
    (fun w object _ hw => hw.trans ?_) fun w d hw => hw.trans (List.prefix_append _ _)
  · cases e with
    | operation client op =>
        rcases World.run_cases hs hw with ⟨method, result, -, hacts, rfl⟩ | ⟨-, hacts⟩ |
          ⟨ssl, -, rfl⟩
        · exact hacts.grows.isPrefix.trans (List.prefix_append _ _)
        · exact hacts.grows.isPrefix
        · exact List.prefix_rfl
    | enter d =>
        cases hw
        exact List.prefix_append _ _
    | _ =>
        cases hw
        exact List.prefix_rfl
  · cases object with
    | client client =>
        rw [World.dealloc, World.deallocClient]
        cases hhandle : ((w.emit [.dealloc (.client client)]).clients client).mqttAsyncHandle with
        | none =>
            rw [World.disconnect_of_none hhandle]
            exact List.prefix_append _ _
        | some h =>
            rw [World.disconnect_trace hhandle, World.emit_trace, List.append_assoc,
              List.append_assoc]
            exact List.prefix_append _ _
    | _ => exact List.prefix_append _ _

/-- An invariant of steps after which the history is as assumed holds after a run with such a
history. -/
theorem run_invariant_of_atEach {I : Session → Prop} {Q : List Event → Event → Prop}
    (hstep : ∀ s e s', I s → s.world.Wired env → s.step env e = some s' →
      AtEach Q s'.world.trace → I s')
    {steps : List SessionStep} {s s' : Session} (hwired : s.world.Wired env) (hs : I s)
    (hrun : runFrom (Session.step env) s steps = some s') (hQ : AtEach Q s'.world.trace) : I s' := by
  have hfinal := runFrom_invariant
    (I := fun s : Session => s.world.Wired env ∧ (AtEach Q s.world.trace → I s))
    (fun s e s' hs h => ?_) ⟨hwired, fun _ => hs⟩ hrun
  · exact hfinal.2 hQ
  · refine ⟨wired_step hs.1 h, fun hQ' => hstep s e s' (hs.2 ?_) hs.1 h hQ'⟩
    obtain ⟨events, hevents⟩ := trace_isPrefix_step hs.1 h
    rw [← hevents] at hQ'
    exact ((atEach_append _ _ _).1 hQ').1

/-- The disconnects of the clients among the objects gone, each with the history it finds. -/
def farewells (s : Session) (objects : List Obj) : List (ClientId × List Event) :=
  objects.filterMap fun
    | .client client => some (client, s.world.trace ++ [.dealloc (.client client)])
    | _ => none

/-- The disconnects a step begins with or ends in, each with the history it finds: that of an
explicit disconnect, of a connect, and of the `dealloc` of a client. -/
def teardowns (s : Session) : SessionStep → List (ClientId × List Event)
  | .operation client (.connect _ _ _) => [(client, s.world.trace)]
  | .operation client .disconnect => [(client, s.world.trace)]
  | e => s.farewells (s.gone e)

/-- A condition on the disconnects of clients that have a handle. -/
def TornDown (s : Session) (e : SessionStep) (D : ClientId → Handle → List Event → Prop) : Prop :=
  ∀ p ∈ s.teardowns e, ∀ h, (s.world.clients p.1).mqttAsyncHandle = some h → D p.1 h p.2

end Session

def SessionStep.Connects (e : SessionStep) : Prop :=
  ∃ client username password userProperties,
    e = .operation client (.connect username password userProperties)

/-- Events of the wrapper's own that are in no body. -/
inductive Event.Mark : Event → Prop where
  | returned (client : ClientId) (method : Method) (rc : ℤ) : Mark (.returned client method rc)
  | dealloc (object : Obj) : Mark (.dealloc object)

theorem Event.Mark.isCall {e : Event} (he : e.Mark) : e.isCall = false := by
  cases he <;> rfl

/-- The bodies of methods add no marks. -/
theorem World.Grows.unmarked {env : Env} {w : World} {self : ClientId} {methods : List Method}
    {t u : List Event} (h : w.Grows env self methods t u) :
    ∃ v, u = t ++ v ∧ ∀ e ∈ v, ¬ e.Mark := by
  refine h.invariant (J := fun u => ∃ v, u = t ++ v ∧ ∀ e ∈ v, ¬ e.Mark)
    ⟨[], (List.append_nil t).symm, by simp⟩ ?_ ?_
  · rintro _ method c ⟨v, rfl, hv⟩ - -
    refine ⟨v ++ _, List.append_assoc _ _ _, fun e he hmark => ?_⟩
    rcases List.mem_append.1 he with he | he
    · exact hv e he hmark
    · rcases List.mem_cons.1 he with rfl | he
      · cases hmark
      · obtain ⟨d, -, rfl | rfl⟩ := World.mem_window he <;> cases hmark
  · rintro _ e ⟨v, rfl, hv⟩ he
    refine ⟨v ++ [e], List.append_assoc _ _ _, fun e' he' hmark => ?_⟩
    rcases List.mem_append.1 he' with he' | he'
    · exact hv e' he' hmark
    · rw [List.mem_singleton.1 he'] at hmark
      cases he <;> cases hmark

/-- What the parts of a step do to a property `P` of histories, given another one `F`, which they
keep: bodies of requests and marks leave it alone, a disconnect keeps it under the condition `D`, and
the rest of a connect under the condition `C`. -/
structure TraceRule (env : Env) (F P : List Event → Prop)
    (D : ClientId → Handle → List Event → Prop) (C : Prop) : Prop where
  requests : ∀ {w : World} {i : ClientId} {methods : List Method} {t u : List Event},
    (∀ m ∈ methods, m.kinds = [.request]) → w.Grows env i methods t u → F t →
      F u ∧ (P u ↔ P t)
  mark : ∀ {t : List Event} {e : Event}, e.Mark → F t → F (t ++ [e]) ∧ (P (t ++ [e]) ↔ P t)
  disconnect : ∀ {w : World} {i : ClientId} {h : Handle},
    (w.clients i).mqttAsyncHandle = some h → F w.trace →
      F (w.disconnect env i).trace ∧ (P (w.disconnect env i).trace ↔ P w.trace ∧ D i h w.trace)
  connect : ∀ {w w' : World} {i : ClientId}, w.Wired env →
    World.Acts env i [.connect] (w.create env i).1 w' → F w.trace →
      F w'.trace ∧ (P w'.trace ↔ P w.trace ∧ C)

namespace TraceRule

variable {env : Env} {F P : List Event → Prop} {D : ClientId → Handle → List Event → Prop}
  {C : Prop} {s : Session} {e : SessionStep} {w w' : World} {self : ClientId}

theorem teardown (rule : TraceRule env F P D C) (self : ClientId) (hF : F w.trace) :
    F (w.disconnect env self).trace ∧
      (P (w.disconnect env self).trace ↔
        P w.trace ∧ ∀ h, (w.clients self).mqttAsyncHandle = some h → D self h w.trace) := by
  cases hhandle : (w.clients self).mqttAsyncHandle with
  | none => simp [World.disconnect_of_none hhandle, hF]
  | some h => simpa using rule.disconnect hhandle hF

theorem connectWithUsername (rule : TraceRule env F P D C) (self : ClientId)
    (hwired : w.Wired env) (hF : F w.trace) (username password : Option NSString)
    (userProperties : Option (NSDictionary PropertyObject)) :
    F (w.connectWithUsername env self username password userProperties).1.trace ∧
      (P (w.connectWithUsername env self username password userProperties).1.trace ↔
        (P w.trace ∧ ∀ h, (w.clients self).mqttAsyncHandle = some h → D self h w.trace) ∧ C) := by
  have hdisconnect := rule.teardown self hF
  have hacts : World.Acts env self [.connect] _
      (w.connectWithUsername env self username password userProperties).1 :=
    World.acts_connect hwired username password userProperties
  have hconnect := rule.connect (World.acts_prepare hwired username password).wired hacts
    hdisconnect.1
  exact ⟨hconnect.1, hconnect.2.trans (and_congr_left' hdisconnect.2)⟩

/-- An operation, up to the references it drops. -/
theorem operation (rule : TraceRule env F P D C) (hwired : s.world.Wired env)
    (hF : F s.world.trace) {op : Operation} (h : op.run env self s.world = some w) :
    F w.trace ∧ (P w.trace ↔
      (P s.world.trace ∧
        (op.method = some .connect ∨ op.method = some .disconnect →
          ∀ h, (s.world.clients self).mqttAsyncHandle = some h → D self h s.world.trace)) ∧
      (op.method = some .connect → C)) := by
  rcases operation_cases h with ⟨username, password, userProperties, rfl, rfl⟩ | ⟨rfl, rfl⟩ |
    ⟨hconnect, hdisconnect, -⟩
  · have hbody := rule.connectWithUsername self hwired hF username password userProperties
    have hreturn := rule.mark (.returned self .connect (s.world.connectWithUsername env self
      username password userProperties).2) hbody.1
    refine ⟨hreturn.1, hreturn.2.trans (hbody.2.trans ?_)⟩
    simp [Operation.method]
  · have hbody := rule.teardown self hF
    have hreturn := rule.mark (.returned self .disconnect 0) hbody.1
    refine ⟨hreturn.1, hreturn.2.trans (hbody.2.trans ?_)⟩
    simp [Operation.method]
  · simp only [hconnect, hdisconnect, false_or, false_implies, and_true]
    rcases World.run_cases hwired h with ⟨method, result, hmethod, hacts, rfl⟩ | ⟨-, hacts⟩ |
      ⟨ssl, rfl, rfl⟩
    · have hkinds : ∀ m ∈ method.bodies, m.kinds = [.request] := by
        rw [hmethod] at hconnect hdisconnect
        cases method <;> simp [Method.bodies, Method.kinds] at hconnect hdisconnect ⊢
      have hbody := rule.requests hkinds hacts.grows hF
      have hreturn := rule.mark (.returned self method result.2) hbody.1
      exact ⟨hreturn.1, hreturn.2.trans hbody.2⟩
    · exact rule.requests (by simp) hacts.grows hF
    · exact ⟨hF, Iff.rfl⟩

theorem deallocClient (rule : TraceRule env F P D C) (self : ClientId) (hF : F w.trace) :
    F (w.deallocClient env self).trace ∧
      (P (w.deallocClient env self).trace ↔ P w.trace ∧
        ∀ h, (w.clients self).mqttAsyncHandle = some h →
          D self h (w.trace ++ [.dealloc (.client self)])) := by
  have hmark := rule.mark (.dealloc (.client self)) hF
  have hbody : F (w.deallocClient env self).trace ∧ (P (w.deallocClient env self).trace ↔
      P (w.trace ++ [.dealloc (.client self)]) ∧
        ∀ h, (w.clients self).mqttAsyncHandle = some h →
          D self h (w.trace ++ [.dealloc (.client self)])) := rule.teardown self hmark.1
  exact ⟨hbody.1, hbody.2.trans (and_congr_left' hmark.2)⟩

/-- The objects gone with the references a step drops. -/
theorem gone (rule : TraceRule env F P D C) (hF : F w.trace) (htrace : w.trace = s.world.trace)
    (hhandle : ∀ i, (w.clients i).mqttAsyncHandle = (s.world.clients i).mqttAsyncHandle) :
    F ((s.gone e).foldl (World.dealloc env) w).trace ∧
      (P ((s.gone e).foldl (World.dealloc env) w).trace ↔ P w.trace ∧
        ∀ p ∈ s.farewells (s.gone e), ∀ h, (s.world.clients p.1).mqttAsyncHandle = some h →
          D p.1 h p.2) := by
  have hobject : ∀ (v : World) (object : Obj), F v.trace → (∀ i, object ≠ .client i) →
      F (v.dealloc env object).trace ∧ (P (v.dealloc env object).trace ↔ P v.trace) := by
    intro v object hv hne
    cases object with
    | client i => exact absurd rfl (hne i)
    | _ => exact rule.mark (.dealloc _) hv
  rcases s.gone_cases e with hgone | ⟨object, hgone⟩ | ⟨i, ssl, hgone⟩
  · simp [hgone, Session.farewells, hF]
  · rw [hgone, List.foldl_cons, List.foldl_nil]
    cases object with
    | client i =>
        have hclient := rule.deallocClient i hF
        rw [hhandle, htrace] at hclient
        simpa [Session.farewells, htrace, World.dealloc] using hclient
    | _ => simpa [Session.farewells] using hobject w _ hF fun i h => by cases h
  · rw [hgone, List.foldl_cons, List.foldl_cons, List.foldl_nil]
    have hclient := rule.deallocClient i hF
    have hssl := hobject _ (.ssl ssl) hclient.1 fun i h => by cases h
    rw [hclient.2, hhandle, htrace] at hssl
    simpa [Session.farewells, htrace, World.dealloc] using hssl

/-- **A step**, other than into a callback, up to the end of a callback. -/
theorem step (rule : TraceRule env F P D C) (hwired : s.world.Wired env) (hF : F s.world.trace)
    (henter : ∀ d, e ≠ .enter d) (hw : s.effect env e = some w) :
    F ((s.gone e).foldl (World.dealloc env) w).trace ∧
      (P ((s.gone e).foldl (World.dealloc env) w).trace ↔
        (P s.world.trace ∧ s.TornDown e D) ∧ (e.Connects → C)) := by
  have hquiet : ¬ e.Connects → w.trace = s.world.trace →
      (∀ i, (w.clients i).mqttAsyncHandle = (s.world.clients i).mqttAsyncHandle) →
      s.teardowns e = s.farewells (s.gone e) →
      F ((s.gone e).foldl (World.dealloc env) w).trace ∧
        (P ((s.gone e).foldl (World.dealloc env) w).trace ↔
          (P s.world.trace ∧ s.TornDown e D) ∧ (e.Connects → C)) := by
    intro hno htrace hhandle hteardowns
    have hgone := rule.gone (e := e) (htrace ▸ hF) htrace hhandle
    rw [Session.TornDown, hteardowns]
    refine ⟨hgone.1, hgone.2.trans ?_⟩
    rw [htrace]
    exact (and_iff_left fun h => absurd h hno).symm
  cases e with
  | enter d => exact absurd rfl (henter d)
  | operation client op =>
      by_cases hssl : ∃ ssl, op = .setSSL ssl
      · obtain ⟨ssl, rfl⟩ := hssl
        cases hw
        exact hquiet (by rintro ⟨_, _, _, _, h⟩; cases h) rfl
          (modify_handle s.world client (by exact fun _ => rfl)) rfl
      · have hbody := rule.operation hwired hF hw
        have hgone : s.gone (.operation client op) = [] := by
          cases op <;> first | rfl | exact absurd ⟨_, rfl⟩ hssl
        rw [hgone]
        refine ⟨hbody.1, hbody.2.trans (and_congr (and_congr_right fun _ => ?_) ?_)⟩
        · rw [Session.TornDown]
          cases op <;> simp [Session.teardowns, Operation.method, hgone, Session.farewells]
        · cases op <;> simp [SessionStep.Connects, Operation.method]
  | _ =>
      cases hw
      exact hquiet (by rintro ⟨_, _, _, _, h⟩; cases h) rfl (fun _ => rfl) rfl

end TraceRule

end CocoaPaho
