import CocoaPaho.ClientSession

/-!
The contexts of callbacks. The contexts handed to the library are no references, so nothing keeps a
client or an options object alive for a callback that is registered for it. The library invokes a
callback at any time after it was registered and before the handle of its registration is destroyed;
its context is alive then if no object goes while it is in use: a client that has a handle, or an
object registered on the handle of a client.
-/

namespace CocoaPaho

open Base

/-- The object was made by the application, and its `dealloc` has not begun. -/
def Alive (objects : List Obj) (t : List Event) (object : Obj) : Prop :=
  object ∈ objects ∧ .dealloc object ∉ t

def Destroyed (t : List Event) (h : Handle) : Prop :=
  ∃ client method r, .call client method (.destroy (some h)) r ∈ t

/-- The call registers callbacks on a handle with the object as context. -/
def LibCall.Registers (c : LibCall) (h : Handle) (object : Obj) : Prop :=
  c.handle = some h ∧ ∃ fn, (some object, fn) ∈ c.registered

/-- What is assumed of the library: a callback that it invokes was registered, with its context, and
the handle has not been destroyed. -/
def LiveEnter (past : List Event) (e : Event) : Prop :=
  ∀ d result, e = .enter d result → ∃ client method c r h,
    past[d.source]? = some (.call client method c r) ∧ c.handle = some h ∧
      (d.context, d.invocation.fn) ∈ c.registered ∧ ¬ Destroyed past h

/-- The context of a callback is an object that is alive. -/
def ContextAlive (objects : List Obj) (past : List Event) (e : Event) : Prop :=
  ∀ d result, e = .enter d result → ∃ object, d.context = some object ∧ Alive objects past object

/-- A call registers objects that are alive. -/
def RegistersAlive (objects : List Obj) (past : List Event) (e : Event) : Prop :=
  ∀ client method c r, e = .call client method c r →
    ∀ p ∈ c.registered, ∃ object, p.1 = some object ∧ Alive objects past object

/-- When an object goes, the handles it is registered on have been destroyed. -/
def DeallocsUnused (past : List Event) (e : Event) : Prop :=
  ∀ object, e = .dealloc object → ∀ client method c r h,
    .call client method c r ∈ past → c.Registers h object → Destroyed past h

/-- A history in which no object goes that a callback may still be given. -/
structure Contexts (objects : List Obj) (t : List Event) : Prop where
  registers : AtEach (RegistersAlive objects) t
  deallocs : AtEach DeallocsUnused t

/-- An object that a callback may be given: a client that has a handle, or an object registered on
the handle of a client. -/
def World.InUse (w : World) (object : Obj) : Prop :=
  ∃ client h, (w.clients client).mqttAsyncHandle = some h ∧
    (object = .client client ∨ ∃ method c r, .call client method c r ∈ w.trace ∧
      c.Registers h object)

/-- No object that is in use loses its last reference. -/
def Session.Careful (s : Session) (e : SessionStep) : Prop :=
  ∀ object ∈ s.gone e, ¬ s.world.InUse object

variable {env : Env} {objects : List Obj} {w : World} {t u : List Event} {object : Obj}

theorem Destroyed.append {h : Handle} (hd : Destroyed t h) (u : List Event) :
    Destroyed (t ++ u) h := by
  obtain ⟨client, method, r, hmem⟩ := hd
  exact ⟨client, method, r, List.mem_append_left _ hmem⟩

/-- **In a history where objects are registered alive and go unused**, the context of a callback of a
live handle is alive. -/
theorem Contexts.alive (ht : Contexts objects t) {e : Event} (hlive : LiveEnter t e) :
    ContextAlive objects t e := by
  intro d result heq
  obtain ⟨client, method, c, r, h, hget, hhandle, hmem, hnot⟩ := hlive d result heq
  obtain ⟨hlt, hget⟩ := List.getElem?_eq_some_iff.1 hget
  have hsplit : t = t.take d.source ++ .call client method c r :: t.drop (d.source + 1) := by
    rw [← hget, ← List.drop_eq_getElem_cons hlt, List.take_append_drop]
  obtain ⟨object, hobject, hmade, halive⟩ :=
    ht.registers _ _ _ hsplit client method c r rfl _ hmem
  refine ⟨object, hobject, hmade, fun hgone => hnot ?_⟩
  -- the object goes after the registration, which needs the handle destroyed
  rw [hsplit, List.mem_append, List.mem_cons] at hgone
  rcases hgone with hgone | hgone | hgone
  · exact absurd hgone halive
  · cases hgone
  · obtain ⟨middle, future, hfuture⟩ := List.append_of_mem hgone
    rw [hfuture, ← List.cons_append, ← List.append_assoc] at hsplit
    have hunused := ht.deallocs _ _ _ hsplit object rfl client method c r h (by simp)
      ⟨hhandle, d.invocation.fn, hobject ▸ hmem⟩
    rw [hsplit]
    exact hunused.append _

theorem Contexts.of_append (ht : Contexts objects (t ++ u)) : Contexts objects t :=
  ⟨((atEach_append _ _ _).1 ht.registers).1, ((atEach_append _ _ _).1 ht.deallocs).1⟩

/-- Every callback of such a history, if the library does as assumed. -/
theorem Contexts.atEach (ht : Contexts objects t) (hlive : AtEach LiveEnter t) :
    AtEach (ContextAlive objects) t := by
  intro past e future heq
  rw [heq] at ht
  exact ht.of_append.alive (hlive past e future heq)

/-- Events that are neither calls nor the `dealloc` of an object. -/
def Event.Inert (e : Event) : Prop := e.isCall = false ∧ ∀ object, e ≠ .dealloc object

theorem Contexts.inert (ht : Contexts objects t) (hu : ∀ e ∈ u, e.Inert) :
    Contexts objects (t ++ u) := by
  constructor
  · refine (atEach_append _ _ _).2 ⟨ht.registers, atEach_of_forall_mem ?_⟩
    intro e he past client method c r heq
    have hcall := (hu e he).1
    rw [heq] at hcall
    cases hcall
  · refine (atEach_append _ _ _).2 ⟨ht.deallocs, atEach_of_forall_mem ?_⟩
    exact fun e he past object heq => absurd heq ((hu e he).2 object)

theorem alive_append :
    Alive objects (t ++ u) object ↔ Alive objects t object ∧ .dealloc object ∉ u := by
  rw [Alive, Alive, List.mem_append, not_or, and_assoc]

theorem alive_inert (hu : ∀ e ∈ u, e.Inert) :
    Alive objects (t ++ u) object ↔ Alive objects t object :=
  alive_append.trans (and_iff_left fun hmem => (hu _ hmem).2 object rfl)

theorem inert_window (w : World) (r : Reply) : ∀ e ∈ r.window.flatMap w.dispatch, e.Inert := by
  intro e he
  refine ⟨isCall_window w r e he, fun object heq => ?_⟩
  obtain ⟨d, -, rfl | rfl⟩ := World.mem_window he <;> cases heq

theorem Contexts.call (ht : Contexts objects t) {client : ClientId} {method : Method} {c : LibCall}
    (hc : ∀ p ∈ c.registered, ∃ object, p.1 = some object ∧ Alive objects t object) :
    Contexts objects (t ++ w.answer env client method c t) := by
  rw [World.answer, List.append_cons]
  refine Contexts.inert ⟨?_, ?_⟩ (inert_window w _)
  · rw [atEach_append, atEach_singleton, List.append_nil]
    refine ⟨ht.registers, fun client' method' c' r heq => ?_⟩
    cases heq
    exact hc
  · rw [atEach_append, atEach_singleton]
    exact ⟨ht.deallocs, fun object heq => by cases heq⟩

theorem Contexts.dealloc (ht : Contexts objects t)
    (hunused : ∀ client method c r h, .call client method c r ∈ t → c.Registers h object →
      Destroyed t h) : Contexts objects (t ++ [.dealloc object]) := by
  constructor
  · rw [atEach_append, atEach_singleton]
    exact ⟨ht.registers, fun client method c r heq => by cases heq⟩
  · rw [atEach_append, atEach_singleton, List.append_nil]
    refine ⟨ht.deallocs, fun object' heq => ?_⟩
    cases heq
    exact hunused

/-- Several objects go, of which none is registered on a live handle. -/
theorem Contexts.deallocAll (ht : Contexts objects t) {gone : List Obj}
    (hunused : ∀ object ∈ gone, ∀ client method c r h, .call client method c r ∈ t →
      c.Registers h object → Destroyed t h) : Contexts objects (t ++ gone.map .dealloc) := by
  induction gone generalizing t with
  | nil => simpa using ht
  | cons object gone ih =>
      rw [List.map_cons, List.append_cons]
      refine ih (ht.dealloc (hunused object (List.mem_cons_self ..))) ?_
      intro object' hmem client method c r h hcall hregisters
      rcases List.mem_append.1 hcall with hcall | hcall
      · exact (hunused object' (List.mem_cons_of_mem _ hmem) _ _ _ _ _ hcall hregisters).append _
      · simp at hcall

/-- The bodies of methods of a client that is alive, with its options object. -/
theorem Contexts.grows (ht : Contexts objects t) {client : ClientId} {methods : List Method}
    (hgrows : w.Grows env client methods t u) (hclient : Alive objects t (.client client))
    (hssl : ∀ ssl, (w.clients client).ssl = some ssl → Alive objects t (.ssl ssl)) :
    Contexts objects u ∧ ∀ object, Alive objects u object ↔ Alive objects t object := by
  refine hgrows.invariant (J := fun u => Contexts objects u ∧
    ∀ object, Alive objects u object ↔ Alive objects t object) ⟨ht, fun _ => Iff.rfl⟩ ?_ ?_
  · intro v method c hv _ hmade
    refine ⟨hv.1.call fun p hp => ?_, fun object => ?_⟩
    · rcases hmade.registered p hp with ⟨hcontext, -⟩ | ⟨ssl, hown, hcontext, -⟩
      · exact ⟨_, hcontext, (hv.2 _).2 hclient⟩
      · exact ⟨_, hcontext, (hv.2 _).2 (hssl ssl hown)⟩
    · rw [World.answer, List.append_cons, alive_inert (inert_window w _), alive_append, hv.2]
      exact and_iff_left (by simp)
  · intro v e hv he
    have hinert : ∀ e' ∈ [e], e'.Inert :=
      List.forall_mem_singleton.2 ⟨he.isCall, fun object heq => by cases heq ▸ he⟩
    exact ⟨hv.1.inert hinert, fun object => (alive_inert hinert).trans (hv.2 object)⟩

namespace Session

variable {s s' : Session} {e : SessionStep}

theorem held_of_taken (henabled : s.Enabled e) (h : Held (taken e) object) :
    Held s.refs object ∨ ∃ d, e = .enter d ∧ d.context = some object := by
  cases e with
  | operation client op =>
      cases op with
      | setSSL ssl =>
          cases ssl with
          | none => cases h
          | some ssl =>
              rw [List.mem_singleton.1 h]
              exact Or.inl (henabled.2 ssl rfl)
      | _ => cases h
  | retain object' =>
      rw [List.mem_singleton.1 h]
      exact Or.inl henabled
  | enter d =>
      cases hcontext : d.context with
      | none =>
          rw [taken, hcontext] at h
          cases h
      | some object' =>
          rw [taken, hcontext] at h
          rw [List.mem_singleton.1 h]
          exact Or.inr ⟨d, rfl, hcontext⟩
  | _ => cases h

/-- What is held after a step was held before, or is the context of the callback entered. -/
theorem held_dropped (henabled : s.Enabled e) (h : Held (s.dropped e).1 object) :
    Held s.refs object ∨ ∃ d, e = .enter d ∧ d.context = some object := by
  have hboth : Held (taken e ++ s.refs) object := by
    unfold dropped at h
    split at h
    · exact h
    · exact h.of_drop
  rw [Held, List.map_append, List.mem_append] at hboth
  rcases hboth with hnew | hold
  · exact held_of_taken henabled hnew
  · exact Or.inl hold

theorem not_held_of_mem_gone (h : object ∈ s.gone e) : ¬ Held (s.dropped e).1 object := by
  unfold gone at h
  unfold dropped at h ⊢
  split at h
  · cases h
  · exact not_held_of_gone h

/-- What was held is held still, or gone. -/
theorem held_or_gone (e : SessionStep) (h : Held s.refs object) :
    Held (s.dropped e).1 object ∨ object ∈ s.gone e := by
  have hboth : Held (taken e ++ s.refs) object := by
    rw [Held, List.map_append]
    exact List.mem_append_right _ h
  unfold gone dropped
  split
  · exact Or.inl hboth
  · exact hboth.drop_or_gone

/-- A client that is held keeps the reference to its options object, if it had it. -/
theorem owned_dropped {client : ClientId} {ssl : SSLId}
    (hmem : (.client client, .ssl ssl) ∈ taken e ++ s.refs)
    (htwice : s.given e = some (.client client, .ssl ssl) →
      (.client client, .ssl ssl) ∈ (taken e ++ s.refs).erase (.client client, .ssl ssl))
    (hheld : Held (s.dropped e).1 (.client client)) :
    (.client client, .ssl ssl) ∈ (s.dropped e).1 := by
  unfold dropped at hheld ⊢
  split
  · exact hmem
  next r hr =>
    rw [hr] at hheld htwice
    by_cases heq : r = (.client client, .ssl ssl)
    · subst heq
      have hkept := htwice rfl
      rcases drop_cases s.world.owned (taken e ++ s.refs) (.client client, .ssl ssl) with
        ⟨-, hdrop⟩ | ⟨hgone, -⟩ | ⟨r', hgone, -⟩
      · rwa [hdrop]
      · exact absurd (held_of_mem hkept) hgone
      · exact absurd (held_of_mem hkept) hgone
    · refine mem_drop_of_ne hmem (fun h => heq h.symm) fun howned => ?_
      rw [s.world.owner_of_owned howned]
      exact hheld

theorem given_client {client : ClientId} {ssl : SSLId}
    (h : s.given e = some (.client client, .ssl ssl)) :
    (s.world.clients client).ssl = some ssl ∧ ∃ ssl', e = .operation client (.setSSL ssl') := by
  cases e with
  | operation client' op =>
      cases op with
      | setSSL ssl' =>
          obtain ⟨ssl'', hssl, heq⟩ := Option.map_eq_some_iff.1 h
          cases heq
          exact ⟨hssl, ssl', rfl⟩
      | _ => cases h
  | release object => cases h
  | leave frame =>
      obtain ⟨object, -, heq⟩ := Option.map_eq_some_iff.1 h
      cases heq
  | _ => cases h

end Session

/-- The objects that go when none of the clients among them has a handle. -/
theorem foldl_dealloc {gone : List Obj}
    (hnone : ∀ client, .client client ∈ gone → (w.clients client).mqttAsyncHandle = none) :
    gone.foldl (World.dealloc env) w = w.emit (gone.map .dealloc) := by
  induction gone generalizing w with
  | nil => simp [World.emit]
  | cons object gone ih =>
      have hobject : w.dealloc env object = w.emit [.dealloc object] := by
        cases object with
        | client client => exact World.disconnect_of_none (hnone client (List.mem_cons_self ..))
        | _ => rfl
      have hrest : ∀ client, .client client ∈ gone →
          ((w.emit [.dealloc object]).clients client).mqttAsyncHandle = none :=
        fun client hmem => hnone client (List.mem_cons_of_mem _ hmem)
      rw [List.foldl_cons, hobject, ih hrest]
      simp [World.emit]

theorem destroyed_of_closed {h : Handle} (hclosed : Closed (callsOn h t)) : Destroyed t h := by
  obtain ⟨l, destroyed, heq, -⟩ := hclosed.eq_append_destroy
  have hmem : (CallKind.destroy, destroyed) ∈ callsOn h t := by simp [heq]
  obtain ⟨e, he, hevent⟩ := List.mem_filterMap.1 hmem
  cases e with
  | call client method c r =>
      rw [Event.onHandle] at hevent
      split_ifs at hevent with hsubject
      cases c with
      | destroy handle =>
          have hhandle : handle = some h := hsubject
          exact ⟨client, method, r, hhandle ▸ he⟩
      | _ => simp [LibCall.kind] at hevent
  | _ => cases hevent

/-- An object that is not in use is registered on destroyed handles only. -/
theorem Settled.destroyed_of_not_inUse (hw : Settled w) (hunused : ¬ w.InUse object)
    {client : ClientId} {method : Method} {c : LibCall} {r : Reply} {h : Handle}
    (hcall : .call client method c r ∈ w.trace) (hregisters : c.Registers h object) :
    Destroyed w.trace h := by
  have hsubject : c.subject r = some h := by
    rw [LibCall.subject, if_neg, hregisters.1]
    intro hkind
    cases c with
    | createWithOptions => cases hregisters.1
    | _ => cases hkind
  by_cases hstored : ∃ i, (w.clients i).mqttAsyncHandle = some h
  · obtain ⟨i, hi⟩ := hstored
    have hcaller : i = client := (hw i).callers _ _ _ _ _ hcall hsubject i hi
    subst hcaller
    exact absurd ⟨i, h, hi, Or.inr ⟨method, c, r, hcall, hregisters⟩⟩ hunused
  · rcases (hw 0).released h fun i hi => hstored ⟨i, hi⟩ with hnil | hclosed
    · exact absurd hnil (callsOn_ne_nil hcall hsubject)
    · exact destroyed_of_closed hclosed

/-- The invariant of careful runs with a library that does as assumed. -/
structure Session.Safe (env : Env) (objects : List Obj) (s : Session) : Prop where
  wired : s.world.Wired env
  settled : Settled s.world
  alive : ∀ object, Held s.refs object ↔ Alive objects s.world.trace object
  owned : ∀ client ssl, (s.world.clients client).ssl = some ssl →
    Held s.refs (.client client) → (.client client, .ssl ssl) ∈ s.refs
  contexts : Contexts objects s.world.trace

namespace Session

variable {s s' : Session} {e : SessionStep}

theorem settled_effect (henv : env.Honest) (hs : Settled s.world) (hw : s.effect env e = some w) :
    Settled w := by
  cases e with
  | operation client op => exact hs.run henv hw
  | setSSLOption ssl setter =>
      cases hw
      exact hs.silent ⟨fun _ => rfl, [], by simp, by simp⟩
  | enter d =>
      cases hw
      exact hs.silent (Silent.emit _ (by simp [Event.isCall]))
  | _ =>
      cases hw
      exact hs

theorem settled_dealloc (henv : env.Honest) (hw : Settled w) (object : Obj) :
    Settled (w.dealloc env object) := by
  have hmark : Settled (w.emit [.dealloc object]) :=
    hw.silent (Silent.emit w (by simp [Event.isCall]))
  cases object with
  | client client => exact (Settled.disconnect henv hmark).1
  | _ => exact hmark

theorem settled_step (henv : env.Honest) (hs : Settled s.world) (h : s.step env e = some s') :
    Settled s'.world :=
  step_invariant h (fun _ hw => settled_effect henv hs hw)
    (fun _ object _ hw => settled_dealloc henv hw object)
    fun w _ hw => hw.silent (Silent.emit w (by simp [Event.isCall]))

/-- Objects go in steps that do nothing else to the handles and the history. -/
theorem effect_of_mem_gone (hw : s.effect env e = some w) (hgone : object ∈ s.gone e) :
    w.trace = s.world.trace ∧
      ∀ i, (w.clients i).mqttAsyncHandle = (s.world.clients i).mqttAsyncHandle := by
  cases e with
  | operation client op =>
      cases op with
      | setSSL ssl =>
          cases hw
          exact ⟨rfl, modify_handle s.world client (by exact fun _ => rfl)⟩
      | _ => cases hgone
  | enter d => cases hgone
  | setSSLOption ssl setter => cases hgone
  | _ =>
      cases hw
      exact ⟨rfl, fun _ => rfl⟩

theorem effect_ssl (hw : s.effect env e = some w) (hwired : s.world.Wired env) {client : ClientId}
    {ssl : SSLId} (hssl : (w.clients client).ssl = some ssl) :
    e = .operation client (.setSSL (some ssl)) ∨
      (s.world.clients client).ssl = some ssl ∧ ∀ ssl', e ≠ .operation client (.setSSL ssl') := by
  cases e with
  | operation client' op =>
      by_cases hset : ∃ ssl', op = .setSSL ssl'
      · obtain ⟨ssl', rfl⟩ := hset
        cases hw
        by_cases hclient : client = client'
        · subst hclient
          rw [World.modify_self] at hssl
          cases hssl
          exact Or.inl rfl
        · rw [World.modify_of_ne _ hclient] at hssl
          refine Or.inr ⟨hssl, fun ssl'' heq => ?_⟩
          cases heq
          exact hclient rfl
      · have hne : ∀ ssl', SessionStep.operation client' op ≠ .operation client (.setSSL ssl') := by
          intro ssl' heq
          cases heq
          exact hset ⟨ssl', rfl⟩
        rcases World.run_cases hwired hw with ⟨method, result, -, hacts, rfl⟩ | ⟨-, hacts⟩ |
          ⟨ssl', heq, -⟩
        · exact Or.inr ⟨(hacts.ssl_eq client).symm.trans hssl, hne⟩
        · exact Or.inr ⟨(hacts.ssl_eq client).symm.trans hssl, hne⟩
        · exact absurd ⟨ssl', heq⟩ hset
  | _ =>
      cases hw
      exact Or.inr ⟨hssl, fun ssl' heq => by cases heq⟩

/-- What a step does before it drops a reference. -/
theorem Safe.effect (hs : s.Safe env objects) (henabled : s.Enabled e)
    (hw : s.effect env e = some w) :
    Contexts objects w.trace ∧
      ∀ object, Alive objects w.trace object ↔ Alive objects s.world.trace object := by
  have hinert : ∀ {t : List Event} {e : Event}, e.Inert → Contexts objects t →
      Contexts objects (t ++ [e]) ∧ ∀ object, Alive objects (t ++ [e]) object ↔
        Alive objects t object := by
    intro t e he ht
    have hmem : ∀ e' ∈ [e], e'.Inert := List.forall_mem_singleton.2 he
    exact ⟨ht.inert hmem, fun object => alive_inert hmem⟩
  cases e with
  | operation client op =>
      have hclient : Held s.refs (.client client) := by
        cases op with
        | setSSL ssl => exact henabled.1
        | _ => exact henabled
      have hssl : ∀ ssl, (s.world.clients client).ssl = some ssl →
          Alive objects s.world.trace (.ssl ssl) :=
        fun ssl hown => (hs.alive _).1 (held_of_mem (hs.owned client ssl hown hclient))
      rcases World.run_cases hs.wired hw with ⟨method, result, -, hacts, rfl⟩ | ⟨-, hacts⟩ |
        ⟨ssl, -, rfl⟩
      · have hbody := hs.contexts.grows hacts.grows ((hs.alive _).1 hclient) hssl
        have hreturn := hinert (e := .returned client method result.2)
          ⟨rfl, fun object heq => by cases heq⟩ hbody.1
        exact ⟨hreturn.1, fun object => (hreturn.2 object).trans (hbody.2 object)⟩
      · exact hs.contexts.grows hacts.grows ((hs.alive _).1 hclient) hssl
      · exact ⟨hs.contexts, fun _ => Iff.rfl⟩
  | enter d =>
      cases hw
      exact hinert ⟨rfl, fun object heq => by cases heq⟩ hs.contexts
  | _ =>
      cases hw
      exact ⟨hs.contexts, fun _ => Iff.rfl⟩

/-- The rest of a careful step: the objects that go, and the end of a callback. -/
theorem Safe.rest (hs : s.Safe env objects) (hcareful : s.Careful e)
    (hw : s.effect env e = some w) (ht : Contexts objects w.trace) :
    ∃ events : List Event,
      s.finish ((s.gone e).foldl (World.dealloc env) w) e = w.emit events ∧
      Contexts objects (w.trace ++ events) ∧
      ∀ object, .dealloc object ∈ events ↔ object ∈ s.gone e := by
  have hgone : (s.gone e).foldl (World.dealloc env) w = w.emit ((s.gone e).map .dealloc) := by
    refine foldl_dealloc fun client hmem => ?_
    rw [(effect_of_mem_gone hw hmem).2 client, Option.eq_none_iff_forall_ne_some]
    intro h hhandle
    exact hcareful _ hmem ⟨client, h, hhandle, Or.inl rfl⟩
  have hdealloc : Contexts objects (w.trace ++ (s.gone e).map .dealloc) := by
    refine ht.deallocAll fun object hmem client method c r h hcall hregisters => ?_
    rw [(effect_of_mem_gone hw hmem).1] at hcall ⊢
    exact hs.settled.destroyed_of_not_inUse (hcareful object hmem) hcall hregisters
  rw [hgone]
  rcases s.finish_cases (w.emit ((s.gone e).map .dealloc)) e with heq | ⟨d, -, heq⟩
  · exact ⟨_, heq, hdealloc, by simp⟩
  · refine ⟨(s.gone e).map .dealloc ++ [.leave d], ?_, ?_, by simp⟩
    · rw [heq]
      simp [World.leave, World.emit]
    · rw [← List.append_assoc]
      exact hdealloc.inert (List.forall_mem_singleton.2 ⟨rfl, fun object heq => by cases heq⟩)

/-- A client that is held after a step still has the reference to its options object. -/
theorem Safe.owned_step (hs : s.Safe env objects)
    (hw : s.effect env e = some w)
    (hbefore : ∀ object, Held (s.dropped e).1 object → Held s.refs object) {client : ClientId}
    {ssl : SSLId} (hssl : (w.clients client).ssl = some ssl)
    (hheld : Held (s.dropped e).1 (.client client)) :
    (.client client, .ssl ssl) ∈ (s.dropped e).1 := by
  rcases effect_ssl hw hs.wired hssl with rfl | ⟨hown, hne⟩
  · refine owned_dropped (List.mem_cons_self ..) (fun hgiven => ?_) hheld
    have hmem := hs.owned client ssl (given_client hgiven).1 (hbefore _ hheld)
    have herase : (taken (.operation client (.setSSL (some ssl))) ++ s.refs).erase
        (.client client, .ssl ssl) = s.refs := List.erase_cons_head ..
    rwa [herase]
  · have hmem := hs.owned client ssl hown (hbefore _ hheld)
    refine owned_dropped (List.mem_append_right _ hmem) (fun hgiven => ?_) hheld
    obtain ⟨-, ssl', heq⟩ := given_client hgiven
    exact absurd heq (hne ssl')

theorem Safe.step (henv : env.Honest) (hs : s.Safe env objects) (hcareful : s.Careful e)
    (h : s.step env e = some s') (hlive : AtEach LiveEnter s'.world.trace) :
    s'.Safe env objects := by
  obtain ⟨henabled, w, hw, hworld, hrefs, -⟩ := step_eq_some h
  obtain ⟨hcontexts, halive⟩ := hs.effect henabled hw
  obtain ⟨events, hfinish, hcontexts', hgone⟩ := hs.rest hcareful hw hcontexts
  have htrace : s'.world.trace = w.trace ++ events := by rw [hworld, hfinish, World.emit_trace]
  have hentered : ∀ d object, e = .enter d → d.context = some object → Held s.refs object := by
    intro d object heq hcontext
    subst heq
    cases hw
    rw [htrace, World.enter, World.emit_trace] at hlive
    have hcall := ((atEach_append _ _ _).1 ((atEach_append _ _ _).1 hlive).1).2
    rw [atEach_singleton, List.append_nil] at hcall
    obtain ⟨object', hobject, hlives⟩ := hs.contexts.alive hcall _ _ rfl
    rw [hcontext] at hobject
    cases hobject
    exact (hs.alive object).2 hlives
  have hheld : ∀ object, Held (s.dropped e).1 object ↔ Held s.refs object ∧ object ∉ s.gone e := by
    refine fun object => ⟨fun h => ⟨?_, fun hmem => not_held_of_mem_gone hmem h⟩, fun h => ?_⟩
    · rcases held_dropped henabled h with hold | ⟨d, heq, hcontext⟩
      · exact hold
      · exact hentered d object heq hcontext
    · exact (held_or_gone e h.1).resolve_right h.2
  constructor
  · exact wired_step hs.wired h
  · exact settled_step henv hs.settled h
  · intro object
    calc Held s'.refs object
        ↔ Held s.refs object ∧ object ∉ s.gone e := by rw [hrefs, hheld]
      _ ↔ Alive objects w.trace object ∧ .dealloc object ∉ events := by
        rw [hs.alive, halive, hgone]
      _ ↔ Alive objects s'.world.trace object := by rw [htrace, alive_append]
  · intro client ssl hssl hclient
    rw [hrefs] at hclient ⊢
    rw [hworld, hfinish, World.emit_clients] at hssl
    exact hs.owned_step hw (fun object h => ((hheld object).1 h).1) hssl hclient
  · rwa [htrace]

theorem safe_initial (env : Env) (objects : List Obj) (clientIDs : ClientId → NSString)
    (delegates : ClientId → Option Delegate) :
    (Session.initial objects clientIDs delegates).Safe env objects where
  wired := World.wired_initial env clientIDs delegates
  settled := (handlesKept_initial env clientIDs delegates).settled
  alive := by
    intro object
    simp [Session.initial, World.initial, Held, Alive]
  owned := by
    intro client ssl hssl
    cases hssl
  contexts := ⟨atEach_nil _, atEach_nil _⟩

end Session

/-- **No callback on a dead object.** In a run of any clients and options objects in which no object
loses its last reference while it is in use, every callback the library invokes is given an object
that is alive, if the library invokes only callbacks that are registered, and none of a handle that
was destroyed. -/
theorem callbacks_find_alive (henv : env.Honest) {clientIDs : ClientId → NSString}
    {delegates : ClientId → Option Delegate} {steps : List SessionStep} {s : Session}
    (hrun : runFrom (Session.step env) (Session.initial objects clientIDs delegates) steps = some s)
    (hcareful : AllSteps (Session.step env) Session.Careful
      (Session.initial objects clientIDs delegates) steps)
    (hlive : AtEach LiveEnter s.world.trace) : AtEach (ContextAlive objects) s.world.trace := by
  have hsafe : s.world.Wired env ∧ (AtEach LiveEnter s.world.trace → s.Safe env objects) := by
    refine runFrom_invariant_of_steps (I := fun s : Session => s.world.Wired env ∧
      (AtEach LiveEnter s.world.trace → s.Safe env objects)) (fun s e s' hs hgood h => ?_)
      ⟨World.wired_initial env clientIDs delegates, fun _ => Session.safe_initial ..⟩ hcareful hrun
    refine ⟨Session.wired_step hs.1 h, fun hlive' => ?_⟩
    obtain ⟨events, hevents⟩ := Session.trace_isPrefix_step hs.1 h
    rw [← hevents] at hlive'
    have hbefore := hs.2 ((atEach_append _ _ _).1 hlive').1
    rw [hevents] at hlive'
    exact hbefore.step henv hgood h hlive'
  exact (hsafe.2 hlive).contexts.atEach hlive

/-- An error callback of the options object of client 0, of the connect at the fourth place. -/
def errorDispatch : Dispatch := ⟨3, some (.ssl 0), .sslErrorCb none⟩

/-- A connect with an options object that has an error callback. -/
def connectWithErrorCallback : List SessionStep :=
  [.setSSLOption 0 (.sslErrorCallback (some fun _ => 1)), .operation 0 (.setSSL (some (0 : SSLId))),
    .release (.ssl 0), .operation 0 (.connect none none none)]

theorem Session.careful_of_gone_eq_nil {s : Session} {e : SessionStep} (h : s.gone e = []) :
    s.Careful e := by
  intro object hmem
  rw [h] at hmem
  cases hmem

theorem atEach_liveEnter_errorDispatch {t : List Event} {r : Reply}
    {options : MQTTAsyncConnectOptions} (ht : ∀ e ∈ t, ∀ d result, e ≠ .enter d result)
    (hcall : t[3]? = some (.call 0 .connect (.connect (some 0) options) r))
    (hmem : (some (.ssl 0), .sslErrorCb) ∈ (LibCall.connect (some 0) options).registered)
    (hlive : ¬ Destroyed t 0) (result : CallbackResult) :
    AtEach LiveEnter (t ++ [.enter errorDispatch result]) := by
  rw [atEach_append, atEach_singleton, List.append_nil]
  refine ⟨atEach_of_forall_mem fun e he past d result' heq => absurd heq (ht e he d result'), ?_⟩
  intro d result' heq
  cases heq
  exact ⟨_, _, _, _, _, hcall, rfl, hmem, hlive⟩

/-- The options object of a connected client is replaced, and the library calls back its error
callback, say on a reconnect. -/
theorem errorCallback_after_setSSL :
    ∃ s, runFrom (Session.step obligingEnv)
        (Session.initial [.client 0, .ssl 0] (fun _ => "c") fun _ => some 0)
        (connectWithErrorCallback ++ [.operation 0 (.setSSL none), .enter errorDispatch]) = some s ∧
      AtEach LiveEnter s.world.trace ∧
      ¬ AtEach (ContextAlive [.client 0, .ssl 0]) s.world.trace := by
  refine ⟨_, rfl, ?_, fun halive => ?_⟩
  · refine atEach_liveEnter_errorDispatch (t := _ :: _ :: _ :: _ :: _ :: [_]) ?_ rfl ?_ ?_ _
    · simp
    · exact List.mem_of_getElem? (i := 2) rfl
    · rintro ⟨client, method, r, hmem⟩
      simp at hmem
  · obtain ⟨object, hobject, -, hgone⟩ := halive (_ :: _ :: _ :: _ :: _ :: [_]) _ [] rfl _ _ rfl
    cases hobject
    exact hgone (by simp)

/-- The same callback while the client holds the options object. -/
theorem errorCallback_while_connected :
    ∃ s, runFrom (Session.step obligingEnv)
        (Session.initial [.client 0, .ssl 0] (fun _ => "c") fun _ => some 0)
        (connectWithErrorCallback ++ [.enter errorDispatch]) = some s ∧
      AtEach (ContextAlive [.client 0, .ssl 0]) s.world.trace := by
  have hrun : runFrom (Session.step obligingEnv)
      (Session.initial [.client 0, .ssl 0] (fun _ => "c") fun _ => some 0)
      (connectWithErrorCallback ++ [.enter errorDispatch]) = some _ := rfl
  refine ⟨_, hrun, callbacks_find_alive obligingEnv_honest hrun ?_ ?_⟩
  · refine ⟨Session.careful_of_gone_eq_nil rfl, fun s₁ h₁ => ?_⟩
    cases h₁
    refine ⟨Session.careful_of_gone_eq_nil rfl, fun s₂ h₂ => ?_⟩
    cases h₂
    refine ⟨Session.careful_of_gone_eq_nil rfl, fun s₃ h₃ => ?_⟩
    cases h₃
    refine ⟨Session.careful_of_gone_eq_nil rfl, fun s₄ h₄ => ?_⟩
    cases h₄
    exact ⟨Session.careful_of_gone_eq_nil rfl, fun _ _ => trivial⟩
  · refine atEach_liveEnter_errorDispatch (t := _ :: _ :: _ :: _ :: [_]) ?_ rfl ?_ ?_ _
    · simp
    · exact List.mem_of_getElem? (i := 2) rfl
    · rintro ⟨client, method, r, hmem⟩
      simp at hmem

end CocoaPaho
