import Mathlib.Data.List.Perm.Basic
import CocoaPaho.CallbackContexts

/-!
The end of a session. The references are counted exactly: a client that is held has one reference to
its options object and a running callback one to its context, so that what the application lets go of
is let go of by all. As long as no callback is given a dead object, an object is deallocated once, with
its last reference, and when the application holds nothing and no callback runs, nothing is left: no
reference, no object, and no library handle.
-/

namespace CocoaPaho

open Base

def Event.isDealloc (object : Obj) : Event → Bool
  | .dealloc object' => object' = object
  | _ => false

/-- How often an object has been deallocated. -/
def deallocs (object : Obj) (t : List Event) : ℕ := t.countP (Event.isDealloc object)

/-- The references of a session, counted, and the objects gone. -/
structure Session.Counted (objects : List Obj) (s : Session) : Prop where
  client : ∀ client object, s.refs.count (.client client, object) =
    if Held s.refs (.client client) ∧
      s.world.owned (.client client) = some (.client client, object) then 1 else 0
  callback : ∀ object, s.refs.count (.callback, object) =
    s.frames.countP fun d => d.context = some object
  made : ∀ object, Held s.refs object → object ∈ objects
  gone : ∀ object, deallocs object s.world.trace =
    if object ∈ objects ∧ ¬ Held s.refs object then 1 else 0

variable {env : Env} {objects : List Obj} {w w' : World} {t u : List Event} {object : Obj}

theorem deallocs_append (object : Obj) (t u : List Event) :
    deallocs object (t ++ u) = deallocs object t + deallocs object u := List.countP_append

theorem deallocs_unmarked (object : Obj) (hu : ∀ e ∈ u, ¬ e.Mark) : deallocs object u = 0 := by
  rw [deallocs, List.countP_eq_zero]
  intro e he
  cases e with
  | dealloc object' => exact absurd (.dealloc object') (hu _ he)
  | _ => exact Bool.false_ne_true

theorem deallocs_eq_zero_iff : deallocs object t = 0 ↔ .dealloc object ∉ t := by
  rw [deallocs, List.countP_eq_zero]
  constructor
  · intro h hmem
    exact absurd (decide_eq_true rfl) (h _ hmem)
  · intro h e hmem
    cases e with
    | dealloc object' =>
        rw [Event.isDealloc, decide_eq_true_eq]
        exact fun heq => h (heq ▸ hmem)
    | _ => exact Bool.false_ne_true

theorem deallocs_run (hw : w.Wired env) {client : ClientId} {op : Operation}
    (h : op.run env client w = some w') (object : Obj) :
    deallocs object w'.trace = deallocs object w.trace := by
  rcases World.run_cases hw h with ⟨method, result, -, hacts, rfl⟩ | ⟨-, hacts⟩ | ⟨ssl, -, rfl⟩
  · obtain ⟨v, htrace, hv⟩ := hacts.grows.unmarked
    rw [returning_trace, htrace, deallocs_append, deallocs_append, deallocs_unmarked object hv]
    rfl
  · obtain ⟨v, htrace, hv⟩ := hacts.grows.unmarked
    rw [htrace, deallocs_append, deallocs_unmarked object hv, Nat.add_zero]
  · rfl

theorem deallocs_dealloc (hw : w.Wired env) (object object' : Obj) :
    deallocs object (w.dealloc env object').trace =
      deallocs object w.trace + if object' = object then 1 else 0 := by
  have hmark : deallocs object (w.emit [.dealloc object']).trace =
      deallocs object w.trace + if object' = object then 1 else 0 := by
    rw [World.emit_trace, deallocs_append]
    simp [deallocs, Event.isDealloc, List.countP_singleton]
  cases object' with
  | client client =>
      obtain ⟨v, htrace, hv⟩ :=
        (World.acts_disconnect (hw.emit [.dealloc (.client client)])).grows.unmarked
      rw [World.dealloc, World.deallocClient, htrace, deallocs_append, deallocs_unmarked object hv,
        Nat.add_zero, hmark]
  | _ => exact hmark

theorem deallocs_foldl (hw : w.Wired env) (object : Obj) (gone : List Obj) :
    deallocs object (gone.foldl (World.dealloc env) w).trace =
      deallocs object w.trace + gone.count object := by
  induction gone generalizing w with
  | nil => rfl
  | cons object' gone ih =>
      rw [List.foldl_cons, ih (Session.wired_dealloc hw object'), deallocs_dealloc hw,
        List.count_cons]
      simp only [beq_iff_eq]
      omega

theorem dealloc_ssl (hw : w.Wired env) (object : Obj) (i : ClientId) :
    ((w.dealloc env object).clients i).ssl = (w.clients i).ssl := by
  cases object with
  | client client => exact (World.acts_disconnect (hw.emit [.dealloc (.client client)])).ssl_eq i
  | _ => rfl

theorem foldl_dealloc_ssl (hw : w.Wired env) (gone : List Obj) (i : ClientId) :
    ((gone.foldl (World.dealloc env) w).clients i).ssl = (w.clients i).ssl := by
  induction gone generalizing w with
  | nil => rfl
  | cons object gone ih =>
      rw [List.foldl_cons, ih (Session.wired_dealloc hw object), dealloc_ssl hw]

namespace Session

variable {s s' : Session} {e : SessionStep}

theorem effect_ssl_eq (hwired : s.world.Wired env) (hw : s.effect env e = some w) {client : ClientId}
    (hne : ∀ ssl, e ≠ .operation client (.setSSL ssl)) :
    (w.clients client).ssl = (s.world.clients client).ssl := by
  cases e with
  | operation client' op =>
      rcases World.run_cases hwired hw with ⟨method, result, -, hacts, rfl⟩ | ⟨-, hacts⟩ |
        ⟨ssl, rfl, rfl⟩
      · exact hacts.ssl_eq client
      · exact hacts.ssl_eq client
      · have hclient : client ≠ client' := by
          rintro rfl
          exact hne ssl rfl
        rw [World.modify_of_ne _ hclient]
  | _ =>
      cases hw
      rfl

theorem deallocs_effect (hwired : s.world.Wired env) (hw : s.effect env e = some w) (object : Obj) :
    deallocs object w.trace = deallocs object s.world.trace := by
  cases e with
  | operation client op => exact deallocs_run hwired hw object
  | enter d =>
      cases hw
      rw [World.enter, World.emit_trace, deallocs_append]
      rfl
  | _ =>
      cases hw
      rfl

/-- The references of clients once a step has taken its own: one for each options object of a client
that is held, and the one to be given up. -/
theorem Counted.count_taken (hs : s.Counted objects) (hwired : s.world.Wired env)
    (henabled : s.Enabled e) (hw : s.effect env e = some w) (client : ClientId) (object : Obj) :
    (taken e ++ s.refs).count (.client client, object) =
      (if Held s.refs (.client client) ∧
        w.owned (.client client) = some (.client client, object) then 1 else 0) +
      if s.given e = some (.client client, object) then 1 else 0 := by
  rw [List.count_append, hs.client]
  by_cases hset : ∃ ssl, e = .operation client (.setSSL ssl)
  · obtain ⟨ssl, rfl⟩ := hset
    cases hw
    have hheld : Held s.refs (.client client) := henabled.1
    have htaken : (taken (.operation client (.setSSL ssl))).count (.client client, object) =
        if (ssl.map fun ssl => (Holder.client client, Obj.ssl ssl)) = some (.client client, object)
          then 1 else 0 := by
      cases ssl <;> simp [taken, List.count_singleton]
    rw [htaken]
    simp [hheld, World.owned, given]
  · have hssl := effect_ssl_eq hwired hw fun ssl heq => hset ⟨ssl, heq⟩
    have hnone : (taken e).count (.client client, object) = 0 ∧
        s.given e ≠ some (.client client, object) := by
      cases e with
      | operation client' op =>
          cases op with
          | setSSL ssl =>
              have hclient : client' ≠ client := by
                rintro rfl
                exact hset ⟨ssl, rfl⟩
              refine ⟨by cases ssl <;> simp [taken, hclient], fun hgiven => ?_⟩
              obtain ⟨ssl', -, heq⟩ := Option.map_eq_some_iff.1 hgiven
              cases heq
              exact hclient rfl
          | _ => exact ⟨rfl, Option.some_ne_none _ ∘ Eq.symm⟩
      | retain object' => simp [taken, given]
      | enter d => cases hcontext : d.context <;> simp [taken, given, hcontext]
      | leave frame =>
          refine ⟨rfl, fun hgiven => ?_⟩
          obtain ⟨object', -, heq⟩ := Option.map_eq_some_iff.1 hgiven
          cases heq
      | _ => simp [taken, given]
    rw [hnone.1, if_neg hnone.2, World.owned, World.owned, hssl, Nat.zero_add, Nat.add_zero]

/-- A reference that is given up is there. -/
theorem Counted.mem_of_given (hs : s.Counted objects) (henabled : s.Enabled e) {r : Reference}
    (hr : s.given e = some r) : r ∈ s.refs := by
  cases e with
  | operation client op =>
      cases op with
      | setSSL ssl =>
          obtain ⟨ssl', -, heq⟩ := Option.map_eq_some_iff.1 hr
          have hcount := hs.client client (.ssl ssl')
          rw [heq, if_pos ⟨henabled.1, heq ▸ hr⟩] at hcount
          exact List.count_pos_iff.1 (by rw [hcount]; exact Nat.one_pos)
      | _ => cases hr
  | release object =>
      cases hr
      exact henabled
  | leave frame =>
      obtain ⟨object, hcontext, rfl⟩ := Option.map_eq_some_iff.1 hr
      obtain ⟨d, hd, hcontext⟩ := Option.bind_eq_some_iff.1 hcontext
      refine List.count_pos_iff.1 ?_
      rw [hs.callback, List.countP_pos_iff]
      exact ⟨d, List.mem_of_getElem? hd, by simpa using hcontext⟩
  | _ => cases hr

/-- Objects that go were held. -/
theorem Counted.held_of_mem_gone (hs : s.Counted objects) (henabled : s.Enabled e)
    (h : object ∈ s.gone e) : Held s.refs object := by
  unfold Session.gone Session.dropped at h
  split at h
  · cases h
  next r hr =>
    have hmem := hs.mem_of_given henabled hr
    obtain ⟨-, rfl | ⟨r', howned, rfl⟩⟩ := mem_drop_gone h
    · exact held_of_mem hmem
    · cases hobject : r.2 with
      | client client =>
          rw [hobject, World.owned] at howned
          obtain ⟨ssl, hssl, rfl⟩ := Option.map_eq_some_iff.1 howned
          have hcount := hs.client client (.ssl ssl)
          rw [if_pos ⟨hobject ▸ held_of_mem hmem, by rw [World.owned, hssl]; rfl⟩] at hcount
          exact held_of_mem (List.count_pos_iff.1 (by rw [hcount]; exact Nat.one_pos))
      | _ =>
          rw [hobject] at howned
          cases howned

/-- The context of a callback entered is held, if it is alive. -/
theorem Counted.held_of_alive (hs : s.Counted objects)
    (halive : Alive objects s.world.trace object) : Held s.refs object := by
  have hgone := hs.gone object
  rw [deallocs_eq_zero_iff.2 halive.2] at hgone
  by_contra hheld
  rw [if_pos ⟨halive.1, hheld⟩] at hgone
  cases hgone

/-- What is held after a step: what was held before, without the objects gone. -/
theorem Counted.held_step (hs : s.Counted objects) (henabled : s.Enabled e)
    (hentered : ∀ d object, e = .enter d → d.context = some object →
      Alive objects s.world.trace object) (object : Obj) :
    Held (s.dropped e).1 object ↔ Held s.refs object ∧ object ∉ s.gone e := by
  refine ⟨fun h => ⟨?_, fun hmem => not_held_of_mem_gone hmem h⟩, fun h => ?_⟩
  · rcases held_dropped henabled h with hold | ⟨d, heq, hcontext⟩
    · exact hold
    · exact hs.held_of_alive (hentered d object heq hcontext)
  · exact (held_or_gone e h.1).resolve_right h.2

theorem nodup_gone (s : Session) (e : SessionStep) : (s.gone e).Nodup := by
  rcases s.gone_cases e with heq | ⟨object, heq⟩ | ⟨client, ssl, heq⟩
  · rw [heq]
    exact List.nodup_nil
  · rw [heq]
    exact List.nodup_singleton object
  · rw [heq]
    simp

theorem owned_callback (w : World) (object object' : Obj) :
    w.owned object ≠ some (.callback, object') := by
  intro h
  cases object with
  | client client =>
      obtain ⟨ssl, -, heq⟩ := Option.map_eq_some_iff.1 h
      cases heq
  | _ => cases h

/-- A client that goes goes with the reference given up. -/
theorem given_of_client_gone {client : ClientId} (h : .client client ∈ s.gone e) :
    ∃ r, s.given e = some r ∧ r.2 = .client client ∧
      ¬ Held ((taken e ++ s.refs).erase r) r.2 := by
  unfold gone dropped at h
  split at h
  · cases h
  next r hr =>
    obtain ⟨hlast, heq | ⟨r', howned, heq⟩⟩ := mem_drop_gone h
    · exact ⟨r, hr, heq.symm, hlast⟩
    · cases hobject : r.2 with
      | client client' =>
          rw [hobject] at howned
          obtain ⟨ssl, -, rfl⟩ := Option.map_eq_some_iff.1 howned
          cases heq
      | _ =>
          rw [hobject] at howned
          cases howned

/-- The reference of a client to its options object goes with the client. -/
theorem Counted.count_dropped_client (hs : s.Counted objects) (hwired : s.world.Wired env)
    (henabled : s.Enabled e) (hw : s.effect env e = some w)
    (hheld : ∀ object, Held (s.dropped e).1 object ↔ Held s.refs object ∧ object ∉ s.gone e)
    (client : ClientId) (object : Obj) :
    (s.dropped e).1.count (.client client, object) =
      if Held (s.dropped e).1 (.client client) ∧
        w.owned (.client client) = some (.client client, object) then 1 else 0 := by
  have htaken := hs.count_taken hwired henabled hw client object
  simp only [hheld]
  cases hgiven : s.given e with
  | none =>
      have hdropped : s.dropped e = (taken e ++ s.refs, []) := by rw [dropped, hgiven]
      have hgone : s.gone e = [] := by rw [Session.gone, hdropped]
      rw [hgiven] at htaken
      rw [hdropped, htaken]
      simp [hgone]
  | some r =>
      have hdropped : s.dropped e = drop s.world.owned (taken e ++ s.refs) r := by
        rw [dropped, hgiven]
      rw [hgiven] at htaken
      simp only [Option.some.injEq] at htaken
      rw [hdropped, count_drop, htaken, Nat.add_sub_cancel]
      by_cases hgone : .client client ∈ s.gone e
      · -- the client goes, and with it the reference it owned
        obtain ⟨r', hr', hclient, hlast⟩ := given_of_client_gone hgone
        rw [hgiven] at hr'
        cases hr'
        have hne : ∀ ssl, e ≠ .operation client (.setSSL ssl) := by
          rintro ssl rfl
          obtain ⟨ssl', -, rfl⟩ := Option.map_eq_some_iff.1 hgiven
          cases hclient
        have howned : w.owned (.client client) = s.world.owned (.client client) := by
          rw [World.owned, World.owned, effect_ssl_eq hwired hw hne]
        rw [hclient] at hlast
        simp only [howned, hclient, hlast, hgone, not_true_eq_false, not_false_eq_true, and_false,
          false_and, true_and, if_false]
        split_ifs with h₁ h₂ h₂
        · rfl
        · exact absurd h₁.2 h₂
        · rfl
        · rfl
      · have hkept : ¬ (¬ Held ((taken e ++ s.refs).erase r) r.2 ∧
            s.world.owned r.2 = some (.client client, object)) := by
          rintro ⟨hlast, howned⟩
          refine hgone ?_
          rw [Session.gone, hdropped, ← World.owner_of_owned _ howned]
          exact mem_drop_gone_of_last hlast
        rw [if_neg hkept, Nat.sub_zero]
        simp [hgone]

/-- The references of callbacks are given up only when callbacks end. -/
theorem count_dropped_callback (s : Session) (e : SessionStep) (object : Obj) :
    (s.dropped e).1.count (.callback, object) =
      (taken e).count (.callback, object) + s.refs.count (.callback, object) -
        if s.given e = some (.callback, object) then 1 else 0 := by
  rw [← List.count_append]
  cases hgiven : s.given e with
  | none => simp [dropped, hgiven]
  | some r =>
      have hnot : ¬ (¬ Held ((taken e ++ s.refs).erase r) r.2 ∧
          s.world.owned r.2 = some (.callback, object)) := fun h => owned_callback _ _ _ h.2
      simp only [dropped, hgiven, count_drop, if_neg hnot, Option.some.injEq, Nat.sub_zero]

theorem Counted.callback_step (hs : s.Counted objects) (henabled : s.Enabled e) (object : Obj) :
    (s.dropped e).1.count (.callback, object) =
      (s.framesAfter e).countP fun d => d.context = some object := by
  rw [count_dropped_callback, hs.callback]
  cases e with
  | enter d =>
      rw [framesAfter, List.countP_cons]
      cases hcontext : d.context with
      | none => simp [taken, given, hcontext]
      | some object' => simp [taken, given, hcontext, List.count_singleton, Nat.add_comm]
  | leave frame =>
      have hlt : frame < s.frames.length := henabled
      have hcount := (List.getElem_cons_eraseIdx_perm hlt).countP_eq
        fun d : Dispatch => d.context = some object
      have hgiven : s.given (.leave frame) =
          s.frames[frame].context.map fun object => (Holder.callback, object) := by
        rw [given, List.getElem?_eq_getElem hlt, Option.bind_some]
      rw [List.countP_cons] at hcount
      rw [framesAfter, ← hcount, hgiven]
      cases hcontext : s.frames[frame].context with
      | none => simp [taken]
      | some object' => simp [taken]
  | operation client op =>
      cases op with
      | setSSL ssl =>
          have hgiven : s.given (.operation client (.setSSL ssl)) ≠ some (.callback, object) :=
            owned_callback s.world (.client client) object
          rw [if_neg hgiven]
          cases ssl <;> simp [taken, framesAfter]
      | _ => simp [taken, given, framesAfter]
  | _ => simp [taken, given, framesAfter]

theorem finish_trace (s : Session) (w : World) (e : SessionStep) (object : Obj) :
    deallocs object (s.finish w e).trace = deallocs object w.trace := by
  rcases s.finish_cases w e with heq | ⟨d, -, heq⟩
  · rw [heq]
  · rw [heq, World.leave, World.emit_trace, deallocs_append]
    rfl

/-- The context of a callback entered in a step is alive, when it is so in the history after it. -/
theorem alive_of_entered (h : s.step env e = some s')
    (halive : AtEach (ContextAlive objects) s'.world.trace) {d : Dispatch} (he : e = .enter d)
    {object : Obj} (hcontext : d.context = some object) : Alive objects s.world.trace object := by
  obtain ⟨-, w, hw, hworld, -, -⟩ := step_eq_some h
  subst he
  cases hw
  have htrace : s'.world.trace = (s.world.enter d).trace := by rw [hworld]; rfl
  rw [htrace, World.enter, World.emit_trace] at halive
  have hcall := ((atEach_append _ _ _).1 halive).2
  rw [atEach_singleton, List.append_nil] at hcall
  obtain ⟨object', hobject, hlives⟩ := hcall _ _ rfl
  rw [hcontext] at hobject
  cases hobject
  exact hlives

theorem Counted.step (hs : s.Counted objects) (hwired : s.world.Wired env)
    (h : s.step env e = some s') (halive : AtEach (ContextAlive objects) s'.world.trace) :
    s'.Counted objects := by
  obtain ⟨henabled, w, hw, hworld, hrefs, hframes⟩ := step_eq_some h
  have hheld := hs.held_step henabled fun d object he hcontext =>
    alive_of_entered h halive he hcontext
  have hwired' := wired_effect hwired hw
  constructor
  · intro client object
    have howned : s'.world.owned (.client client) = w.owned (.client client) := by
      rw [World.owned, World.owned, hworld, finish_clients, foldl_dealloc_ssl hwired']
    rw [hrefs, howned]
    exact hs.count_dropped_client hwired henabled hw hheld client object
  · intro object
    rw [hrefs, hframes]
    exact hs.callback_step henabled object
  · intro object hobject
    rw [hrefs, hheld] at hobject
    exact hs.made object hobject.1
  · intro object
    have hgone : deallocs object s'.world.trace =
        deallocs object s.world.trace + (s.gone e).count object := by
      rw [hworld, finish_trace, deallocs_foldl hwired', deallocs_effect hwired hw]
    simp only [hgone, hs.gone, hrefs, hheld, (s.nodup_gone e).count]
    by_cases hmem : object ∈ s.gone e
    · have hbefore : Held s.refs object := hs.held_of_mem_gone henabled hmem
      simp [hmem, hbefore, hs.made object hbefore]
    · simp [hmem]

theorem counted_initial (objects : List Obj) (clientIDs : ClientId → NSString)
    (delegates : ClientId → Option Delegate) :
    (initial objects clientIDs delegates).Counted objects := by
  have hheld : ∀ object, Held (initial objects clientIDs delegates).refs object ↔
      object ∈ objects := by
    intro object
    simp [initial, Held]
  constructor
  · intro client object
    have hnone : ¬ (initial objects clientIDs delegates).world.owned (.client client) =
        some (.client client, object) := by
      intro h
      cases h
    rw [if_neg fun h => hnone h.2, List.count_eq_zero]
    simp [initial]
  · intro object
    refine (List.count_eq_zero.2 ?_).trans rfl
    simp [initial]
  · exact fun object => (hheld object).1
  · intro object
    rw [if_neg fun h => h.2 ((hheld object).2 h.1)]
    rfl

/-- A client without a handle is left without one by whatever goes. -/
theorem foldl_dealloc_handle_none (hw : w.Wired env) (gone : List Obj) {client : ClientId}
    (hnone : (w.clients client).mqttAsyncHandle = none) :
    ((gone.foldl (World.dealloc env) w).clients client).mqttAsyncHandle = none := by
  induction gone generalizing w with
  | nil => exact hnone
  | cons object gone ih =>
      refine ih (wired_dealloc hw object) ?_
      cases object with
      | client client' =>
          by_cases hclient : client = client'
          · subst hclient
            have hemit : ((w.emit [.dealloc (.client client)]).clients client).mqttAsyncHandle =
              none := hnone
            rw [World.dealloc, World.deallocClient, World.disconnect_of_none hemit]
            exact hnone
          · rw [World.dealloc, World.deallocClient, (World.does_disconnect env _ _).others hclient]
            exact hnone
      | _ => exact hnone

/-- A client that goes has no handle any more. -/
theorem foldl_dealloc_handle (henv : env.Honest) (hwired : w.Wired env) (hw : Settled w)
    {gone : List Obj} {client : ClientId} (hmem : .client client ∈ gone) :
    ((gone.foldl (World.dealloc env) w).clients client).mqttAsyncHandle = none := by
  induction gone generalizing w with
  | nil => cases hmem
  | cons object gone ih =>
      rw [List.foldl_cons]
      by_cases hobject : object = .client client
      · subst hobject
        have hmark : Settled (w.emit [.dealloc (.client client)]) :=
          hw.silent (Silent.emit w (by simp [Event.isCall]))
        exact foldl_dealloc_handle_none (wired_dealloc hwired _) gone
          (Settled.disconnect henv hmark).2
      · exact ih (wired_dealloc hwired object) (settled_dealloc henv hw object)
          ((List.mem_cons.1 hmem).resolve_left fun heq => hobject heq.symm)

/-- A step does nothing to the handle of a client that is not held. -/
theorem effect_handle (hwired : s.world.Wired env) (henabled : s.Enabled e)
    (hw : s.effect env e = some w) {client : ClientId} (hheld : ¬ Held s.refs (.client client)) :
    (w.clients client).mqttAsyncHandle = (s.world.clients client).mqttAsyncHandle := by
  cases e with
  | operation client' op =>
      have hclient' : Held s.refs (.client client') := by
        cases op with
        | setSSL ssl => exact henabled.1
        | _ => exact henabled
      have hclient : client ≠ client' := fun heq => hheld (heq ▸ hclient')
      rcases World.run_cases hwired hw with ⟨method, result, -, hacts, rfl⟩ | ⟨-, hacts⟩ |
        ⟨ssl, -, rfl⟩
      · rw [World.returning_clients, hacts.others client hclient]
      · rw [hacts.others client hclient]
      · rw [World.modify_of_ne _ hclient]
  | _ =>
      cases hw
      rfl

/-- A client that is held no more has no handle. -/
def Unburdened (s : Session) : Prop :=
  ∀ client, ¬ Held s.refs (.client client) → (s.world.clients client).mqttAsyncHandle = none

theorem Counted.unburdened_step (henv : env.Honest) (hs : s.Counted objects)
    (hwired : s.world.Wired env) (hsettled : Settled s.world) (hu : s.Unburdened)
    (h : s.step env e = some s') (halive : AtEach (ContextAlive objects) s'.world.trace) :
    s'.Unburdened := by
  obtain ⟨henabled, w, hw, hworld, hrefs, -⟩ := step_eq_some h
  have hheld := hs.held_step henabled fun d object he hcontext =>
    alive_of_entered h halive he hcontext
  have hwired' := wired_effect hwired hw
  intro client hclient
  rw [hworld, finish_clients]
  by_cases hgone : .client client ∈ s.gone e
  · exact foldl_dealloc_handle henv hwired' (settled_effect henv hsettled hw) hgone
  · rw [hrefs, hheld] at hclient
    have hbefore : ¬ Held s.refs (.client client) := fun hheld' => hclient ⟨hheld', hgone⟩
    refine foldl_dealloc_handle_none hwired' _ ?_
    rw [effect_handle hwired henabled hw hbefore, hu client hbefore]

/-- When the application holds nothing and no callback runs, nothing holds anything. -/
theorem Counted.refs_eq_nil (hs : s.Counted objects) (happ : ∀ object, (.app, object) ∉ s.refs)
    (hframes : s.frames = []) : s.refs = [] := by
  have hcallback : ∀ object, (.callback, object) ∉ s.refs := by
    intro object
    rw [← List.count_eq_zero, hs.callback, hframes]
    rfl
  have hclient : ∀ client, ¬ Held s.refs (.client client) := by
    intro client hheld
    obtain ⟨⟨holder, object⟩, hmem, heq⟩ := List.mem_map.1 hheld
    dsimp only at heq
    subst heq
    cases holder with
    | app => exact happ _ hmem
    | callback => exact hcallback _ hmem
    | client client' =>
        have hcount := hs.client client' (.client client)
        rw [if_neg] at hcount
        · exact List.count_eq_zero.1 hcount hmem
        · rintro ⟨-, howned⟩
          obtain ⟨ssl, -, heq⟩ := Option.map_eq_some_iff.1 howned
          cases heq
  refine List.eq_nil_iff_forall_not_mem.2 ?_
  rintro ⟨holder, object⟩ hmem
  cases holder with
  | app => exact happ object hmem
  | callback => exact hcallback object hmem
  | client client =>
      have hcount := hs.client client object
      rw [if_neg fun h => hclient client h.1] at hcount
      exact List.count_eq_zero.1 hcount hmem

end Session

/-- **Objects go once.** In a session in which no callback is given a dead object, an object has been
deallocated once if it was made and is no longer held, and not at all otherwise. A client holds its
options object, once, as long as it is held itself, and nothing when it has gone. -/
theorem deallocated_once {clientIDs : ClientId → NSString} {delegates : ClientId → Option Delegate}
    {steps : List SessionStep} {s : Session}
    (hrun : runFrom (Session.step env) (Session.initial objects clientIDs delegates) steps = some s)
    (halive : AtEach (ContextAlive objects) s.world.trace) (object : Obj) :
    deallocs object s.world.trace = (if object ∈ objects ∧ ¬ Held s.refs object then 1 else 0) ∧
      ∀ client, s.refs.count (.client client, object) =
        if Held s.refs (.client client) ∧
          s.world.owned (.client client) = some (.client client, object) then 1 else 0 := by
  have hcounted : s.Counted objects := Session.run_invariant_of_atEach
    (fun _ _ _ hs hwired h halive' => hs.step hwired h halive')
    (World.wired_initial env clientIDs delegates) (Session.counted_initial ..) hrun halive
  exact ⟨hcounted.gone object, fun client => hcounted.client client object⟩

/-- **Nothing is left.** When the application has dropped its references and no callback runs, every
object has been deallocated, each once, no reference remains, no client has a handle, and the calls on
each handle of the session have come to their end. -/
theorem nothing_left (henv : env.Honest) {clientIDs : ClientId → NSString}
    {delegates : ClientId → Option Delegate} {steps : List SessionStep} {s : Session}
    (hrun : runFrom (Session.step env) (Session.initial objects clientIDs delegates) steps = some s)
    (halive : AtEach (ContextAlive objects) s.world.trace)
    (happ : ∀ object, (.app, object) ∉ s.refs) (hframes : s.frames = []) :
    s.refs = [] ∧ (∀ object ∈ objects, deallocs object s.world.trace = 1) ∧
      (∀ client, (s.world.clients client).mqttAsyncHandle = none) ∧
      ∀ h, callsOn h s.world.trace = [] ∨ Closed (callsOn h s.world.trace) := by
  obtain ⟨hcounted, hsettled, hunburdened⟩ : s.Counted objects ∧ Settled s.world ∧ s.Unburdened := by
    refine Session.run_invariant_of_atEach
      (I := fun s => s.Counted objects ∧ Settled s.world ∧ s.Unburdened)
      (fun s e s' hs hwired h halive' => ?_) (World.wired_initial env clientIDs delegates) ?_ hrun
      halive
    · exact ⟨hs.1.step hwired h halive', Session.settled_step henv hs.2.1 h,
        hs.1.unburdened_step henv hwired hs.2.1 hs.2.2 h halive'⟩
    · exact ⟨Session.counted_initial .., (handlesKept_initial env clientIDs delegates).settled,
        fun _ _ => rfl⟩
  have hrefs := hcounted.refs_eq_nil happ hframes
  have hnone : ∀ object, ¬ Held s.refs object := by
    intro object
    rw [hrefs]
    exact List.not_mem_nil
  refine ⟨hrefs, fun object hobject => ?_, fun client => hunburdened client (hnone _), fun h => ?_⟩
  · rw [hcounted.gone, if_pos ⟨hobject, hnone object⟩]
  · refine (hsettled 0).released h fun client hclient => ?_
    rw [hunburdened client (hnone _)] at hclient
    cases hclient

/-- A client with an options object connects; then the application lets go of both while a callback
for the client runs. -/
def lettingGo : List SessionStep :=
  [.operation 0 (.setSSL (some 0)), .operation 0 (.connect none none none),
    .enter ⟨3, some (.client 0), .onConnectionConnected none⟩, .release (.ssl 0),
    .release (.client 0), .leave 0]

/-- A history with one callback, the context of which is alive. -/
theorem atEach_contextAlive_enter {d : Dispatch} {result : CallbackResult}
    (ht : ∀ e ∈ t, ∀ d result, e ≠ .enter d result) (hu : ∀ e ∈ u, ∀ d result, e ≠ .enter d result)
    (hcontext : d.context = some object) (hobject : Alive objects t object) :
    AtEach (ContextAlive objects) (t ++ .enter d result :: u) := by
  rw [← List.singleton_append, atEach_append, atEach_append, atEach_singleton]
  refine ⟨atEach_of_forall_mem fun e he _ d result heq => absurd heq (ht e he d result), ?_,
    atEach_of_forall_mem fun e he _ d result heq => absurd heq (hu e he d result)⟩
  intro d' result' heq
  cases heq
  rw [List.append_nil]
  exact ⟨object, hcontext, hobject⟩

theorem nothing_left_lettingGo :
    ∃ s, runFrom (Session.step obligingEnv)
        (Session.initial [.client 0, .ssl 0] (fun _ => "c") fun _ => some 0) lettingGo = some s ∧
      ∀ object ∈ [Obj.client 0, .ssl 0], deallocs object s.world.trace = 1 := by
  obtain ⟨s, t, u, result, hrun, htrace, ht, hu, hobject, happ, hframes⟩ :
      ∃ s t u result, runFrom (Session.step obligingEnv)
          (Session.initial [.client 0, .ssl 0] (fun _ => "c") fun _ => some 0) lettingGo = some s ∧
        s.world.trace = t ++ .enter ⟨3, some (.client 0), .onConnectionConnected none⟩ result :: u ∧
        (∀ e ∈ t, ∀ d result, e ≠ .enter d result) ∧ (∀ e ∈ u, ∀ d result, e ≠ .enter d result) ∧
        Alive [.client 0, .ssl 0] t (.client 0) ∧ (∀ object, (.app, object) ∉ s.refs) ∧
        s.frames = [] :=
    ⟨_, _ :: _ :: _ :: _ :: [_], _ :: _ :: _ :: _ :: [_], _, rfl, rfl, by simp, by simp,
      ⟨by simp, by simp⟩, fun _ => List.not_mem_nil, rfl⟩
  have halive : AtEach (ContextAlive [.client 0, .ssl 0]) s.world.trace := by
    rw [htrace]
    exact atEach_contextAlive_enter ht hu rfl hobject
  exact ⟨s, hrun, (nothing_left obligingEnv_honest hrun halive happ hframes).2.1⟩

/-- The application drops the client only. The options object stays, and the client holds it no
more. -/
theorem deallocated_once_client :
    ∃ s, runFrom (Session.step obligingEnv)
        (Session.initial [.client 0, .ssl 0] (fun _ => "c") fun _ => some 0)
        [.operation 0 (.setSSL (some (0 : SSLId))), .release (.client 0)] = some s ∧
      deallocs (.client 0) s.world.trace = 1 ∧ deallocs (.ssl 0) s.world.trace = 0 ∧
      s.refs.count (.client 0, .ssl 0) = 0 := by
  obtain ⟨s, hrun, htrace, hrefs⟩ : ∃ s, runFrom (Session.step obligingEnv)
      (Session.initial [.client 0, .ssl 0] (fun _ => "c") fun _ => some 0)
      [.operation 0 (.setSSL (some (0 : SSLId))), .release (.client 0)] = some s ∧
        s.world.trace = [.dealloc (.client 0)] ∧ s.refs = [(.app, .ssl 0)] := ⟨_, rfl, rfl, rfl⟩
  have hcount := deallocated_once hrun (by rw [htrace]; simp [ContextAlive])
  have hgone : ¬ Held s.refs (.client 0) := by
    rw [hrefs]
    decide
  refine ⟨s, hrun, (hcount _).1.trans ?_, (hcount _).1.trans ?_, ((hcount _).2 0).trans ?_⟩
  · rw [if_pos ⟨by decide, hgone⟩]
  · rw [hrefs]
    decide
  · rw [if_neg fun h => hgone h.1]

end CocoaPaho
