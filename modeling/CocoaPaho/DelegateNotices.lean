import CocoaPaho.ClientSession

/-!
Who is told. The delegate of a client is a weak reference that the application sets and clears at any
time, also from inside a callback, and that becomes `nil` when the delegate is deallocated. Whatever
callback the library invokes, its news goes to the delegate that the client of its context has at that
moment: to that one alone, once, and to none that is gone.
-/

namespace CocoaPaho

open Base

/-- A step of a session, an assignment to the delegate of a client, or the deallocation of a
delegate. -/
inductive NoticeStep where
  | session (e : SessionStep)
  | setDelegate (client : ClientId) (delegate : Option Delegate)
  | gone (delegate : Delegate)

/-- What happens, with the assignments and deallocations of delegates. -/
inductive Happening where
  | event (e : Event)
  | assigned (client : ClientId) (delegate : Option Delegate)
  | gone (delegate : Delegate)

def Happening.isGone (delegate : Delegate) : Happening → Bool
  | .gone delegate' => delegate' = delegate
  | _ => false

structure Audience where
  session : Session
  history : List Happening := []

/-- `setDelegate:`. -/
def PahoClient.setDelegate (delegate : Option Delegate) (self : PahoClient) : PahoClient :=
  { self with delegate := delegate }

/-- The weak references to a delegate become `nil`. -/
def World.forget (delegate : Delegate) (w : World) : World :=
  { w with clients := fun i =>
      if (w.clients i).delegate = some delegate then (w.clients i).setDelegate none
      else w.clients i }

namespace Audience

/-- A delegate that is assigned exists. -/
def step (env : Env) (a : Audience) : NoticeStep → Option Audience
  | .session e =>
    (a.session.step env e).map fun session =>
      { session
        history := a.history ++
          (session.world.trace.drop a.session.world.trace.length).map .event }
  | .setDelegate client delegate =>
    if Held a.session.refs (.client client) ∧
        ∀ d ∈ delegate, a.history.all (fun h => !h.isGone d) = true then
      some
        { session := { a.session with
            world := a.session.world.modify client (PahoClient.setDelegate delegate) }
          history := a.history ++ [.assigned client delegate] }
    else none
  | .gone delegate =>
    some
      { session := { a.session with world := a.session.world.forget delegate }
        history := a.history ++ [.gone delegate] }

end Audience

/-- The delegate of a client after something has happened. -/
def Happening.heir (client : ClientId) (current : Option Delegate) : Happening → Option Delegate
  | .event _ => current
  | .assigned client' delegate => if client' = client then delegate else current
  | .gone delegate => if current = some delegate then none else current

/-- The delegate of a client by what has happened: the one assigned last, unless it has gone. -/
def currentDelegate (first : Option Delegate) (client : ClientId) (past : List Happening) :
    Option Delegate := past.foldl (Happening.heir client) first

/-- Whom a callback has to tell: the delegate of the client its context denotes. The SSL callbacks
tell no one. -/
def recipient (delegates : ClientId → Option Delegate) (d : Dispatch) : Option (Delegate × ClientId) :=
  if d.invocation.fn = .sslErrorCb ∨ d.invocation.fn = .sslPSKCb then none
  else (checkClient d.context).bind fun client =>
    (delegates client).map fun delegate => (delegate, client)

def CallbackResult.recipients (result : CallbackResult) : List (Delegate × ClientId) :=
  result.delegateCalls.map fun call => (call.delegate, call.client)

/-- A callback tells the delegate its client has at that moment, once, and no one else; what it tells
is not gone. -/
def NoticesCurrent (delegates : ClientId → Option Delegate) (past : List Happening)
    (h : Happening) : Prop :=
  ∀ d result, h = .event (.enter d result) →
    result.recipients = (recipient (fun i => currentDelegate (delegates i) i past) d).toList ∧
      ∀ r ∈ result.recipients, .gone r.1 ∉ past

variable {env : Env} {self : ClientId} {w w' : World} {t u : List Event}

theorem recipients_toDelegate (clients : ClientId → PahoClient) (client : ClientId)
    (message : DelegateMessage) :
    (toDelegate clients client message).map (fun call => (call.delegate, call.client)) =
      ((clients client).delegate.map fun delegate => (delegate, client)).toList := by
  rw [toDelegate]
  cases (clients client).delegate <;> rfl

theorem recipients_runCallback (clients : ClientId → PahoClient) (ssls : SSLId → PahoSSLOptions)
    (d : Dispatch) :
    (runCallback clients d.context ssls d.invocation).recipients =
      (recipient (fun i => (clients i).delegate) d).toList := by
  obtain ⟨source, context, invocation⟩ := d
  have hsuccess : ∀ action response,
      (onActionSuccess clients context action response).recipients =
        ((checkClient context).bind fun client =>
          (clients client).delegate.map fun delegate => (delegate, client)).toList := by
    intro action response
    unfold onActionSuccess CallbackResult.recipients
    cases checkClient context with
    | none => rfl
    | some client => exact recipients_toDelegate clients client _
  have hfailure : ∀ action response,
      (onActionFailue clients context action response).recipients =
        ((checkClient context).bind fun client =>
          (clients client).delegate.map fun delegate => (delegate, client)).toList := by
    intro action response
    unfold onActionFailue CallbackResult.recipients
    cases checkClient context with
    | none => rfl
    | some client => exact recipients_toDelegate clients client _
  cases invocation with
  | onConnectionConnected cause =>
      simp only [runCallback, onConnectionConnected, CallbackResult.recipients, recipient,
        Invocation.fn]
      cases checkClient context with
      | none => rfl
      | some client => exact recipients_toDelegate clients client _
  | onConnectionLost cause =>
      simp only [runCallback, onConnectionLost, CallbackResult.recipients, recipient, Invocation.fn]
      cases checkClient context with
      | none => rfl
      | some client => exact recipients_toDelegate clients client _
  | onMessageArrived arrival answer =>
      rw [recipient, if_neg (by simp [Invocation.fn]), CallbackResult.recipients, runCallback,
        onMessageArrived]
      cases checkClient context with
      | none => rfl
      | some client =>
          dsimp only
          split_ifs <;> exact recipients_toDelegate clients client _
  | success fn response => cases fn <;> exact hsuccess _ response
  | failure fn response => cases fn <;> exact hfailure _ response
  | sslErrorCb str => rfl
  | sslPSKCb hint maxIdentityLen maxPskLen => rfl

/-- The callbacks among some events tell the given delegates. -/
def Tells (delegates : ClientId → Option Delegate) (u : List Event) : Prop :=
  ∀ d result, .enter d result ∈ u → result.recipients = (recipient delegates d).toList

theorem Tells.append {delegates : ClientId → Option Delegate} (ht : Tells delegates t)
    (hu : Tells delegates u) : Tells delegates (t ++ u) := by
  intro d result hmem
  rcases List.mem_append.1 hmem with hmem | hmem
  · exact ht d result hmem
  · exact hu d result hmem

theorem tells_of_no_enter {delegates : ClientId → Option Delegate}
    (hu : ∀ d result, .enter d result ∉ u) : Tells delegates u :=
  fun d result hmem => absurd hmem (hu d result)

def World.delegates (w : World) (i : ClientId) : Option Delegate := (w.clients i).delegate

/-- The bodies of methods tell the delegates that the clients have when they begin. -/
theorem World.Grows.tells {methods : List Method} (h : w.Grows env self methods t u) :
    ∃ v, u = t ++ v ∧ Tells w.delegates v := by
  refine h.invariant (J := fun u => ∃ v, u = t ++ v ∧ Tells w.delegates v)
    ⟨[], (List.append_nil t).symm, tells_of_no_enter (by simp)⟩ ?_ ?_
  · rintro _ method c ⟨v, rfl, hv⟩ - -
    refine ⟨v ++ _, List.append_assoc _ _ _, hv.append fun d result hmem => ?_⟩
    rcases List.mem_cons.1 hmem with heq | hmem
    · cases heq
    · obtain ⟨d', -, heq | heq⟩ := World.mem_window hmem
      · cases heq
        exact recipients_runCallback w.clients w.ssls d
      · cases heq
  · rintro _ e ⟨v, rfl, hv⟩ he
    refine ⟨v ++ [e], List.append_assoc _ _ _, hv.append (tells_of_no_enter fun d result hmem => ?_)⟩
    rw [List.mem_singleton] at hmem
    subst hmem
    cases he

/-- From one world to another the delegates stay, and are told what there is to tell. -/
structure Informs (w w' : World) : Prop where
  delegates : w'.delegates = w.delegates
  tells : ∃ u, w'.trace = w.trace ++ u ∧ Tells w.delegates u

theorem Informs.refl (w : World) : Informs w w :=
  ⟨rfl, [], (List.append_nil _).symm, tells_of_no_enter (by simp)⟩

theorem Informs.trans {w'' : World} (h : Informs w w') (h' : Informs w' w'') : Informs w w'' := by
  obtain ⟨u, hu, htells⟩ := h.tells
  obtain ⟨u', hu', htells'⟩ := h'.tells
  rw [h.delegates] at htells'
  exact ⟨h'.delegates.trans h.delegates, u ++ u', by rw [hu', hu, List.append_assoc],
    htells.append htells'⟩

theorem World.Acts.informs {methods : List Method} (h : World.Acts env self methods w w') :
    Informs w w' := ⟨funext h.delegates, h.grows.tells⟩

theorem informs_emit (w : World) {events : List Event} (h : ∀ d result, .enter d result ∉ events) :
    Informs w (w.emit events) := ⟨rfl, events, rfl, tells_of_no_enter h⟩

theorem informs_modify (w : World) {f : PahoClient → PahoClient}
    (hf : ∀ c, (f c).delegate = c.delegate) : Informs w (w.modify self f) := by
  refine ⟨funext fun i => ?_, [], (List.append_nil _).symm, tells_of_no_enter (by simp)⟩
  by_cases hi : i = self
  · rw [World.delegates, World.delegates, hi, World.modify_self, hf]
  · rw [World.delegates, World.delegates, World.modify_of_ne w hi]

theorem informs_dealloc (hw : w.Wired env) (object : Obj) : Informs w (w.dealloc env object) := by
  have hmark : Informs w (w.emit [.dealloc object]) := informs_emit w (by simp)
  cases object with
  | client client =>
      exact hmark.trans (World.acts_disconnect (hw.emit [.dealloc (.client client)])).informs
  | _ => exact hmark

theorem Session.informs_effect {s : Session} {e : SessionStep} (hwired : s.world.Wired env)
    (hw : s.effect env e = some w) : Informs s.world w := by
  cases e with
  | operation client op =>
      rcases World.run_cases hwired hw with ⟨method, result, -, hacts, rfl⟩ | ⟨-, hacts⟩ |
        ⟨ssl, -, rfl⟩
      · exact hacts.informs.trans (informs_emit result.1 (by simp))
      · exact hacts.informs
      · exact informs_modify s.world fun _ => rfl
  | setSSLOption ssl setter =>
      cases hw
      exact ⟨rfl, [], (List.append_nil _).symm, tells_of_no_enter (by simp)⟩
  | enter d =>
      cases hw
      refine ⟨rfl, _, rfl, fun d' result hmem => ?_⟩
      cases List.mem_singleton.1 hmem
      exact recipients_runCallback s.world.clients s.world.ssls d
  | _ =>
      cases hw
      exact Informs.refl s.world

theorem Session.informs_step {s s' : Session} {e : SessionStep} (hwired : s.world.Wired env)
    (h : s.step env e = some s') : Informs s.world s'.world := by
  have hboth : s'.world.Wired env ∧ Informs s.world s'.world := by
    refine Session.step_invariant (J := fun w => w.Wired env ∧ Informs s.world w) h
      (fun w hw => ⟨Session.wired_effect hwired hw, Session.informs_effect hwired hw⟩)
      (fun w object _ hw => ⟨Session.wired_dealloc hw.1 object,
        hw.2.trans (informs_dealloc hw.1 object)⟩)
      fun w d hw => ⟨hw.1.emit _, hw.2.trans (informs_emit w (by simp))⟩
  exact hboth.2

variable {delegates : ClientId → Option Delegate} {past : List Happening}

theorem currentDelegate_append (first : Option Delegate) (client : ClientId)
    (past recent : List Happening) :
    currentDelegate first client (past ++ recent) =
      currentDelegate (currentDelegate first client past) client recent := List.foldl_append

theorem currentDelegate_singleton (first : Option Delegate) (client : ClientId) (h : Happening) :
    currentDelegate first client [h] = h.heir client first := rfl

theorem currentDelegate_events (first : Option Delegate) (client : ClientId) (u : List Event) :
    currentDelegate first client (u.map .event) = first := by
  rw [currentDelegate, List.foldl_map]
  induction u with
  | nil => rfl
  | cons e u ih => exact ih

theorem noticesCurrent_of_ne {h : Happening} (hne : ∀ d result, h ≠ .event (.enter d result)) :
    NoticesCurrent delegates past h := fun d result heq => absurd heq (hne d result)

/-- The delegates as the history has them, those there are existing. -/
structure Audience.Current (env : Env) (delegates : ClientId → Option Delegate) (a : Audience) :
    Prop where
  wired : a.session.world.Wired env
  current : ∀ i, a.session.world.delegates i = currentDelegate (delegates i) i a.history
  present : ∀ i d, a.session.world.delegates i = some d → .gone d ∉ a.history
  notices : AtEach (NoticesCurrent delegates) a.history

namespace Audience

variable {a a' : Audience}

/-- Events that tell the current delegates. -/
theorem Current.notices_events (ha : a.Current env delegates) {u : List Event}
    (hu : Tells a.session.world.delegates u) :
    AtEach (NoticesCurrent delegates) (a.history ++ u.map .event) := by
  refine (atEach_append _ _ _).2 ⟨ha.notices, ?_⟩
  intro past h future heq d result henter
  obtain ⟨before, rest, rfl, rfl, hrest⟩ := List.map_eq_append_iff.1 heq
  obtain ⟨e, after, rfl, rfl, rfl⟩ := List.map_eq_cons_iff.1 hrest
  obtain rfl : e = .enter d result := Happening.event.inj henter
  have hdelegates : (fun i => currentDelegate (delegates i) i (a.history ++ before.map .event)) =
      a.session.world.delegates := by
    funext i
    rw [currentDelegate_append, currentDelegate_events, ha.current]
  have htells := hu d result (by simp)
  refine ⟨by rw [hdelegates, htells], fun r hr hgone => ?_⟩
  rw [htells, Option.mem_toList, recipient] at hr
  split_ifs at hr
  obtain ⟨client, -, hdelegate⟩ := Option.bind_eq_some_iff.1 hr
  obtain ⟨delegate, hdelegate, heq⟩ := Option.map_eq_some_iff.1 hdelegate
  refine ha.present client r.1 (by rw [hdelegate, ← heq]) ?_
  simpa using hgone

theorem Current.session (ha : a.Current env delegates) {e : SessionStep} {s : Session}
    (h : a.session.step env e = some s) :
    Current env delegates
      ⟨s, a.history ++ (s.world.trace.drop a.session.world.trace.length).map .event⟩ := by
  have hinforms := Session.informs_step ha.wired h
  obtain ⟨u, htrace, hu⟩ := hinforms.tells
  have hdrop : s.world.trace.drop a.session.world.trace.length = u := by
    rw [htrace, List.drop_left]
  rw [hdrop]
  constructor
  · exact Session.wired_step ha.wired h
  · intro i
    rw [currentDelegate_append, currentDelegate_events, ← ha.current, hinforms.delegates]
  · intro i d hd hgone
    rw [hinforms.delegates] at hd
    exact ha.present i d hd (by simpa using hgone)
  · exact ha.notices_events hu

theorem wired_setDelegate {c : PahoClient} {i : ClientId} (h : c.Wired env i)
    (delegate : Option Delegate) : (c.setDelegate delegate).Wired env i :=
  ⟨h.context, h.onSuccess5, h.onFailure5, h.ssl⟩

/-- An assignment, of no delegate that is gone. -/
theorem Current.setDelegate (ha : a.Current env delegates) (client : ClientId)
    {delegate : Option Delegate}
    (hexists : ∀ d ∈ delegate, a.history.all (fun h => !h.isGone d) = true) :
    Current env delegates
      ⟨{ a.session with world := a.session.world.modify client (PahoClient.setDelegate delegate) },
        a.history ++ [.assigned client delegate]⟩ := by
  have hself : (a.session.world.modify client (PahoClient.setDelegate delegate)).delegates client =
      delegate := by
    rw [World.delegates, World.modify_self]
    rfl
  have hother : ∀ i, i ≠ client →
      (a.session.world.modify client (PahoClient.setDelegate delegate)).delegates i =
        a.session.world.delegates i := by
    intro i hi
    rw [World.delegates, World.modify_of_ne _ hi]
    rfl
  constructor
  · refine ⟨fun i => ?_, ha.wired.ssls⟩
    by_cases hi : i = client
    · subst hi
      rw [World.modify_self]
      exact wired_setDelegate (ha.wired.clients i) delegate
    · rw [World.modify_of_ne _ hi]
      exact ha.wired.clients i
  · intro i
    rw [currentDelegate_append, ← ha.current, currentDelegate_singleton, Happening.heir]
    by_cases hi : i = client
    · subst hi
      rw [hself, if_pos rfl]
    · rw [hother i hi, if_neg (Ne.symm hi)]
  · intro i d hd hgone
    have hbefore : .gone d ∈ a.history := by simpa using hgone
    by_cases hi : i = client
    · subst hi
      rw [hself] at hd
      have hall := List.all_eq_true.1 (hexists d hd) _ hbefore
      simp [Happening.isGone] at hall
    · rw [hother i hi] at hd
      exact ha.present i d hd hbefore
  · exact (atEach_append _ _ _).2 ⟨ha.notices, (atEach_singleton _ _).2
      (noticesCurrent_of_ne (by simp))⟩

/-- The deallocation of a delegate. -/
theorem Current.gone (ha : a.Current env delegates) (delegate : Delegate) :
    Current env delegates
      ⟨{ a.session with world := a.session.world.forget delegate },
        a.history ++ [.gone delegate]⟩ := by
  have hforget : ∀ i, (a.session.world.forget delegate).delegates i =
      if a.session.world.delegates i = some delegate then none
      else a.session.world.delegates i := by
    intro i
    by_cases hi : (a.session.world.clients i).delegate = some delegate
    · simp [World.delegates, World.forget, hi, PahoClient.setDelegate]
    · simp [World.delegates, World.forget, hi]
  constructor
  · refine ⟨fun i => ?_, ha.wired.ssls⟩
    simp only [World.forget]
    split_ifs
    · exact wired_setDelegate (ha.wired.clients i) none
    · exact ha.wired.clients i
  · intro i
    rw [hforget, currentDelegate_append, ← ha.current]
    rfl
  · intro i d hd hgone
    rw [hforget] at hd
    split_ifs at hd with hdelegate
    rcases List.mem_append.1 hgone with hgone | hgone
    · exact ha.present i d hd hgone
    · cases List.mem_singleton.1 hgone
      exact hdelegate hd
  · exact (atEach_append _ _ _).2 ⟨ha.notices, (atEach_singleton _ _).2
      (noticesCurrent_of_ne (by simp))⟩

theorem Current.step (ha : a.Current env delegates) {e : NoticeStep} (h : a.step env e = some a') :
    a'.Current env delegates := by
  cases e with
  | session e =>
      obtain ⟨s, hs, rfl⟩ := Option.map_eq_some_iff.1 h
      exact ha.session hs
  | setDelegate client delegate =>
      rw [Audience.step] at h
      split_ifs at h with hguard
      cases h
      exact ha.setDelegate client hguard.2
  | gone delegate =>
      cases h
      exact ha.gone delegate

end Audience

end CocoaPaho
