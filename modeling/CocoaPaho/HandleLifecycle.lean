import CocoaPaho.ClientLifecycle

/-!
The lifecycle of library handles over whole runs of the clients, with the final `dealloc` of one of
them.
-/

namespace CocoaPaho

open Base

variable {env : Env} {self : ClientId} {w w' : World}

/-- The return of a connect, with whether it succeeded, or of a disconnect. -/
def Event.connectionReturn (self : ClientId) : Event → Option Bool
  | .returned i .connect rc => if i = self then some (rc = mqttAsyncSuccess) else none
  | .returned i .disconnect _ => if i = self then some false else none
  | _ => none

/-- The client's most recent connect returned success, and no disconnect came after it. -/
def connectedSince (self : ClientId) (t : List Event) : Bool :=
  (t.filterMap (Event.connectionReturn self)).getLast?.getD false

theorem connectedSince_append_of_none {t u : List Event}
    (hu : ∀ e ∈ u, e.connectionReturn self = none) :
    connectedSince self (t ++ u) = connectedSince self t := by
  rw [connectedSince, List.filterMap_append, List.filterMap_eq_nil_iff.2 hu, List.append_nil]
  rfl

theorem connectedSince_append_singleton {t : List Event} {e : Event} {b : Bool}
    (he : e.connectionReturn self = some b) : connectedSince self (t ++ [e]) = b := by
  rw [connectedSince, List.filterMap_append, List.filterMap_cons_some he, List.filterMap_nil,
    List.getLast?_concat, Option.getD_some]

theorem connectedSince_acts {methods : List Method} (h : World.Acts env self methods w w')
    (i : ClientId) : connectedSince i w'.trace = connectedSince i w.trace := by
  refine h.grows.invariant (J := fun v => connectedSince i v = connectedSince i w.trace) rfl
    (fun v method c hv _ _ => ?_) fun v e hv he => ?_
  · rw [connectedSince_append_of_none, hv]
    intro e he
    rcases List.mem_cons.1 he with rfl | he
    · rfl
    · obtain ⟨d, -, rfl | rfl⟩ := World.mem_window he <;> rfl
  · rw [connectedSince_append_of_none, hv]
    intro e' he'
    rw [List.mem_singleton.1 he']
    cases he <;> rfl

/-- A client has a handle exactly when its last connect succeeded and was not followed by a
disconnect. -/
def Flagged (w : World) : Prop :=
  ∀ i, (w.clients i).mqttAsyncHandle ≠ none ↔ connectedSince i w.trace

/-- A method that leaves the other clients alone, and the client with a handle exactly when its
return says so. -/
theorem Flagged.returning (hw : Flagged w) {method : Method} {result : World × ℤ}
    {methods : List Method} (hacts : World.Acts env self methods w result.1) {b : Bool}
    (hreturn : (Event.returned self method result.2).connectionReturn self = some b)
    (hhandle : (result.1.clients self).mqttAsyncHandle ≠ none ↔ b) :
    Flagged (World.returning self method result) := by
  intro i
  rw [World.returning_clients, returning_trace]
  by_cases hi : i = self
  · rw [hi, connectedSince_append_singleton hreturn, hhandle]
  · have hother : (Event.returned self method result.2).connectionReturn i = none := by
      cases method <;> simp [Event.connectionReturn, Ne.symm hi]
    rw [connectedSince_append_of_none (by simpa using hother), connectedSince_acts hacts,
      hacts.others i hi]
    exact hw i

theorem Flagged.run (henv : env.Honest) (hwired : w.Wired env) (hsettled : Settled w)
    (hw : Flagged w) {op : Operation} (h : op.run env self w = some w') : Flagged w' := by
  rcases operation_cases h with ⟨username, password, userProperties, -, rfl⟩ | ⟨-, rfl⟩ |
    ⟨hconnect, hdisconnect, hrequested⟩
  · refine hw.returning (World.acts_connectWithUsername hwired username password userProperties)
      (if_pos rfl) ?_
    rw [decide_eq_true_eq]
    exact (hsettled.connectWithUsername henv username password userProperties).2
  · refine hw.returning (World.acts_disconnect hwired) (if_pos rfl) ?_
    simpa using (hsettled.disconnect henv).2
  · intro i
    rw [hrequested.handle]
    rcases World.run_cases hwired h with ⟨method, result, hmethod, hacts, rfl⟩ | ⟨-, hacts⟩ |
      ⟨ssl, rfl, rfl⟩
    · have hquiet : (Event.returned self method result.2).connectionReturn i = none := by
        rw [hmethod] at hconnect hdisconnect
        cases method <;> simp_all [Event.connectionReturn]
      rw [returning_trace, connectedSince_append_of_none (by simpa using hquiet),
        connectedSince_acts hacts]
      exact hw i
    · rw [connectedSince_acts hacts]
      exact hw i
    · exact hw i

/-- What holds of the handles between operations. -/
structure HandlesKept (env : Env) (w : World) : Prop where
  wired : w.Wired env
  settled : Settled w
  flagged : Flagged w

theorem handlesKept_initial (env : Env) (clientIDs : ClientId → NSString)
    (delegates : ClientId → Option Delegate) :
    HandlesKept env (World.initial clientIDs delegates) where
  wired := World.wired_initial env clientIDs delegates
  settled := fun i =>
    { own := fun h hh => by cases hh
      others := fun i h _ hh => by cases hh
      distinct := fun i j h hh => by cases hh
      released := fun h _ => Or.inl rfl
      stored := fun i h hh => by cases hh
      unused := fun h _ => rfl
      callers := fun i method c r h hmem => by cases hmem }
  flagged := fun i => iff_of_false (not_not.2 rfl) Bool.false_ne_true

theorem HandlesKept.act (henv : env.Honest) (hw : HandlesKept env w) {action : Action}
    (h : w.act env action = some w') : HandlesKept env w' := by
  cases action with
  | operation client op =>
      exact ⟨hw.wired.run h, hw.settled.run henv h, hw.flagged.run henv hw.wired hw.settled h⟩
  | setSSLOption ssl setter =>
      have hwired := hw.wired.act h
      cases h
      exact ⟨hwired, hw.settled.silent ⟨fun _ => rfl, [], by simp, by simp⟩, hw.flagged⟩

theorem HandlesKept.run (henv : env.Honest) (hw : HandlesKept env w) {actions : List Action}
    (hrun : runFrom (World.act env) w actions = some w') : HandlesKept env w' :=
  runFrom_invariant (fun _ _ _ hs h => hs.act henv h) hw hrun

/-- The calls on a handle: none, those of a handle in use, or those of a whole life. -/
def HandleShape (l : HandleCalls) : Prop := l = [] ∨ Opened l ∨ Closed l

theorem Opened.ne_destroy {l : HandleCalls} (hl : Opened l) : ∀ q ∈ l, q.1 ≠ .destroy := by
  obtain ⟨requests, hrequests, rfl⟩ := hl
  intro q hq
  rcases List.mem_append.1 hq with hq | hq
  · rintro heq
    simp only [attempts, List.map_cons, List.map_nil, List.mem_cons, List.not_mem_nil,
      or_false] at hq
    rcases hq with rfl | rfl | rfl | rfl <;> cases heq
  · rw [hrequests q hq]
    exact CallKind.noConfusion

theorem attempts_ne_destroy {kind : CallKind} (h : kind ∈ attempts) : kind ≠ .destroy := by
  rintro rfl
  simp [attempts] at h

/-- A whole life ends with its only destruction. -/
theorem Closed.eq_append_destroy {l : HandleCalls} (hl : Closed l) :
    ∃ l₀ b, l = l₀ ++ [(.destroy, b)] ∧ ∀ q ∈ l₀, q.1 ≠ .destroy := by
  cases hl with
  | disconnected l accepted destroyed hl =>
      refine ⟨l ++ [(.disconnect, accepted)], destroyed, by rw [List.append_assoc]; rfl, ?_⟩
      intro q hq
      rcases List.mem_append.1 hq with hq | hq
      · exact hl.ne_destroy q hq
      · rw [List.mem_singleton.1 hq]
        exact CallKind.noConfusion
  | failed done rest kind destroyed hattempts =>
      refine ⟨done.map (·, true) ++ [(kind, false)], destroyed,
        by rw [List.append_assoc]; rfl, ?_⟩
      intro q hq
      rcases List.mem_append.1 hq with hq | hq
      · obtain ⟨k, hk, rfl⟩ := List.mem_map.1 hq
        exact attempts_ne_destroy (by rw [hattempts]; exact List.mem_append_left _ hk)
      · rw [List.mem_singleton.1 hq]
        exact attempts_ne_destroy (by rw [hattempts]; simp)

/-- No call comes after a destruction. -/
theorem HandleShape.ne_destroy {l past future : HandleCalls} {q : CallKind × Bool}
    (hl : HandleShape l) (heq : l = past ++ q :: future) : ∀ p ∈ past, p.1 ≠ .destroy := by
  intro p hp
  have hmem : p ∈ l := by
    rw [heq]
    exact List.mem_append_left _ hp
  rcases hl with rfl | hl | hl
  · cases hmem
  · exact hl.ne_destroy p hmem
  · obtain ⟨l₀, b, rfl, hl₀⟩ := hl.eq_append_destroy
    have hpast : past <+: l₀ := by
      have hdrop := congrArg List.dropLast heq
      rw [List.dropLast_concat, List.dropLast_append_of_ne_nil (List.cons_ne_nil q future)] at hdrop
      exact ⟨_, hdrop.symm⟩
    exact hl₀ p (hpast.subset hp)

def isDestroy (q : CallKind × Bool) : Bool := q.1 = .destroy

theorem Closed.countP_destroy {l : HandleCalls} (hl : Closed l) : l.countP isDestroy = 1 := by
  obtain ⟨l₀, b, rfl, hl₀⟩ := hl.eq_append_destroy
  have hzero : l₀.countP isDestroy = 0 := by
    rw [List.countP_eq_zero]
    intro q hq
    simpa [isDestroy] using hl₀ q hq
  rw [List.countP_append, hzero]
  rfl

/-- A handle a client's creation has stored. -/
def StoredBy (self : ClientId) (h : Handle) (t : List Event) : Prop :=
  ∃ method c r, Event.call self method c r ∈ t ∧ c.kind = .create ∧ r.handle = some h

/-- A library client made for `self` and not destroyed. -/
def Live (self : ClientId) (h : Handle) (t : List Event) : Prop :=
  StoredBy self h t ∧ ∀ q ∈ callsOn h t, q.1 ≠ .destroy

theorem StoredBy.subject {t : List Event} {h : Handle} (hs : StoredBy self h t) :
    ∃ method c r, Event.call self method c r ∈ t ∧ c.subject r = some h := by
  obtain ⟨method, c, r, hmem, hkind, hhandle⟩ := hs
  exact ⟨method, c, r, hmem, by rw [LibCall.subject, if_pos hkind, hhandle]⟩

theorem Settled.shape (hw : Settled w) (h : Handle) : HandleShape (callsOn h w.trace) := by
  by_cases hheld : ∃ i, (w.clients i).mqttAsyncHandle = some h
  · obtain ⟨i, hi⟩ := hheld
    exact Or.inr (Or.inl ((hw i).own h hi))
  · rcases (hw 0).released h (not_exists.1 hheld) with hnil | hclosed
    · exact Or.inl hnil
    · exact Or.inr (Or.inr hclosed)

/-- The current handle of a client is its one live library client. -/
theorem Settled.handle_eq_some_iff (hw : Settled w) (h : Handle) :
    (w.clients self).mqttAsyncHandle = some h ↔ Live self h w.trace := by
  constructor
  · intro hself
    have hopened := (hw self).own h hself
    refine ⟨?_, hopened.ne_destroy⟩
    obtain ⟨requests, -, hcalls⟩ := hopened
    have hcreate : (CallKind.create, true) ∈ callsOn h w.trace := by
      rw [hcalls]
      simp [attempts]
    obtain ⟨e, he, hon⟩ := List.mem_filterMap.1 hcreate
    cases e with
    | call i method c r =>
        rw [Event.onHandle] at hon
        split_ifs at hon with hsubject
        have hkind : c.kind = .create := congrArg Prod.fst (Option.some.inj hon)
        have hi := (hw self).callers i method c r h he hsubject self hself
        rw [LibCall.subject, if_pos hkind] at hsubject
        exact ⟨method, c, r, hi ▸ he, hkind, hsubject⟩
    | _ => cases hon
  · rintro ⟨hstored, hlive⟩
    obtain ⟨method, c, r, hmem, hsubject⟩ := hstored.subject
    by_cases hheld : ∃ i, (w.clients i).mqttAsyncHandle = some h
    · obtain ⟨i, hi⟩ := hheld
      have heq := (hw self).callers self method c r h hmem hsubject i hi
      exact heq ▸ hi
    · rcases (hw self).released h (not_exists.1 hheld) with hnil | hclosed
      · exact absurd hnil (callsOn_ne_nil hmem hsubject)
      · obtain ⟨l₀, b, heq, -⟩ := hclosed.eq_append_destroy
        exact absurd rfl (hlive (.destroy, b) (by rw [heq]; simp))

/-- No call of the history is made on a handle destroyed before. -/
def NoCallAfterDestroy (t : List Event) : Prop :=
  AtEach (fun past e => ∀ h, e.onHandle h ≠ none → ∀ q ∈ callsOn h past, q.1 ≠ .destroy) t

theorem Settled.noCallAfterDestroy (hw : Settled w) : NoCallAfterDestroy w.trace := by
  intro past e future htrace h hon
  obtain ⟨q, hq⟩ := Option.ne_none_iff_exists'.1 hon
  have hsplit : callsOn h w.trace = callsOn h past ++ q :: callsOn h future := by
    rw [htrace, callsOn_append, callsOn, callsOn, callsOn, List.filterMap_cons_some hq]
  exact (hw.shape h).ne_destroy hsplit

/-- After its `dealloc` a client leaves no live library client behind. -/
theorem Settled.dealloc (henv : env.Honest) (hw : Settled w) :
    Settled (w.deallocClient env self) ∧
      ((w.deallocClient env self).clients self).mqttAsyncHandle = none :=
  (hw.silent (Silent.emit w (by simp [Event.isCall]))).disconnect henv

theorem Settled.closed_of_stored (hw : Settled w) {h : Handle}
    (hnone : (w.clients self).mqttAsyncHandle = none) (hstored : StoredBy self h w.trace) :
    Closed (callsOn h w.trace) := by
  obtain ⟨method, c, r, hmem, hsubject⟩ := hstored.subject
  rcases hw.shape h with hnil | hopened | hclosed
  · exact absurd hnil (callsOn_ne_nil hmem hsubject)
  · have hlive := (hw.handle_eq_some_iff h).2 ⟨hstored, hopened.ne_destroy⟩
    rw [hnone] at hlive
    cases hlive
  · exact hclosed

/-- **Library-handle lifecycle.** After any run of the clients' operations: the handle of a client is
its one live library client, and it has one exactly when its last connect succeeded and no disconnect
followed; the calls on every handle are those of a handle in use or of a whole life; and after the
client's `dealloc` every handle stored for it has been destroyed exactly once, and no call has been
made on a destroyed handle. -/
theorem handle_lifecycle (henv : env.Honest) {clientIDs : ClientId → NSString}
    {delegates : ClientId → Option Delegate} {actions : List Action}
    (hrun : runFrom (World.act env) (World.initial clientIDs delegates) actions = some w)
    (self : ClientId) :
    ((∀ h, (w.clients self).mqttAsyncHandle = some h ↔ Live self h w.trace) ∧
      ((w.clients self).mqttAsyncHandle ≠ none ↔ connectedSince self w.trace)) ∧
    ((∀ h, HandleShape (callsOn h w.trace)) ∧
      ∀ h, HandleShape (callsOn h (w.deallocClient env self).trace)) ∧
    (∀ h, StoredBy self h (w.deallocClient env self).trace →
      (callsOn h (w.deallocClient env self).trace).countP isDestroy = 1) ∧
    NoCallAfterDestroy (w.deallocClient env self).trace := by
  have hkept := (handlesKept_initial env clientIDs delegates).run henv hrun
  have hdealloc : Settled (w.deallocClient env self) ∧
      ((w.deallocClient env self).clients self).mqttAsyncHandle = none :=
    hkept.settled.dealloc henv
  obtain ⟨hsettled, hnone⟩ := hdealloc
  refine ⟨⟨hkept.settled.handle_eq_some_iff, hkept.flagged self⟩,
    ⟨hkept.settled.shape, hsettled.shape⟩, fun h hstored => ?_,
    hsettled.noCallAfterDestroy⟩
  exact (hsettled.closed_of_stored hnone hstored).countP_destroy

/-- Two connects in a row: the first handle is destroyed before the second is made. -/
theorem handle_lifecycle_reconnect :
    ∃ w : World,
      (w.clients 0).mqttAsyncHandle = some 1 ∧
      Live 0 1 w.trace ∧ connectedSince 0 w.trace ∧
      HandleShape (callsOn 0 w.trace) ∧
      NoCallAfterDestroy (w.deallocClient obligingEnv 0).trace := by
  have hrun : runFrom (World.act obligingEnv) (World.initial (fun _ => "c") fun _ => some 0)
      [.operation 0 (.connect none none none), .operation 0 (.connect none none none)] = some _ := rfl
  obtain ⟨⟨hlive, hsince⟩, ⟨hshape, -⟩, -, hnone⟩ := handle_lifecycle obligingEnv_honest hrun 0
  have hhandle := (hlive 1).1 rfl
  exact ⟨_, rfl, hhandle, hsince.1 (Option.ne_none_iff_exists'.2 ⟨1, rfl⟩), hshape 0, hnone⟩

end CocoaPaho
