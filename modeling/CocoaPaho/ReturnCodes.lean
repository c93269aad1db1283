import CocoaPaho.ClientSession

/-!
The codes the methods return. A method makes the calls of its script one after another, stops at the
first that fails, destroys the handle if it was connecting, and hands the code of the failed call to
its caller; what the two calls that take a handle down answer is ignored, also at the beginning of a
connect. Stated over the history of a session: what is returned is compared with all calls made since
the method before it returned, less those of a `dealloc` in between, so no call of a method goes
unreported and none is counted twice.
-/

namespace CocoaPaho

open Base

/-- A code the library answered, with the client that made the call and the kind of the call. -/
structure Answer where
  client : ClientId
  kind : CallKind
  rc : ℤ

def Event.answer : Event → Option Answer
  | .call client _ c r => some ⟨client, c.kind, r.rc⟩
  | _ => none

def Event.isMark : Event → Bool
  | .returned _ _ _ => true
  | .dealloc _ => true
  | _ => false

/-- The answers since a method has returned last, or a `dealloc` has begun. -/
def answersSince (t : List Event) : List Answer :=
  (sinceLast Event.isMark t).filterMap Event.answer

def lastMark (t : List Event) : Option Event := (t.filter Event.isMark).getLast?

/-- A handle is taken down, if there is one, with whatever codes. -/
def TakenDown (client : ClientId) (answers : List Answer) : Prop :=
  answers = [] ∨ ∃ code code',
    answers = [⟨client, .disconnect, code⟩, ⟨client, .destroy, code'⟩]

/-- The calls of a script are made in order up to the first that fails, and its code is the result;
behind it the handle is destroyed, and no other call is made. -/
inductive Ran (client : ClientId) : List CallKind → List Answer → ℤ → Prop where
  | done : Ran client [] [] mqttAsyncSuccess
  | failed (kind : CallKind) (script : List CallKind) (rc code : ℤ) (hrc : rc ≠ mqttAsyncSuccess) :
      Ran client (kind :: script) [⟨client, kind, rc⟩, ⟨client, .destroy, code⟩] rc
  | went (kind : CallKind) {script : List CallKind} {answers : List Answer} {rc : ℤ}
      (h : Ran client script answers rc) :
      Ran client (kind :: script) (⟨client, kind, mqttAsyncSuccess⟩ :: answers) rc

/-- What a method of a client returns on some answers. A connect first takes the old handle down. A
disconnect returns nothing; `isConnected` returns whether the library answered 1, and asks it only
when there is a handle; any other method returns the code of its one call. -/
def Method.Returns (client : ClientId) (answers : List Answer) (rc : ℤ) : Method → Prop
  | .connect => ∃ down own, answers = down ++ own ∧ TakenDown client down ∧
      Ran client attempts own rc
  | .disconnect => TakenDown client answers ∧ rc = 0
  | .isConnected => (answers = [] ∧ rc = 0) ∨
      ∃ code, answers = [⟨client, .request, code⟩] ∧ rc = if code = 1 then 1 else 0
  | _ => answers = [⟨client, .request, rc⟩]

/-- The answers a `dealloc` got, if the last mark is one. -/
def Farewell (t : List Event) (answers : List Answer) : Prop :=
  answers = [] ∨ ∃ client, lastMark t = some (.dealloc (.client client)) ∧ TakenDown client answers

/-- A method that returns returns what its answers ask for: those since the last mark, behind the
answers of a `dealloc` that has come before. -/
def ReturnsAnswers (past : List Event) (e : Event) : Prop :=
  ∀ client method rc, e = .returned client method rc →
    ∃ farewell own, answersSince past = farewell ++ own ∧ Farewell past farewell ∧
      method.Returns client own rc

variable {env : Env} {self : ClientId} {w w' w'' : World} {answers answers' : List Answer}

theorem readsCalls_answer : ReadsCalls Event.answer := by
  intro e he
  cases e with
  | call client method c r => cases he
  | _ => rfl

/-- The answers got between two moments. -/
def Gets (w w' : World) (answers : List Answer) : Prop :=
  w'.trace.filterMap Event.answer = w.trace.filterMap Event.answer ++ answers

theorem Gets.trans (h : Gets w w' answers) (h' : Gets w' w'' answers') :
    Gets w w'' (answers ++ answers') := by
  rw [Gets, h', h, List.append_assoc]

theorem Silent.gets (h : Silent w w') : Gets w w' [] := by
  rw [Gets, filterMap_silent readsCalls_answer h, List.append_nil]

theorem gets_call (env : Env) (self : ClientId) (method : Method) (w : World) {c : LibCall} :
    Gets w (w.call env self method c).1 [⟨self, c.kind, (w.call env self method c).2.rc⟩] := by
  rw [Gets, filterMap_call readsCalls_answer]
  rfl

theorem gets_destroy (env : Env) (self : ClientId) (method : Method) (w : World) :
    ∃ code, Gets w (w.destroy env self method) [⟨self, .destroy, code⟩] :=
  ⟨_, gets_call env self method w⟩

theorem gets_disconnect (env : Env) (self : ClientId) (w : World) :
    ∃ answers, Gets w (w.disconnect env self) answers ∧ TakenDown self answers := by
  unfold World.disconnect
  split
  · exact ⟨[], (Silent.refl w).gets, Or.inl rfl⟩
  · next handle hhandle =>
      have hcall := @gets_call env self .disconnect w (World.disconnectCall self handle)
      obtain ⟨code, hdestroy⟩ := gets_destroy env self .disconnect
        (w.call env self .disconnect (World.disconnectCall self handle)).1
      exact ⟨_, hcall.trans hdestroy, Or.inr ⟨_, code, rfl⟩⟩

/-- From one world to another the calls of a script are made, with the result they have. -/
def Runs (self : ClientId) (script : List CallKind) (w : World) (result : World × ℤ) : Prop :=
  ∃ answers, Gets w result.1 answers ∧ Ran self script answers result.2

/-- A connect goes on with its script after a call that succeeded, and ends it otherwise. -/
theorem runs_orDestroy {kind : CallKind} {script : List CallKind} {attempt : World × ℤ}
    {rest : World → World × ℤ} (h : Gets w attempt.1 [⟨self, kind, attempt.2⟩])
    (hrest : Runs self script attempt.1 (rest attempt.1)) :
    Runs self (kind :: script) w (World.orDestroy env self attempt rest) := by
  unfold World.orDestroy
  split_ifs with hrc
  · obtain ⟨code, hdestroy⟩ := gets_destroy env self .connect attempt.1
    exact ⟨_, h.trans hdestroy, .failed kind script attempt.2 code hrc⟩
  · rw [ne_eq, not_not] at hrc
    rw [hrc] at h
    obtain ⟨answers, hanswers, hran⟩ := hrest
    exact ⟨_, h.trans hanswers, .went kind hran⟩

theorem gets_sendConnect (env : Env) (self : ClientId)
    (userProperties : Option (NSDictionary PropertyObject)) (w : World) :
    Gets w (w.sendConnect env self userProperties).1
      [⟨self, .connect, (w.sendConnect env self userProperties).2⟩] := by
  have hfilled := (Silent.fillConnectOpts env self userProperties w).gets
  exact hfilled.trans (gets_call env self .connect _)

theorem returns_connectWithUsername (env : Env) (self : ClientId)
    (username password : Option NSString)
    (userProperties : Option (NSDictionary PropertyObject)) (w : World) :
    ∃ answers,
      Gets w (w.connectWithUsername env self username password userProperties).1 answers ∧
      Method.connect.Returns self answers
        (w.connectWithUsername env self username password userProperties).2 := by
  obtain ⟨down, hdown, htaken⟩ := gets_disconnect env self w
  have hprepared : Gets w (w.prepare env self username password) down := hdown
  have hruns : Runs self attempts (w.prepare env self username password)
      (w.connectWithUsername env self username password userProperties) := by
    refine runs_orDestroy (gets_call env self .connect _) ?_
    refine runs_orDestroy (gets_call env self .connect _) ?_
    refine runs_orDestroy (gets_call env self .connect _) ?_
    refine runs_orDestroy (gets_sendConnect env self userProperties _) ?_
    exact ⟨[], (Silent.refl _).gets, .done⟩
  obtain ⟨own, hown, hran⟩ := hruns
  exact ⟨down ++ own, hprepared.trans hown, down, own, rfl, htaken, hran⟩

theorem gets_subscribeTopics (env : Env) (self : ClientId) (topics : List PahoTopic) (w : World) :
    Gets w (w.subscribeTopics env self topics).1
      [⟨self, .request, (w.subscribeTopics env self topics).2⟩] := by
  have hcopied := (Silent.malloc w).trans
    (Silent.copied w.malloc (topics.map fun topic => utf8 topic.topic))
  unfold World.subscribeTopics
  dsimp only
  exact (hcopied.gets.trans (gets_call env self .subscribeTopics _)).trans
    (Silent.released _ _ _).gets

theorem gets_unsubscribeTopics (env : Env) (self : ClientId) (topics : List NSString) (w : World) :
    Gets w (w.unsubscribeTopics env self topics).1
      [⟨self, .request, (w.unsubscribeTopics env self topics).2⟩] := by
  have hcopied := Silent.copied w ((topics.take (cInt topics.length).toNat).map utf8)
  unfold World.unsubscribeTopics
  dsimp only
  exact (hcopied.gets.trans (gets_call env self .unsubscribeTopics _)).trans
    (Silent.released _ _ _).gets

theorem gets_publish {message : PahoPublishedMessage} {properties : PahoProperties}
    {result : World × ℤ} (h : w.publish env self message properties = some result) :
    Gets w result.1 [⟨self, .request, result.2⟩] := by
  obtain ⟨lenString, -, h⟩ := Option.bind_eq_some_iff.1 h
  obtain ⟨props, -, rfl⟩ := Option.map_eq_some_iff.1 h
  dsimp only
  exact (gets_call env self .publish w).trans
    (Silent.emit _ (by simp [Event.isCall])).gets

theorem gets_isConnected (env : Env) (self : ClientId) (w : World) :
    ∃ answers, Gets w (w.isConnected env self).1 answers ∧
      Method.isConnected.Returns self answers (w.isConnected env self).2 := by
  unfold World.isConnected
  split
  · exact ⟨[], (Silent.refl w).gets, Or.inl ⟨rfl, rfl⟩⟩
  · exact ⟨_, gets_call env self .isConnected w, Or.inr ⟨_, rfl, rfl⟩⟩

theorem Event.isMark_iff {e : Event} : e.isMark = true ↔ e.Mark := by
  constructor
  · intro h
    cases e with
    | returned client method rc => exact .returned client method rc
    | dealloc object => exact .dealloc object
    | _ => cases h
  · rintro ⟨⟩ <;> rfl

/-- Events that are no marks. -/
def Unmarked (u : List Event) : Prop := ∀ e ∈ u, e.isMark = false

theorem grows_unmarked {methods : List Method} {t u : List Event}
    (h : w.Grows env self methods t u) : ∃ v, u = t ++ v ∧ Unmarked v := by
  obtain ⟨v, hv, hunmarked⟩ := h.unmarked
  exact ⟨v, hv, fun e he => Bool.eq_false_iff.2 fun hmark =>
    hunmarked e he (Event.isMark_iff.1 hmark)⟩

/-- A method of a client makes its calls and returns what they ask for; an assignment makes none. -/
theorem operation_returns (hw : w.Wired env) {op : Operation} (h : op.run env self w = some w') :
    (∃ method result answers, World.Acts env self method.bodies w result.1 ∧
        Gets w result.1 answers ∧ method.Returns self answers result.2 ∧
        w' = World.returning self method result) ∨
      ((World.Acts env self [] w w' ∨ w'.trace = w.trace) ∧ Gets w w' []) := by
  cases op with
  | connect username password userProperties =>
      cases h
      obtain ⟨answers, hanswers, hreturns⟩ :=
        returns_connectWithUsername env self username password userProperties w
      exact Or.inl ⟨.connect, _, answers,
        World.acts_connectWithUsername hw username password userProperties, hanswers, hreturns, rfl⟩
  | disconnect =>
      cases h
      obtain ⟨answers, hanswers, htaken⟩ := gets_disconnect env self w
      exact Or.inl ⟨.disconnect, (w.disconnect env self, 0), answers, World.acts_disconnect hw,
        hanswers, ⟨htaken, rfl⟩, rfl⟩
  | subscribe topic qos =>
      cases h
      exact Or.inl ⟨.subscribe, _, _, (World.does_subscribe topic qos).acts_alone hw rfl,
        gets_call env self .subscribe w, rfl, rfl⟩
  | subscribeTopics topics =>
      cases h
      exact Or.inl ⟨.subscribeTopics, _, _,
        (World.does_subscribeTopics topics).acts_alone hw rfl,
        gets_subscribeTopics env self topics w, rfl, rfl⟩
  | unsubscribeTopic topic =>
      cases h
      exact Or.inl ⟨.unsubscribeTopic, _, _,
        (World.does_unsubscribeTopic topic).acts_alone hw rfl,
        gets_call env self .unsubscribeTopic w, rfl, rfl⟩
  | unsubscribeTopics topics =>
      cases h
      exact Or.inl ⟨.unsubscribeTopics, _, _,
        (World.does_unsubscribeTopics topics).acts_alone hw rfl,
        gets_unsubscribeTopics env self topics w, rfl, rfl⟩
  | publish message properties =>
      obtain ⟨result, hresult, rfl⟩ := Option.map_eq_some_iff.1 h
      exact Or.inl ⟨.publish, result, _, (World.does_publish hresult).acts_alone hw rfl,
        gets_publish hresult, rfl, rfl⟩
  | isConnected =>
      cases h
      obtain ⟨answers, hanswers, hreturns⟩ := gets_isConnected env self w
      exact Or.inl ⟨.isConnected, _, answers,
        World.does_isConnected.acts_alone hw rfl, hanswers, hreturns, rfl⟩
  | set setter =>
      cases h
      exact Or.inr ⟨Or.inl ((World.Acts.refl self [] hw).set setter), (Silent.set w self setter).gets⟩
  | setServerURIs serverURIs =>
      cases h
      exact Or.inr ⟨Or.inl ((World.does_setServerURIs serverURIs).acts hw (by simp)),
        (Silent.setServerURIs self serverURIs w).gets⟩
  | setSSL ssl =>
      cases h
      exact Or.inr ⟨Or.inr rfl, (Silent.modify w self fun _ => rfl).gets⟩

/-- A world between steps: every return so far was right, and no answer waits to be returned. -/
structure Accounted (env : Env) (w : World) : Prop where
  wired : w.Wired env
  returned : AtEach ReturnsAnswers w.trace
  farewell : Farewell w.trace (answersSince w.trace)

/-- What a method gets is what has been answered since the last mark. -/
theorem answersSince_of_gets {t u : List Event} (hgets : (t ++ u).filterMap Event.answer =
    t.filterMap Event.answer ++ answers) (hu : Unmarked u) :
    answersSince (t ++ u) = answersSince t ++ answers := by
  rw [List.filterMap_append, List.append_cancel_left_eq] at hgets
  rw [answersSince, sinceLast_append t hu, List.filterMap_append, hgets, answersSince]

theorem lastMark_append {t u : List Event} (hu : Unmarked u) : lastMark (t ++ u) = lastMark t := by
  have hnone : u.filter Event.isMark = [] :=
    List.filter_eq_nil_iff.2 fun e he => Bool.eq_false_iff.1 (hu e he)
  rw [lastMark, List.filter_append, hnone, List.append_nil, lastMark]

theorem Farewell.append {t u : List Event} (h : Farewell t answers) (hu : Unmarked u) :
    Farewell (t ++ u) answers := by
  rwa [Farewell, lastMark_append hu]

theorem atEach_unmarked {t u : List Event} (ht : AtEach ReturnsAnswers t) (hu : Unmarked u) :
    AtEach ReturnsAnswers (t ++ u) := by
  refine (atEach_append _ _ _).2 ⟨ht, atEach_of_forall_mem fun e he past => ?_⟩
  intro client method rc heq
  have hmark := hu e he
  rw [heq] at hmark
  cases hmark

/-- Events without a mark and without an answer. -/
theorem Accounted.quiet (hw : Accounted env w) (hwired : w'.Wired env) {u : List Event}
    (htrace : w'.trace = w.trace ++ u) (hu : Unmarked u) (hgets : Gets w w' []) :
    Accounted env w' := by
  rw [Gets, htrace] at hgets
  refine ⟨hwired, ?_, ?_⟩
  · rw [htrace]
    exact atEach_unmarked hw.returned hu
  · rw [htrace, answersSince_of_gets hgets hu, List.append_nil]
    exact hw.farewell.append hu

theorem Accounted.returning (hw : Accounted env w) {method : Method} {result : World × ℤ}
    (hacts : World.Acts env self method.bodies w result.1) (hgets : Gets w result.1 answers)
    (hreturns : method.Returns self answers result.2) :
    Accounted env (World.returning self method result) := by
  obtain ⟨u, htrace, hu⟩ := grows_unmarked hacts.grows
  rw [Gets, htrace] at hgets
  refine ⟨hacts.wired.emit _, ?_, ?_⟩
  · rw [returning_trace, htrace]
    refine (atEach_append _ _ _).2 ⟨atEach_unmarked hw.returned hu, (atEach_singleton _ _).2 ?_⟩
    rintro client method' rc heq
    cases heq
    rw [List.append_nil]
    exact ⟨_, answers, answersSince_of_gets hgets hu, hw.farewell.append hu, hreturns⟩
  · rw [returning_trace, answersSince, sinceLast_concat_mark rfl, List.filterMap_nil]
    exact Or.inl rfl

theorem Accounted.run (hw : Accounted env w) {op : Operation} (h : op.run env self w = some w') :
    Accounted env w' := by
  rcases operation_returns hw.wired h with ⟨method, result, answers, hacts, hgets, hreturns, rfl⟩ |
    ⟨hacts | htrace, hgets⟩
  · exact hw.returning hacts hgets hreturns
  · obtain ⟨u, htrace, hu⟩ := grows_unmarked hacts.grows
    exact hw.quiet (hw.wired.run h) htrace hu hgets
  · exact hw.quiet (hw.wired.run h) (by rw [htrace, List.append_nil]) (by simp [Unmarked]) hgets

/-- An event of its own that is no call and no mark. -/
theorem Accounted.emit (hw : Accounted env w) {e : Event} (hcall : e.isCall = false)
    (hmark : e.isMark = false) : Accounted env (w.emit [e]) :=
  hw.quiet (hw.wired.emit [e]) (World.emit_trace w [e]) (by simpa [Unmarked] using hmark)
    (Silent.emit w (by simpa using hcall)).gets

/-- Where a `dealloc` begins, no answer waits. -/
theorem Accounted.gone (hw : Accounted env w) (object : Obj) :
    Accounted env (w.emit [.dealloc object]) ∧
      answersSince (w.emit [.dealloc object]).trace = [] ∧
      lastMark (w.emit [.dealloc object]).trace = some (.dealloc object) := by
  have hsince : answersSince (w.emit [.dealloc object]).trace = [] := by
    rw [World.emit_trace, answersSince, sinceLast_concat_mark rfl, List.filterMap_nil]
  refine ⟨⟨hw.wired.emit _, ?_, Or.inl hsince⟩, hsince, ?_⟩
  · refine (atEach_append _ _ _).2 ⟨hw.returned, (atEach_singleton _ _).2 ?_⟩
    rintro client method rc ⟨⟩
  · rw [World.emit_trace, lastMark, List.filter_append]
    exact List.getLast?_concat

theorem Accounted.dealloc (hw : Accounted env w) (object : Obj) :
    Accounted env (w.dealloc env object) := by
  obtain ⟨hgone, hsince, hmark⟩ := hw.gone object
  cases object with
  | client client =>
      have hacts : World.Acts env client [.disconnect] (w.emit [.dealloc (.client client)]) _ :=
        World.acts_disconnect hgone.wired
      obtain ⟨u, htrace, hu⟩ := grows_unmarked hacts.grows
      obtain ⟨answers, hgets, htaken⟩ := gets_disconnect env client (w.emit [.dealloc (.client client)])
      rw [Gets, htrace] at hgets
      rw [World.dealloc, World.deallocClient]
      refine ⟨hacts.wired, ?_, ?_⟩
      · rw [htrace]
        exact atEach_unmarked hgone.returned hu
      · rw [htrace, answersSince_of_gets hgets hu, hsince, List.nil_append]
        exact Or.inr ⟨client, (lastMark_append hu).trans hmark, htaken⟩
  | _ => exact hgone

theorem Accounted.step {s s' : Session} {e : SessionStep} (hs : Accounted env s.world)
    (h : s.step env e = some s') : Accounted env s'.world := by
  refine Session.step_invariant h (fun w hw => ?_) (fun w object _ hw => hw.dealloc object)
    fun w d hw => hw.emit rfl rfl
  cases e with
  | operation client op => exact hs.run hw
  | setSSLOption ssl setter =>
      cases hw
      exact ⟨hs.wired.setSSLOption ssl setter, hs.returned, hs.farewell⟩
  | enter d =>
      cases hw
      exact hs.emit rfl rfl
  | _ =>
      cases hw
      exact hs

/-- **No failure of a script is swallowed.** In every session, whatever the library answers, each
method that returns hands out the code of the first call of its script that failed, behind which it
has made no other than the destruction of the handle, or success when all calls of the script were
made and succeeded. -/
theorem methods_return_answers (env : Env) (objects : List Obj) (clientIDs : ClientId → NSString)
    (delegates : ClientId → Option Delegate) (steps : List SessionStep) {s : Session}
    (hrun : runFrom (Session.step env) (Session.initial objects clientIDs delegates) steps = some s) :
    AtEach ReturnsAnswers s.world.trace := by
  have hinitial : Accounted env (Session.initial objects clientIDs delegates).world :=
    ⟨World.wired_initial env clientIDs delegates, atEach_nil _, Or.inl rfl⟩
  have hfinal := runFrom_invariant (I := fun s : Session => Accounted env s.world)
    (fun s e s' hs h => hs.step h) hinitial hrun
  exact hfinal.returned

/-- A library that refuses the callbacks of every client. -/
def refusingEnv : Env where
  reply t c := { obligingEnv.reply t c with rc := if c.kind = .setCallbacks then -1 else 0 }
  enableSSLConnection := true

/-- The connect of a client whose callbacks are refused, and a look at its connection. -/
theorem methods_return_refusal :
    ∃ s, runFrom (Session.step refusingEnv)
        (Session.initial [.client 0] (fun _ => "c") fun _ => some 0)
        [.operation 0 (.connect none none none), .operation 0 .isConnected] = some s ∧
      .returned 0 .connect (-1) ∈ s.world.trace ∧ AtEach ReturnsAnswers s.world.trace := by
  have hrun : runFrom (Session.step refusingEnv)
      (Session.initial [.client 0] (fun _ => "c") fun _ => some 0)
      [.operation 0 (.connect none none none), .operation 0 .isConnected] = some _ := rfl
  refine ⟨_, hrun, ?_, methods_return_answers refusingEnv _ _ _ _ hrun⟩
  exact List.mem_of_getElem? (i := 4) rfl

end CocoaPaho
