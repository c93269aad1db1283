import CocoaPaho.ClientLifecycle

/-!
The routing of completions. Any number of clients make requests, and the library invokes completions
in any order and at any time, within its calls or between them, also while another callback runs. A
completion that was registered by a request reaches the delegate of the client that made the request,
as the outcome of the action of that request.
-/

namespace CocoaPaho

open Base

/-- An action of the application, or the library entering or leaving a callback. -/
inductive Step where
  | act (action : Action)
  | enter (d : Dispatch)
  | leave (d : Dispatch)

def World.step (env : Env) (w : World) : Step → Option World
  | .act action => w.act env action
  | .enter d => some (w.enter d)
  | .leave d => some (w.leave d)

/-- The action a method requests. -/
def Method.action : Method → Option PahoAction
  | connect => some .connection
  | disconnect => some .disconnect
  | subscribe => some .subscribe
  | subscribeTopics => some .subscribe
  | unsubscribeTopic => some .unsubscribe
  | unsubscribeTopics => some .unsubscribe
  | publish => some .publish
  | isConnected => none

def SuccessFn.action : SuccessFn → PahoAction
  | onConnectionSuccess => .connection
  | onSubscribeSuccess => .subscribe
  | onUnsubscribeSuccess => .unsubscribe
  | onPublishSuccess => .publish
  | onDisconnectSuccess => .disconnect

def FailureFn.action : FailureFn → PahoAction
  | onConnectionFailue => .connection
  | onSubscribeFailue => .subscribe
  | onUnsubscribeFailue => .unsubscribe
  | onPublishFailue => .publish
  | onDisconnectFailue => .disconnect

/-- The outcome a completion brings: whether the request succeeded, and its token. -/
def Invocation.outcome : Invocation → Option (Bool × ℤ)
  | success _ response => some (true, response.token)
  | failure _ response => some (false, response.token)
  | _ => none

section Callback

variable {clients : ClientId → PahoClient} {client : ClientId} {delegate : Delegate}
  {ssls : SSLId → PahoSSLOptions}

end Callback

/-- What routing rests on: calls register the callbacks of their method for their client, a callback
ran with the delegates, and a token written out is the one of a publish. -/
def Event.Routed (delegates : ClientId → Delegate) (t : List Event) : Event → Prop
  | .call client method c _ => ∀ p ∈ c.registered,
      (p.1 = some (.client client) ∧ p.2 ∈ method.callbacks) ∨ p.2 = .sslErrorCb ∨ p.2 = .sslPSKCb
  | .enter d result => ∃ (clients : ClientId → PahoClient) (ssls : SSLId → PahoSSLOptions),
      (∀ i, (clients i).delegate = some (delegates i)) ∧
        result = runCallback clients d.context ssls d.invocation
  | .tokenOut source token => ∃ client c r,
      t[source]? = some (.call client .publish c r) ∧ token = r.token
  | _ => True

def RoutedHistory (delegates : ClientId → Delegate) (t : List Event) : Prop :=
  ∀ e ∈ t, e.Routed delegates t

def Event.isPublish : Event → Bool
  | .call _ .publish _ _ => true
  | _ => false

/-- The token of every publish has been written out. -/
def TokensWritten (t : List Event) : Prop :=
  ∀ k client c r, t[k]? = some (.call client .publish c r) → .tokenOut k r.token ∈ t

variable {env : Env} {self : ClientId} {w w' : World} {delegates : ClientId → Delegate}
  {t u : List Event}

theorem getElem?_append_of_some {k : ℕ} {e : Event} (h : t[k]? = some e) (u : List Event) :
    (t ++ u)[k]? = some e := by
  rw [List.getElem?_append_left (List.getElem?_eq_some_iff.1 h).1, h]

theorem Event.Routed.append {e : Event} (h : e.Routed delegates t) (u : List Event) :
    e.Routed delegates (t ++ u) := by
  cases e with
  | tokenOut source token =>
      obtain ⟨client, c, r, hcall, htoken⟩ := h
      exact ⟨client, c, r, getElem?_append_of_some hcall u, htoken⟩
  | _ => exact h

theorem RoutedHistory.append (ht : RoutedHistory delegates t)
    (hu : ∀ e ∈ u, e.Routed delegates t) : RoutedHistory delegates (t ++ u) := by
  intro e he
  rcases List.mem_append.1 he with he | he
  · exact (ht e he).append u
  · exact (hu e he).append u

theorem TokensWritten.append (ht : TokensWritten t) (hu : ∀ e ∈ u, e.isPublish = false) :
    TokensWritten (t ++ u) := by
  intro k client c r hcall
  by_cases hk : k < t.length
  · rw [List.getElem?_append_left hk] at hcall
    exact List.mem_append_left u (ht k client c r hcall)
  · rw [List.getElem?_append_right (Nat.le_of_not_lt hk)] at hcall
    exact absurd (hu _ (List.mem_of_getElem? hcall)) Bool.noConfusion

theorem routed_answer (hdelegates : ∀ i, (w.clients i).delegate = some (delegates i))
    {method : Method} {c : LibCall} (hmade : w.CallMade self method c) (t : List Event) :
    ∀ e ∈ w.answer env self method c t, e.Routed delegates t := by
  intro e he
  rcases List.mem_cons.1 he with rfl | he
  · intro p hp
    rcases hmade.registered p hp with hclient | ⟨_, _, _, hssl⟩
    · exact Or.inl hclient
    · exact Or.inr hssl
  · obtain ⟨d, -, rfl | rfl⟩ := World.mem_window he
    · exact ⟨w.clients, w.ssls, hdelegates, rfl⟩
    · trivial

theorem isPublish_answer {method : Method} (hmethod : method ≠ .publish) (c : LibCall)
    (t : List Event) : ∀ e ∈ w.answer env self method c t, e.isPublish = false := by
  intro e he
  rcases List.mem_cons.1 he with rfl | he
  · cases method <;> first | rfl | exact absurd rfl hmethod
  · obtain ⟨d, -, rfl | rfl⟩ := World.mem_window he <;> rfl

theorem routedHistory_grows {methods : List Method}
    (hdelegates : ∀ i, (w.clients i).delegate = some (delegates i))
    (h : w.Grows env self methods t u) (ht : RoutedHistory delegates t) :
    RoutedHistory delegates u := by
  refine h.invariant ht (fun v method c hv _ hmade => hv.append (routed_answer hdelegates hmade v))
    fun v e hv he => hv.append ?_
  rw [List.forall_mem_singleton]
  cases he with
  | malloc address => trivial
  | free address => trivial
  | tokenOut source c r hcall => exact ⟨self, c, r, hcall, rfl⟩

theorem tokensWritten_grows {methods : List Method} (hmethods : .publish ∉ methods)
    (h : w.Grows env self methods t u) (ht : TokensWritten t) : TokensWritten u := by
  refine h.invariant ht (fun v method c hv hmethod _ => hv.append (isPublish_answer ?_ c v))
    fun v e hv he => hv.append ?_
  · rintro rfl
    exact hmethods hmethod
  · rw [List.forall_mem_singleton]
    cases he <;> rfl

/-- A publish writes its token out before it returns. -/
theorem tokensWritten_publish {message : PahoPublishedMessage} {properties : PahoProperties}
    {result : World × ℤ} (hresult : w.publish env self message properties = some result)
    (ht : TokensWritten w.trace) : TokensWritten result.1.trace := by
  obtain ⟨lenString, -, hresult⟩ := Option.bind_eq_some_iff.1 hresult
  obtain ⟨props, -, rfl⟩ := Option.map_eq_some_iff.1 hresult
  dsimp only
  rw [World.emit_trace, World.call, World.emit_trace, World.answer, List.append_assoc]
  generalize LibCall.sendMessage _ _ _ _ = c
  intro k client c' r hcall
  by_cases hk : k < w.trace.length
  · rw [List.getElem?_append_left hk] at hcall
    exact List.mem_append_left _ (ht k client c' r hcall)
  · rw [List.getElem?_append_right (Nat.le_of_not_lt hk), List.cons_append] at hcall
    cases hsub : k - w.trace.length with
    | zero =>
        have heq : k = w.trace.length := by omega
        rw [hsub, List.getElem?_cons_zero] at hcall
        cases hcall
        rw [heq]
        simp
    | succ n =>
        rw [hsub, List.getElem?_cons_succ] at hcall
        rcases List.mem_append.1 (List.mem_of_getElem? hcall) with hmem | hmem
        · obtain ⟨d, -, heq | heq⟩ := World.mem_window hmem <;> cases heq
        · simp at hmem

/-- What holds between steps. -/
structure Routing (env : Env) (delegates : ClientId → Delegate) (w : World) : Prop where
  wired : w.Wired env
  delegate : ∀ i, (w.clients i).delegate = some (delegates i)
  history : RoutedHistory delegates w.trace
  tokens : TokensWritten w.trace

theorem Routing.emit (hw : Routing env delegates w) {e : Event} (he : e.Routed delegates w.trace)
    (hpublish : e.isPublish = false) : Routing env delegates (w.emit [e]) where
  wired := ⟨hw.wired.clients, hw.wired.ssls⟩
  delegate := hw.delegate
  history := hw.history.append (List.forall_mem_singleton.2 he)
  tokens := hw.tokens.append (List.forall_mem_singleton.2 hpublish)

/-- The body of a method; of a publish the tokens are looked after apart. -/
theorem Routing.acts (hw : Routing env delegates w) {methods : List Method}
    (h : World.Acts env self methods w w') (htokens : TokensWritten w'.trace) :
    Routing env delegates w' where
  wired := h.wired
  delegate := fun i => (h.delegates i).trans (hw.delegate i)
  history := routedHistory_grows hw.delegate h.grows hw.history
  tokens := htokens

theorem Routing.run (hw : Routing env delegates w) {op : Operation}
    (h : op.run env self w = some w') : Routing env delegates w' := by
  by_cases hpublish : op.method = some .publish
  · cases op with
    | publish message properties =>
        obtain ⟨result, hresult, rfl⟩ := Option.map_eq_some_iff.1 h
        have hacts : World.Acts env self [.publish] w result.1 :=
          (World.does_publish hresult).acts hw.wired (by simp [Method.calls])
        exact (hw.acts hacts (tokensWritten_publish hresult hw.tokens)).emit trivial rfl
    | _ => cases hpublish
  · rcases World.run_cases hw.wired h with ⟨method, result, hmethod, hacts, rfl⟩ | ⟨-, hacts⟩ |
      ⟨ssl, rfl, rfl⟩
    · have hbodies : Method.publish ∉ method.bodies := by
        rw [hmethod] at hpublish
        cases method <;> simp [Method.bodies] at hpublish ⊢
      exact (hw.acts hacts (tokensWritten_grows hbodies hacts.grows hw.tokens)).emit trivial rfl
    · exact hw.acts hacts (tokensWritten_grows (by simp) hacts.grows hw.tokens)
    · refine ⟨hw.wired.setSSL self ssl, fun i => ?_, hw.history, hw.tokens⟩
      by_cases hi : i = self
      · subst hi
        rw [World.modify_self]
        exact hw.delegate i
      · rw [World.modify_of_ne w hi]
        exact hw.delegate i

theorem Routing.step (hw : Routing env delegates w) {step : Step} (h : w.step env step = some w') :
    Routing env delegates w' := by
  cases step with
  | act action =>
      cases action with
      | operation client op => exact hw.run h
      | setSSLOption ssl setter =>
          have hwired := hw.wired.setSSLOption ssl setter
          cases h
          exact ⟨hwired, hw.delegate, hw.history, hw.tokens⟩
  | enter d =>
      cases h
      exact hw.emit ⟨w.clients, w.ssls, hw.delegate, rfl⟩ rfl
  | leave d =>
      cases h
      exact hw.emit trivial rfl

end CocoaPaho
