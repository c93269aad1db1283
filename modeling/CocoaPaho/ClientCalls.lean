import CocoaPaho.ClientMethods

/-!
What the methods of a client do to the world, whatever the library answers: they touch no other
client and no options object, they keep the wiring of the client to its callbacks, and they add to
the history calls of the kinds of the method, each followed by the callbacks in its window. A call
registers the callbacks of the method with the client as context, a connect also those of the
client's options object.
-/

namespace CocoaPaho

open Base

inductive CallKind where
  | create
  | setConnected
  | setCallbacks
  | connect
  | request
  | disconnect
  | destroy
  deriving DecidableEq

def LibCall.kind : LibCall → CallKind
  | createWithOptions _ _ => .create
  | setConnected _ _ _ => .setConnected
  | setCallbacks _ _ _ _ => .setCallbacks
  | connect _ _ => .connect
  | disconnect _ _ => .disconnect
  | destroy _ => .destroy
  | isConnected _ => .request
  | subscribe _ _ _ _ => .request
  | subscribeMany _ _ _ _ _ => .request
  | unsubscribe _ _ _ => .request
  | unsubscribeMany _ _ _ _ => .request
  | sendMessage _ _ _ _ => .request

/-- The kinds of the calls in the body of a method. -/
def Method.kinds : Method → List CallKind
  | connect => [.create, .setConnected, .setCallbacks, .connect, .destroy]
  | disconnect => [.disconnect, .destroy]
  | _ => [.request]

/-- The methods whose bodies are run by a method: a connect disconnects first. -/
def Method.bodies : Method → List Method
  | connect => [.disconnect, .connect]
  | method => [method]

/-- The functions a method registers for its client. -/
def Method.callbacks : Method → List CallbackFn
  | connect => [.onConnectionConnected, .onConnectionLost, .onMessageArrived,
      .success .onConnectionSuccess, .failure .onConnectionFailue]
  | disconnect => [.success .onDisconnectSuccess, .failure .onDisconnectFailue]
  | subscribe => [.success .onSubscribeSuccess, .failure .onSubscribeFailue]
  | subscribeTopics => [.success .onSubscribeSuccess, .failure .onSubscribeFailue]
  | unsubscribeTopic => [.success .onUnsubscribeSuccess, .failure .onUnsubscribeFailue]
  | unsubscribeTopics => []
  | publish => [.success .onPublishSuccess, .failure .onPublishFailue]
  | isConnected => []

/-- The connect options hold the client as context, with the two connection functions, and no SSL
structure in a build without SSL. -/
structure PahoClient.Wired (env : Env) (client : ClientId) (c : PahoClient) : Prop where
  context : c.connectOpts.context = some (.client client)
  onSuccess5 : c.connectOpts.onSuccess5 = some .onConnectionSuccess
  onFailure5 : c.connectOpts.onFailure5 = some .onConnectionFailue
  ssl : env.enableSSLConnection = false → c.connectOpts.ssl = none

theorem PahoClient.Wired.set {env : Env} {self : ClientId} {c : PahoClient} (h : c.Wired env self)
    (setter : ClientSetter) : (setter.apply c).Wired env self := by
  cases setter <;> exact ⟨h.context, h.onSuccess5, h.onFailure5, h.ssl⟩

theorem ClientSetter.apply_frame (setter : ClientSetter) (c : PahoClient) :
    (setter.apply c).delegate = c.delegate ∧ (setter.apply c).ssl = c.ssl ∧
      (setter.apply c).mqttAsyncHandle = c.mqttAsyncHandle := by
  cases setter <;> exact ⟨rfl, rfl, rfl⟩

/-- Callbacks depend on the clients through their delegates only. -/
theorem runCallback_congr {clients clients' : ClientId → PahoClient}
    (h : ∀ i, (clients i).delegate = (clients' i).delegate) (context : Context)
    (ssls : SSLId → PahoSSLOptions) (invocation : Invocation) :
    runCallback clients context ssls invocation = runCallback clients' context ssls invocation := by
  have hdelegate : ∀ client message,
      toDelegate clients client message = toDelegate clients' client message := by
    intro client message
    rw [toDelegate, toDelegate, h]
  have hsuccess : ∀ action response, onActionSuccess clients context action response =
      onActionSuccess clients' context action response := by
    intro action response
    simp only [onActionSuccess, hdelegate]
  have hfailure : ∀ action response, onActionFailue clients context action response =
      onActionFailue clients' context action response := by
    intro action response
    simp only [onActionFailue, hdelegate]
  cases invocation with
  | onConnectionConnected cause => simp only [runCallback, onConnectionConnected, hdelegate]
  | onConnectionLost cause => simp only [runCallback, onConnectionLost, hdelegate]
  | onMessageArrived arrival answer => simp only [runCallback, onMessageArrived, hdelegate, h]
  | success fn response => cases fn <;> exact hsuccess _ response
  | failure fn response => cases fn <;> exact hfailure _ response
  | sslErrorCb str => rfl
  | sslPSKCb hint maxIdentityLen maxPskLen => rfl

namespace World

/-- Every client and every options object is wired to its own callbacks. -/
structure Wired (env : Env) (w : World) : Prop where
  clients : ∀ i, (w.clients i).Wired env i
  ssls : ∀ j, (w.ssls j).sslOpts.Bridges j

/-- The calls in the body of a method, and the callbacks they register: those of the method for the
client, or those of the client's options object. -/
structure CallMade (w : World) (client : ClientId) (method : Method) (c : LibCall) : Prop where
  kind : c.kind ∈ method.kinds
  registered : ∀ p ∈ c.registered, (p.1 = some (.client client) ∧ p.2 ∈ method.callbacks) ∨
    ∃ ssl, (w.clients client).ssl = some ssl ∧ p.1 = some (.ssl ssl) ∧
      (p.2 = .sslErrorCb ∨ p.2 = .sslPSKCb)

/-- The events in the body of a method that are no calls and no callbacks. A token is written for a
publish that is in the history. -/
inductive Plain (self : ClientId) (t : List Event) : Event → Prop where
  | malloc (address : ℕ) : Plain self t (.malloc address)
  | free (address : ℕ) : Plain self t (.free address)
  | tokenOut (source : ℕ) (c : LibCall) (r : Reply)
      (h : t[source]? = some (.call self .publish c r)) : Plain self t (.tokenOut source r.token)

/-- What the bodies of methods of a client add to a history: calls, each followed by the callbacks in
its window, and plain events. -/
inductive Grows (env : Env) (w : World) (self : ClientId) (methods : List Method)
    (t : List Event) : List Event → Prop where
  | refl : Grows env w self methods t t
  | call {u : List Event} (method : Method) (c : LibCall) (h : Grows env w self methods t u)
      (hmethod : method ∈ methods) (hmade : w.CallMade self method c) :
      Grows env w self methods t (u ++ w.answer env self method c u)
  | plain {u : List Event} (e : Event) (h : Grows env w self methods t u) (he : Plain self u e) :
      Grows env w self methods t (u ++ [e])

/-- What the bodies of methods of a client do to a world. -/
structure Acts (env : Env) (client : ClientId) (methods : List Method) (w w' : World) : Prop where
  wired : w'.Wired env
  ssls : w'.ssls = w.ssls
  others : ∀ i, i ≠ client → w'.clients i = w.clients i
  delegate : (w'.clients client).delegate = (w.clients client).delegate
  ssl : (w'.clients client).ssl = (w.clients client).ssl
  grows : w.Grows env client methods w.trace w'.trace

variable {env : Env} {self : ClientId} {methods : List Method} {w w' w'' : World}
  {t u v : List Event}

/-- A property of histories that calls and plain events keep is kept by the bodies of methods. -/
theorem Grows.invariant {J : List Event → Prop} (h : w.Grows env self methods t u) (hJ : J t)
    (hcall : ∀ v method c, J v → method ∈ methods → w.CallMade self method c →
      J (v ++ w.answer env self method c v))
    (hplain : ∀ v e, J v → Plain self v e → J (v ++ [e])) : J u := by
  induction h with
  | refl => exact hJ
  | call method c _ hmethod hmade ih => exact hcall _ method c ih hmethod hmade
  | plain e _ he ih => exact hplain _ e ih he

theorem Grows.trans (h : w.Grows env self methods t u) (h' : w.Grows env self methods u v) :
    w.Grows env self methods t v := by
  induction h' with
  | refl => exact h
  | call method c _ hmethod hmade ih => exact .call method c ih hmethod hmade
  | plain e _ he ih => exact .plain e ih he

theorem Grows.isPrefix (h : w.Grows env self methods t u) : t <+: u := by
  induction h with
  | refl => exact List.prefix_rfl
  | call method c _ _ _ ih => exact ih.trans (List.prefix_append _ _)
  | plain e _ _ ih => exact ih.trans (List.prefix_append _ _)

theorem Acts.delegates (h : Acts env self methods w w') (i : ClientId) :
    (w'.clients i).delegate = (w.clients i).delegate := by
  by_cases hi : i = self
  · rw [hi, h.delegate]
  · rw [h.others i hi]

theorem Acts.ssl_eq (h : Acts env self methods w w') (i : ClientId) :
    (w'.clients i).ssl = (w.clients i).ssl := by
  by_cases hi : i = self
  · rw [hi, h.ssl]
  · rw [h.others i hi]

theorem Acts.answer_eq (h : Acts env self methods w w') (method : Method) (c : LibCall)
    (t : List Event) : w'.answer env self method c t = w.answer env self method c t := by
  have hdispatch : w'.dispatch = w.dispatch := by
    funext d
    rw [dispatch, dispatch, runCallback_congr h.delegates, h.ssls]
  rw [answer, answer, hdispatch]

/-- What is added to a history after the bodies of methods, said of the world before them. -/
theorem Grows.of_acts {methods' : List Method} (h : Acts env self methods w w')
    (hgrows : w'.Grows env self methods' t u) : w.Grows env self methods' t u := by
  induction hgrows with
  | refl => exact .refl
  | call method c _ hmethod hmade ih =>
      rw [h.answer_eq]
      refine .call method c ih hmethod ⟨hmade.kind, ?_⟩
      rw [← h.ssl]
      exact hmade.registered
  | plain e _ he ih => exact .plain e ih he

theorem Acts.refl (self : ClientId) (methods : List Method) (hw : w.Wired env) :
    Acts env self methods w w where
  wired := hw
  ssls := rfl
  others := fun _ _ => rfl
  delegate := rfl
  ssl := rfl
  grows := .refl

theorem Acts.trans (h : Acts env self methods w w') (h' : Acts env self methods w' w'') :
    Acts env self methods w w'' where
  wired := h'.wired
  ssls := h'.ssls.trans h.ssls
  others := fun i hi => (h'.others i hi).trans (h.others i hi)
  delegate := h'.delegate.trans h.delegate
  ssl := h'.ssl.trans h.ssl
  grows := h.grows.trans (h'.grows.of_acts h)

/-- An event or a call at the end of the history. -/
theorem Acts.grow (h : Acts env self methods w w') {events : List Event}
    (he : w'.Grows env self methods w'.trace (w'.trace ++ events)) :
    Acts env self methods w (w'.emit events) :=
  h.trans
    { wired := ⟨h.wired.clients, h.wired.ssls⟩
      ssls := rfl
      others := fun _ _ => rfl
      delegate := rfl
      ssl := rfl
      grows := he }

theorem Acts.plain (h : Acts env self methods w w') {e : Event} (he : Plain self w'.trace e) :
    Acts env self methods w (w'.emit [e]) := h.grow (.plain e .refl he)

theorem Wired.modify (hw : w.Wired env) {f : PahoClient → PahoClient}
    (hf : ∀ c : PahoClient, c.Wired env self → (f c).Wired env self) :
    (w.modify self f).Wired env := by
  refine ⟨fun i => ?_, hw.ssls⟩
  by_cases hi : i = self
  · subst hi
    rw [modify_self]
    exact hf _ (hw.clients i)
  · rw [modify_of_ne w hi]
    exact hw.clients i

theorem Acts.modify (h : Acts env self methods w w') {f : PahoClient → PahoClient}
    (hwired : ∀ c : PahoClient, c.Wired env self → (f c).Wired env self)
    (hdelegate : ∀ c, (f c).delegate = c.delegate) (hssl : ∀ c, (f c).ssl = c.ssl) :
    Acts env self methods w (w'.modify self f) :=
  h.trans
    { wired := h.wired.modify hwired
      ssls := rfl
      others := fun i hi => modify_of_ne w' hi f
      delegate := by rw [modify_self, hdelegate]
      ssl := by rw [modify_self, hssl]
      grows := .refl }

theorem Acts.set (h : Acts env self methods w w') (setter : ClientSetter) :
    Acts env self methods w (w'.modify self setter.apply) :=
  h.modify (fun _ hwired => hwired.set setter) (fun c => (setter.apply_frame c).1)
    fun c => (setter.apply_frame c).2.1

theorem Acts.call (h : Acts env self methods w w') {method : Method} {c : LibCall}
    (hmethod : method ∈ methods) (hc : w'.CallMade self method c) :
    Acts env self methods w (w'.call env self method c).1 := h.grow (.call method c .refl hmethod hc)

theorem callMade_of_registered_eq_nil {method : Method} {c : LibCall} (hkind : c.kind ∈ method.kinds)
    (h : c.registered = []) : w.CallMade self method c := by
  refine ⟨hkind, fun p hp => ?_⟩
  rw [h] at hp
  cases hp

theorem callMade_of_forall {method : Method} {c : LibCall} (hkind : c.kind ∈ method.kinds)
    (h : ∀ p ∈ c.registered, p.1 = some (.client self) ∧ p.2 ∈ method.callbacks) :
    w.CallMade self method c := ⟨hkind, fun p hp => Or.inl (h p hp)⟩

end World

end CocoaPaho
