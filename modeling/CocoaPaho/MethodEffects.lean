import CocoaPaho.ClientCalls

/-!
What each method may do, said once: the calls it makes, and the parts of its client it assigns to. The
methods are walked through here, from call to call and from assignment to assignment; that others keep
what they keep follows from the calls and the parts.
-/

namespace CocoaPaho

open Base

/-- The calls in the body of a method. -/
def Method.calls (method : Method) : List (Method × CallKind) := method.kinds.map (method, ·)

/-- What methods assign to in a client. -/
inductive ClientPart where
  | handle
  | credentials
  /-- The members of the connect options that are filled in for an attempt. -/
  | attempt
  | serverURIs
  deriving DecidableEq

/-- The parts of the client a method assigns to. -/
def Method.parts : Method → List ClientPart
  | connect => [.handle, .credentials, .attempt]
  | disconnect => [.handle]
  | _ => []

def PahoClient.without (c : PahoClient) : ClientPart → PahoClient
  | .handle => { c with mqttAsyncHandle := none }
  | .credentials =>
    { c with
      username := none
      password := none
      connectOpts := { c.connectOpts with username := none, password := none } }
  | .attempt => { c with connectOpts := { c.connectOpts with ssl := none, connectProperties := none } }
  | .serverURIs =>
    { c with serverURIs := none, connectOpts := { c.connectOpts with serverURIs := none } }

/-- Who looks at none of some parts sees the same in two clients. -/
def PahoClient.SameBut (parts : List ClientPart) (c c' : PahoClient) : Prop :=
  ∀ {α : Type} (look : PahoClient → α),
    (∀ part ∈ parts, ∀ c : PahoClient, look (c.without part) = look c) → look c' = look c

theorem PahoClient.SameBut.of_without {parts : List ClientPart} {part : ClientPart} {c c' : PahoClient}
    (hpart : part ∈ parts) (h : c'.without part = c.without part) : c.SameBut parts c' := by
  intro α look hlook
  rw [← hlook part hpart c', h, hlook part hpart c]

/-- The wiring survives an assignment to a part that keeps the SSL structure of the options. -/
theorem PahoClient.Wired.of_without {env : Env} {self : ClientId} {c c' : PahoClient}
    {part : ClientPart} (hc : c.Wired env self) (h : c'.without part = c.without part)
    (hssl : c'.connectOpts.ssl = c.connectOpts.ssl) : c'.Wired env self := by
  have hkept : ∀ c : PahoClient, (c.without part).connectOpts.context = c.connectOpts.context ∧
      (c.without part).connectOpts.onSuccess5 = c.connectOpts.onSuccess5 ∧
      (c.without part).connectOpts.onFailure5 = c.connectOpts.onFailure5 := by
    intro c
    cases part <;> exact ⟨rfl, rfl, rfl⟩
  refine ⟨?_, ?_, ?_, ?_⟩
  · rw [← (hkept c').1, h, (hkept c).1, hc.context]
  · rw [← (hkept c').2.1, h, (hkept c).2.1, hc.onSuccess5]
  · rw [← (hkept c').2.2, h, (hkept c).2.2, hc.onFailure5]
  · exact fun hdisable => hssl.trans (hc.ssl hdisable)

namespace World

variable {env : Env} {self : ClientId} {methods : List Method} {w w' : World}

/-- What parts of methods do, on the way from a world: calls, notes that are no calls, and assignments
to some parts of the client. -/
inductive Does (env : Env) (self : ClientId) (calls : List (Method × CallKind))
    (parts : List ClientPart) (w : World) : World → Prop where
  | refl : Does env self calls parts w w
  | call {w' : World} (method : Method) (c : LibCall) (h : Does env self calls parts w w')
      (hcall : (method, c.kind) ∈ calls) (hmade : w'.Wired env → w'.CallMade self method c) :
      Does env self calls parts w (w'.call env self method c).1
  | plain {w' : World} (e : Event) (h : Does env self calls parts w w')
      (he : Plain self w'.trace e) : Does env self calls parts w (w'.emit [e])
  | assign {w' : World} (f : PahoClient → PahoClient) (h : Does env self calls parts w w')
      (hsame : ∀ c : PahoClient, c.SameBut parts (f c))
      (hwired : ∀ c : PahoClient, c.Wired env self → (f c).Wired env self) :
      Does env self calls parts w (w'.modify self f)

section Does

variable {calls : List (Method × CallKind)} {parts : List ClientPart}

theorem Does.sameBut (h : Does env self calls parts w w') (i : ClientId) :
    (w.clients i).SameBut parts (w'.clients i) := by
  intro α look hlook
  induction h with
  | refl => rfl
  | call _ _ _ _ _ ih => exact ih
  | plain _ _ _ ih => exact ih
  | @assign w' f _ hsame _ ih =>
      by_cases hi : i = self
      · rw [hi, modify_self, hsame _ look hlook, ← hi, ih]
      · rw [modify_of_ne w' hi, ih]

theorem Does.others (h : Does env self calls parts w w') {i : ClientId} (hi : i ≠ self) :
    w'.clients i = w.clients i := by
  induction h with
  | refl => rfl
  | call _ _ _ _ _ ih => exact ih
  | plain _ _ _ ih => exact ih
  | @assign w' f _ _ _ ih => rw [modify_of_ne w' hi, ih]

theorem Does.ssls (h : Does env self calls parts w w') : w'.ssls = w.ssls := by
  induction h with
  | refl => rfl
  | call _ _ _ _ _ ih => exact ih
  | plain _ _ _ ih => exact ih
  | assign _ _ _ _ ih => exact ih

theorem Does.acts (h : Does env self calls parts w w') (hw : w.Wired env)
    (hmethods : ∀ p ∈ calls, p.1 ∈ methods) : Acts env self methods w w' := by
  induction h with
  | refl => exact Acts.refl self methods hw
  | call method c _ hcall hmade ih => exact ih.call (hmethods _ hcall) (hmade ih.wired)
  | plain e _ he ih => exact ih.plain he
  | assign f _ hsame hwired ih =>
      have hkept : ∀ (part : ClientPart) (c : PahoClient),
          (c.without part).delegate = c.delegate ∧ (c.without part).ssl = c.ssl := by
        intro part c
        cases part <;> exact ⟨rfl, rfl⟩
      exact ih.modify hwired (fun c => hsame c _ fun part _ c => (hkept part c).1)
        fun c => hsame c _ fun part _ c => (hkept part c).2

theorem Does.wired (h : Does env self calls parts w w') (hw : w.Wired env) : w'.Wired env := by
  have hacts : Acts env self (calls.map Prod.fst) w w' :=
    h.acts hw fun _ hp => List.mem_map_of_mem hp
  exact hacts.wired

theorem Does.request (h : Does env self calls parts w w') {method : Method} {c : LibCall}
    (hcall : (method, c.kind) ∈ calls) (hmade : w'.CallMade self method c) :
    Does env self calls parts w (w'.request env self method c).1 :=
  .call method c h hcall fun _ => hmade

/-- An assignment to a part of the client that keeps the rest, and the SSL structure. -/
theorem Does.assign_part (h : Does env self calls parts w w') {part : ClientPart}
    (hpart : part ∈ parts) {f : PahoClient → PahoClient}
    (hf : ∀ c : PahoClient, (f c).without part = c.without part)
    (hssl : ∀ c : PahoClient, (f c).connectOpts.ssl = c.connectOpts.ssl) :
    Does env self calls parts w (w'.modify self f) :=
  .assign f h (fun c => PahoClient.SameBut.of_without hpart (hf c))
    fun c hwired => hwired.of_without (hf c) (hssl c)

theorem Does.destroy (h : Does env self calls parts w w') {method : Method}
    (hcall : (method, .destroy) ∈ calls) (hkind : .destroy ∈ method.kinds)
    (hpart : .handle ∈ parts) : Does env self calls parts w (w'.destroy env self method) := by
  unfold World.destroy
  refine Does.assign_part (h.request ?_ (callMade_of_registered_eq_nil ?_ rfl)) hpart ?_ ?_
  · exact hcall
  · exact hkind
  · exact fun _ => rfl
  · exact fun _ => rfl

theorem Does.disconnect (h : Does env self calls parts w w')
    (hcalls : Method.disconnect.calls ⊆ calls) (hpart : .handle ∈ parts) :
    Does env self calls parts w (w'.disconnect env self) := by
  unfold World.disconnect
  split
  · exact h
  · refine Does.destroy (h.request (hcalls ?_) (callMade_of_forall ?_ ?_)) (hcalls ?_) ?_ hpart
    · simp [LibCall.kind, Method.calls, Method.kinds]
    · simp [LibCall.kind, Method.kinds]
    · simp [LibCall.registered, LibCall.completions, Method.callbacks]
    · simp [Method.calls, Method.kinds]
    · simp [Method.kinds]

/-- `MQTTAsync_disconnect` as a client calls it. -/
def disconnectCall (client : ClientId) (handle : Handle) : LibCall :=
  .disconnect (some handle)
    { onSuccess5 := some .onDisconnectSuccess
      onFailure5 := some .onDisconnectFailue
      context := some (.client client) }

theorem disconnect_of_none (h : (w.clients self).mqttAsyncHandle = none) :
    w.disconnect env self = w := by
  rw [World.disconnect, h]

/-- A disconnect of a client with a handle makes two calls, one right after the other. -/
theorem disconnect_trace {handle : Handle} (h : (w.clients self).mqttAsyncHandle = some handle) :
    (w.disconnect env self).trace =
      (w.trace ++ w.answer env self .disconnect (disconnectCall self handle) w.trace) ++
        w.answer env self .disconnect (.destroy (some handle))
          (w.trace ++ w.answer env self .disconnect (disconnectCall self handle) w.trace) := by
  rw [World.disconnect, h]
  dsimp only
  rw [World.destroy, modify_trace]
  have hhandle : ((w.call env self .disconnect (disconnectCall self handle)).1.clients
      self).mqttAsyncHandle = some handle := h
  rw [← disconnectCall, hhandle]
  rfl

theorem Does.create (h : Does env self calls parts w w') (hcall : (.connect, .create) ∈ calls)
    (hpart : .handle ∈ parts) : Does env self calls parts w (w'.create env self).1 := by
  unfold World.create
  dsimp only
  refine Does.assign_part (h.request ?_ (callMade_of_registered_eq_nil ?_ rfl)) hpart ?_ ?_
  · exact hcall
  · simp [LibCall.kind, Method.kinds]
  · exact fun _ => rfl
  · exact fun _ => rfl

theorem Does.orDestroy {attempt : World × ℤ} {rest : World → World × ℤ}
    (h : Does env self calls parts w attempt.1) (hcall : (.connect, .destroy) ∈ calls)
    (hpart : .handle ∈ parts)
    (hrest : ∀ w₁, Does env self calls parts w w₁ → Does env self calls parts w (rest w₁).1) :
    Does env self calls parts w (World.orDestroy env self attempt rest).1 := by
  unfold World.orDestroy
  split_ifs
  · exact h.destroy hcall (by simp [Method.kinds]) hpart
  · exact hrest _ h

theorem Does.fillConnectOpts (h : Does env self calls parts w w') (hpart : .attempt ∈ parts)
    (userProperties : Option (NSDictionary PropertyObject)) :
    Does env self calls parts w (w'.fillConnectOpts env self userProperties) := by
  have hssl : Does env self calls parts w (if env.enableSSLConnection then
      w'.modify self fun c => { c with connectOpts := { c.connectOpts with
        ssl := (w'.clients self).ssl.map fun ssl => (w'.ssls ssl).sslOptions } } else w') := by
    split_ifs with henable
    · refine Does.assign _ h (fun _ => PahoClient.SameBut.of_without hpart ?_) ?_
      · rfl
      · exact fun _ hwired => ⟨hwired.context, hwired.onSuccess5, hwired.onFailure5,
          fun hdisable => by simp [henable] at hdisable⟩
    · exact h
  unfold World.fillConnectOpts
  dsimp only
  split
  · exact hssl
  · refine hssl.assign_part hpart ?_ ?_
    · exact fun _ => rfl
    · exact fun _ => rfl

theorem fillConnectOpts_ssl_of_enabled (henable : env.enableSSLConnection = true)
    (userProperties : Option (NSDictionary PropertyObject)) :
    ((w.fillConnectOpts env self userProperties).clients self).connectOpts.ssl =
      (w.clients self).ssl.map fun ssl => (w.ssls ssl).sslOptions := by
  unfold World.fillConnectOpts
  dsimp only
  rw [if_pos henable]
  split <;> simp

/-- The SSL structure of the filled options: a copy of the current options object's in a build with
SSL. -/
theorem fillConnectOpts_ssl (hw : w.Wired env)
    (userProperties : Option (NSDictionary PropertyObject)) :
    ((w.fillConnectOpts env self userProperties).clients self).connectOpts.ssl =
      if env.enableSSLConnection then
        (w.clients self).ssl.map fun ssl => (w.ssls ssl).sslOptions
      else none := by
  split_ifs with henable
  · exact fillConnectOpts_ssl_of_enabled henable userProperties
  · unfold World.fillConnectOpts
    dsimp only
    rw [if_neg henable]
    split <;> simp [(hw.clients self).ssl (by simpa using henable)]

/-- The call of `MQTTAsync_connect` registers the two connection functions, and the callbacks of the
current options object. -/
theorem callMade_connect (userProperties : Option (NSDictionary PropertyObject))
    (handle : Option Handle) (hw : (w.fillConnectOpts env self userProperties).Wired env) :
    (w.fillConnectOpts env self userProperties).CallMade self .connect
      (.connect handle ((w.fillConnectOpts env self userProperties).clients self).connectOpts) := by
  have hfilled : Does env self [] [.attempt] w (w.fillConnectOpts env self userProperties) :=
    Does.fillConnectOpts .refl (List.mem_singleton_self _) userProperties
  have hwired := hw.clients self
  refine ⟨by simp [LibCall.kind, Method.kinds], fun p hp => ?_⟩
  rw [LibCall.registered, List.mem_append] at hp
  rcases hp with hp | hp
  · left
    simp only [LibCall.completions, hwired.context, hwired.onSuccess5, hwired.onFailure5,
      Option.map_some, Option.toList_some, List.cons_append, List.nil_append, List.mem_cons,
      List.not_mem_nil, or_false] at hp
    rcases hp with rfl | rfl <;> simp [Method.callbacks]
  · right
    by_cases henable : env.enableSSLConnection = true
    · rw [fillConnectOpts_ssl_of_enabled henable] at hp
      cases hssl : (w.clients self).ssl with
      | none => simp [hssl] at hp
      | some ssl =>
          rw [hssl, Option.map_some, Option.map_some, Option.getD_some, ← hfilled.ssls] at hp
          refine ⟨ssl, (hfilled.sameBut self _ fun part _ c => ?_).trans hssl,
            (hw.ssls ssl).of_mem hp⟩
          cases part <;> rfl
    · rw [hwired.ssl (Bool.not_eq_true _ ▸ henable)] at hp
      simp at hp

theorem Does.setConnected (h : Does env self calls parts w w')
    (hcall : (.connect, .setConnected) ∈ calls) :
    Does env self calls parts w (w'.setConnected env self).1 := by
  refine h.request hcall (callMade_of_forall ?_ ?_)
  · simp [LibCall.kind, Method.kinds]
  · simp [LibCall.registered, Method.callbacks]

theorem Does.setCallbacks (h : Does env self calls parts w w')
    (hcall : (.connect, .setCallbacks) ∈ calls) :
    Does env self calls parts w (w'.setCallbacks env self).1 := by
  refine h.request hcall (callMade_of_forall ?_ ?_)
  · simp [LibCall.kind, Method.kinds]
  · simp [LibCall.registered, Method.callbacks]

theorem Does.sendConnect (h : Does env self calls parts w w') (hcall : (.connect, .connect) ∈ calls)
    (hpart : .attempt ∈ parts) (userProperties : Option (NSDictionary PropertyObject)) :
    Does env self calls parts w (w'.sendConnect env self userProperties).1 := by
  unfold World.sendConnect
  dsimp only
  refine Does.assign_part (.call .connect _ (h.fillConnectOpts hpart userProperties) ?_
    (callMade_connect userProperties _)) hpart ?_ ?_
  · exact hcall
  · exact fun _ => rfl
  · exact fun _ => rfl

/-- A client right before the calls of a connect: disconnected, with the credentials set. -/
def prepare (env : Env) (self : ClientId) (username password : Option NSString) (w : World) :
    World :=
  ((w.disconnect env self).modify self (PahoClient.setUsername username)).modify self
    (PahoClient.setPassword password)

theorem Does.prepare (h : Does env self calls parts w w') (hcalls : Method.disconnect.calls ⊆ calls)
    (hhandle : .handle ∈ parts) (hcredentials : .credentials ∈ parts)
    (username password : Option NSString) :
    Does env self calls parts w (w'.prepare env self username password) := by
  refine ((h.disconnect hcalls hhandle).assign_part hcredentials ?_ ?_).assign_part hcredentials ?_ ?_
  · exact fun _ => rfl
  · exact fun _ => rfl
  · exact fun _ => rfl
  · exact fun _ => rfl

/-- The rest of a connect, after the creation of the handle. -/
theorem Does.connectWithUsername {v : World} {username password : Option NSString}
    (h : Does env self calls parts v ((w.prepare env self username password).create env self).1)
    (hcalls : Method.connect.calls ⊆ calls) (hparts : Method.connect.parts ⊆ parts)
    (userProperties : Option (NSDictionary PropertyObject)) :
    Does env self calls parts v
      (w.connectWithUsername env self username password userProperties).1 := by
  have hcall : ∀ kind ∈ Method.connect.kinds, (.connect, kind) ∈ calls :=
    fun kind hkind => hcalls (List.mem_map_of_mem hkind)
  have hdestroy := hcall .destroy (by simp [Method.kinds])
  have hhandle : ClientPart.handle ∈ parts := hparts (by simp [Method.parts])
  have hattempt : ClientPart.attempt ∈ parts := hparts (by simp [Method.parts])
  refine Does.orDestroy h hdestroy hhandle fun w₁ h₁ => ?_
  refine Does.orDestroy (h₁.setConnected (hcall _ (by simp [Method.kinds]))) hdestroy hhandle
    fun w₂ h₂ => ?_
  refine Does.orDestroy (h₂.setCallbacks (hcall _ (by simp [Method.kinds]))) hdestroy hhandle
    fun w₃ h₃ => ?_
  exact Does.orDestroy (h₃.sendConnect (hcall _ (by simp [Method.kinds])) hattempt userProperties)
    hdestroy hhandle fun w₄ h₄ => h₄

theorem Does.malloc (h : Does env self calls parts w w') : Does env self calls parts w w'.malloc :=
  h.plain _ (.malloc _)

theorem Does.free (h : Does env self calls parts w w') (address : ℕ) :
    Does env self calls parts w (w'.free address) := h.plain _ (.free address)

theorem Does.strdup (h : Does env self calls parts w w') (strings : List CString) :
    Does env self calls parts w (w'.strdup strings).1 :=
  strdup_induction (P := Does env self calls parts w) (fun _ hv => hv.malloc) strings h

theorem Does.freeAll {α : Type} (h : Does env self calls parts w w') (buffers : List (Buffer α)) :
    Does env self calls parts w (w'.freeAll buffers) :=
  freeAll_induction (P := Does env self calls parts w) (fun _ address hv => hv.free address) buffers h

end Does

/-- A method makes a call of its own body. -/
theorem Does.own_request {method : Method} {parts : List ClientPart} {c : LibCall}
    (h : Does env self method.calls parts w w') (hmade : w'.CallMade self method c) :
    Does env self method.calls parts w (w'.request env self method c).1 :=
  h.request (List.mem_map_of_mem hmade.kind) hmade

theorem does_subscribe (topic : NSString) (qos : ℤ) :
    Does env self Method.subscribe.calls [] w (w.subscribe env self topic qos).1 := by
  refine Does.own_request .refl (callMade_of_forall ?_ ?_)
  · simp [LibCall.kind, Method.kinds]
  · simp [LibCall.registered, LibCall.completions, Method.callbacks]

theorem does_subscribeTopics (topics : List PahoTopic) :
    Does env self Method.subscribeTopics.calls [] w (w.subscribeTopics env self topics).1 := by
  refine Does.free (Does.freeAll (Does.own_request (Does.refl.malloc.malloc.strdup _)
    (callMade_of_forall ?_ ?_)) _) _
  · simp [LibCall.kind, Method.kinds]
  · simp [LibCall.registered, LibCall.completions, Method.callbacks]

theorem does_unsubscribeTopic (topic : NSString) :
    Does env self Method.unsubscribeTopic.calls [] w (w.unsubscribeTopic env self topic).1 := by
  refine Does.own_request .refl (callMade_of_forall ?_ ?_)
  · simp [LibCall.kind, Method.kinds]
  · simp [LibCall.registered, LibCall.completions, Method.callbacks]

theorem does_unsubscribeTopics (topics : List NSString) :
    Does env self Method.unsubscribeTopics.calls [] w (w.unsubscribeTopics env self topics).1 := by
  refine Does.free (Does.freeAll (Does.own_request (Does.refl.malloc.strdup _)
    (callMade_of_registered_eq_nil ?_ rfl)) _) _
  simp [LibCall.kind, Method.kinds]

theorem does_publish {message : PahoPublishedMessage} {properties : PahoProperties}
    {result : World × ℤ} (hresult : w.publish env self message properties = some result) :
    Does env self Method.publish.calls [] w result.1 := by
  obtain ⟨lenString, -, hresult⟩ := Option.bind_eq_some_iff.1 hresult
  obtain ⟨props, -, rfl⟩ := Option.map_eq_some_iff.1 hresult
  refine Does.plain _ (.call .publish _ .refl ?_ fun _ => callMade_of_forall ?_ ?_) ?_
  · simp [LibCall.kind, Method.calls, Method.kinds]
  · simp [LibCall.kind, Method.kinds]
  · simp [LibCall.registered, LibCall.completions, Method.callbacks]
  · exact .tokenOut _ _ _ (getElem?_call env self .publish _ w)

theorem does_isConnected : Does env self Method.isConnected.calls [] w (w.isConnected env self).1 := by
  unfold World.isConnected
  split
  · exact .refl
  · refine Does.own_request .refl (callMade_of_registered_eq_nil ?_ rfl)
    simp [LibCall.kind, Method.kinds]

theorem does_setServerURIs (serverURIs : Option (List NSString)) :
    Does env self [] [.serverURIs] w (w.setServerURIs self serverURIs) := by
  unfold World.setServerURIs
  dsimp only
  have hpart : ClientPart.serverURIs ∈ [ClientPart.serverURIs] := List.mem_singleton_self _
  refine Does.assign_part (Does.free (Does.freeAll ?_ _) _) hpart ?_ ?_
  · refine Does.assign_part (Does.refl.malloc.strdup _) hpart ?_ ?_
    · exact fun _ => rfl
    · exact fun _ => rfl
  · exact fun _ => rfl
  · exact fun _ => rfl

section Parts

variable (env self w)

theorem does_disconnect :
    Does env self Method.disconnect.calls Method.disconnect.parts w (w.disconnect env self) :=
  Does.disconnect .refl (List.Subset.refl _) (List.mem_singleton_self _)

theorem does_destroy {method : Method} (hkind : .destroy ∈ method.kinds) :
    Does env self [(method, .destroy)] [.handle] w (w.destroy env self method) :=
  Does.destroy .refl (List.mem_singleton_self _) hkind (List.mem_singleton_self _)

theorem does_create : Does env self [(.connect, .create)] [.handle] w (w.create env self).1 :=
  Does.create .refl (List.mem_singleton_self _) (List.mem_singleton_self _)

theorem does_setConnected :
    Does env self [(.connect, .setConnected)] [] w (w.setConnected env self).1 :=
  Does.setConnected .refl (List.mem_singleton_self _)

theorem does_setCallbacks :
    Does env self [(.connect, .setCallbacks)] [] w (w.setCallbacks env self).1 :=
  Does.setCallbacks .refl (List.mem_singleton_self _)

theorem does_fillConnectOpts (userProperties : Option (NSDictionary PropertyObject)) :
    Does env self [] [.attempt] w (w.fillConnectOpts env self userProperties) :=
  Does.fillConnectOpts .refl (List.mem_singleton_self _) userProperties

theorem does_sendConnect (userProperties : Option (NSDictionary PropertyObject)) :
    Does env self [(.connect, .connect)] [.attempt] w
      (w.sendConnect env self userProperties).1 :=
  Does.sendConnect .refl (List.mem_singleton_self _) (List.mem_singleton_self _) userProperties

end Parts

theorem does_connectWithUsername (username password : Option NSString)
    (userProperties : Option (NSDictionary PropertyObject)) :
    Does env self (Method.connect.bodies.flatMap Method.calls) Method.connect.parts w
      (w.connectWithUsername env self username password userProperties).1 := by
  have hdisconnect : Method.disconnect.calls ⊆ Method.connect.bodies.flatMap Method.calls := by
    simp [Method.bodies]
  have hconnect : Method.connect.calls ⊆ Method.connect.bodies.flatMap Method.calls := by
    simp [Method.bodies]
  have hprepared : Does env self (Method.connect.bodies.flatMap Method.calls) Method.connect.parts w
      (w.prepare env self username password) :=
    Does.prepare .refl hdisconnect (by simp [Method.parts]) (by simp [Method.parts]) username password
  exact (hprepared.create (hconnect (by simp [Method.calls, Method.kinds]))
    (by simp [Method.parts])).connectWithUsername hconnect (List.Subset.refl _) userProperties

/-- **What each method may do.** A method makes the calls of its bodies and assigns to its parts of the
client, and then returns. -/
theorem does_run {op : Operation} (h : op.run env self w = some w') {method : Method}
    (hmethod : op.method = some method) :
    ∃ result, Does env self (method.bodies.flatMap Method.calls) method.parts w result.1 ∧
      w' = returning self method result := by
  have hone : ∀ {m : Method} {result : World × ℤ}, m.bodies = [m] → m.parts = [] →
      Does env self m.calls [] w result.1 →
      Does env self (m.bodies.flatMap Method.calls) m.parts w result.1 := by
    intro m result hbodies hparts hdoes
    rwa [hbodies, hparts, List.flatMap_singleton]
  cases op with
  | connect username password userProperties =>
      cases hmethod
      cases h
      exact ⟨_, does_connectWithUsername username password userProperties, rfl⟩
  | disconnect =>
      cases hmethod
      cases h
      exact ⟨(w.disconnect env self, 0), does_disconnect env self w, rfl⟩
  | subscribe topic qos =>
      cases hmethod
      cases h
      exact ⟨_, hone rfl rfl (does_subscribe topic qos), rfl⟩
  | subscribeTopics topics =>
      cases hmethod
      cases h
      exact ⟨_, hone rfl rfl (does_subscribeTopics topics), rfl⟩
  | unsubscribeTopic topic =>
      cases hmethod
      cases h
      exact ⟨_, hone rfl rfl (does_unsubscribeTopic topic), rfl⟩
  | unsubscribeTopics topics =>
      cases hmethod
      cases h
      exact ⟨_, hone rfl rfl (does_unsubscribeTopics topics), rfl⟩
  | publish message properties =>
      cases hmethod
      obtain ⟨result, hresult, rfl⟩ := Option.map_eq_some_iff.1 h
      exact ⟨result, hone rfl rfl (does_publish hresult), rfl⟩
  | isConnected =>
      cases hmethod
      cases h
      exact ⟨_, hone rfl rfl does_isConnected, rfl⟩
  | set setter => cases hmethod
  | setServerURIs serverURIs => cases hmethod
  | setSSL ssl => cases hmethod

theorem mem_bodies {method : Method} {p : Method × CallKind}
    (hp : p ∈ method.bodies.flatMap Method.calls) : p.1 ∈ method.bodies := by
  obtain ⟨body, hbody, hp⟩ := List.mem_flatMap.1 hp
  obtain ⟨kind, -, rfl⟩ := List.mem_map.1 hp
  exact hbody

/-- What a method with no other method in it does. -/
theorem Does.acts_alone {method : Method} {parts : List ClientPart}
    (h : Does env self method.calls parts w w') (hw : w.Wired env)
    (hbodies : method.bodies = [method]) : Acts env self method.bodies w w' := by
  refine h.acts hw fun p hp => ?_
  obtain ⟨kind, -, rfl⟩ := List.mem_map.1 hp
  rw [hbodies]
  exact List.mem_singleton_self method

theorem acts_disconnect (hw : w.Wired env) : Acts env self [.disconnect] w (w.disconnect env self) :=
  (does_disconnect env self w).acts_alone hw rfl

theorem acts_prepare (hw : w.Wired env) (username password : Option NSString) :
    Acts env self [.disconnect] w (w.prepare env self username password) := by
  have hprepared : Does env self Method.disconnect.calls [.handle, .credentials] w
      (w.prepare env self username password) :=
    Does.prepare .refl (List.Subset.refl _) (by simp) (by simp) username password
  exact hprepared.acts hw (by simp [Method.calls])

theorem acts_create (hw : w.Wired env) : Acts env self [.connect] w (w.create env self).1 :=
  (does_create env self w).acts hw (by simp)

theorem acts_connect (hw : w.Wired env) (username password : Option NSString)
    (userProperties : Option (NSDictionary PropertyObject)) :
    Acts env self [.connect] ((w.prepare env self username password).create env self).1
      (w.connectWithUsername env self username password userProperties).1 := by
  have hprepared : (w.prepare env self username password).Wired env :=
    (acts_prepare hw username password).wired
  have hcreated : ((w.prepare env self username password).create env self).1.Wired env :=
    (acts_create hprepared).wired
  exact Does.acts (Does.connectWithUsername .refl (List.Subset.refl _) (List.Subset.refl _)
    userProperties) hcreated (by simp [Method.calls])

theorem acts_connectWithUsername (hw : w.Wired env) (username password : Option NSString)
    (userProperties : Option (NSDictionary PropertyObject)) :
    Acts env self [.disconnect, .connect] w
      (w.connectWithUsername env self username password userProperties).1 :=
  (does_connectWithUsername username password userProperties).acts hw fun _ hp => mem_bodies hp

theorem wired_initial (env : Env) (clientIDs : ClientId → NSString)
    (delegates : ClientId → Option Delegate) : (initial clientIDs delegates).Wired env :=
  ⟨fun _ => ⟨rfl, rfl, rfl, fun _ => rfl⟩, bridges_initial⟩

/-- An operation returns from a method, or is an assignment. -/
theorem run_cases (hw : w.Wired env) {op : Operation} (h : op.run env self w = some w') :
    (∃ method result, op.method = some method ∧ Acts env self method.bodies w result.1 ∧
        w' = returning self method result) ∨
      (op.method = none ∧ Acts env self [] w w') ∨
      ∃ ssl, op = .setSSL ssl ∧ w' = w.modify self fun c => { c with ssl := ssl } := by
  cases hmethod : op.method with
  | some method =>
      obtain ⟨result, hdoes, rfl⟩ := does_run h hmethod
      exact Or.inl ⟨method, result, rfl, hdoes.acts hw fun _ hp => mem_bodies hp, rfl⟩
  | none =>
      cases op with
      | set setter =>
          cases h
          exact Or.inr (Or.inl ⟨rfl, (Acts.refl self [] hw).set setter⟩)
      | setServerURIs serverURIs =>
          cases h
          exact Or.inr (Or.inl ⟨rfl, (does_setServerURIs serverURIs).acts hw (by simp)⟩)
      | setSSL ssl =>
          cases h
          exact Or.inr (Or.inr ⟨ssl, rfl, rfl⟩)
      | _ => cases hmethod

theorem Wired.emit (hw : w.Wired env) (events : List Event) : (w.emit events).Wired env :=
  ⟨hw.clients, hw.ssls⟩

theorem Wired.modify_part (hw : w.Wired env) (part : ClientPart) {f : PahoClient → PahoClient}
    (hf : ∀ c : PahoClient, (f c).without part = c.without part)
    (hssl : ∀ c : PahoClient, (f c).connectOpts.ssl = c.connectOpts.ssl) :
    (w.modify self f).Wired env :=
  hw.modify fun c hc => hc.of_without (hf c) (hssl c)

theorem Wired.setSSL (hw : w.Wired env) (self : ClientId) (ssl : Option SSLId) :
    (w.modify self fun c => { c with ssl := ssl }).Wired env := by
  refine hw.modify ?_
  exact fun _ hc => ⟨hc.context, hc.onSuccess5, hc.onFailure5, hc.ssl⟩

theorem Wired.run (hw : w.Wired env) {op : Operation} (h : op.run env self w = some w') :
    w'.Wired env := by
  rcases run_cases hw h with ⟨method, result, -, hacts, rfl⟩ | ⟨-, hacts⟩ | ⟨ssl, rfl, rfl⟩
  · exact ⟨hacts.wired.clients, hacts.wired.ssls⟩
  · exact hacts.wired
  · exact hw.setSSL self ssl

theorem Wired.setSSLOption (hw : w.Wired env) (ssl : SSLId) (setter : SSLSetter) :
    World.Wired env
      { w with ssls := Function.update w.ssls ssl (setter.apply ssl (w.ssls ssl)) } := by
  refine ⟨hw.clients, fun j => ?_⟩
  by_cases hj : j = ssl
  · subst hj
    simpa using bridges_apply setter (hw.ssls j)
  · simpa [hj] using hw.ssls j

theorem Wired.act (hw : w.Wired env) {action : Action} (h : w.act env action = some w') :
    w'.Wired env := by
  cases action with
  | operation client op => exact hw.run h
  | setSSLOption ssl setter =>
      cases h
      exact hw.setSSLOption ssl setter

theorem trace_isPrefix_run (hw : w.Wired env) {op : Operation} (h : op.run env self w = some w') :
    w.trace <+: w'.trace := by
  rcases run_cases hw h with ⟨method, result, -, hacts, rfl⟩ | ⟨-, hacts⟩ | ⟨ssl, rfl, rfl⟩
  · exact hacts.grows.isPrefix.trans (List.prefix_append _ _)
  · exact hacts.grows.isPrefix
  · exact List.prefix_rfl

theorem trace_isPrefix_act (hw : w.Wired env) {action : Action} (h : w.act env action = some w') :
    w.trace <+: w'.trace := by
  cases action with
  | operation client op => exact trace_isPrefix_run hw h
  | setSSLOption ssl setter =>
      cases h
      exact List.prefix_rfl

end World

end CocoaPaho
