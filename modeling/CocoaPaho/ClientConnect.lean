import CocoaPaho.ClientLifecycle

/-!
What a connect hands to the library. One structure of connect options lives as long as the client
and is filled for each attempt. Between attempts it holds no user properties; so a connect passes its
own user properties, and the SSL structure of the current options object, whatever happened before.
-/

namespace CocoaPaho

open Base

/-- The client and the options of a call of `MQTTAsync_connect`. -/
def Event.connectOptions : Event → Option (ClientId × MQTTAsyncConnectOptions)
  | .call client _ (.connect _ options) _ => some (client, options)
  | _ => none

/-- The connects of a history, each with the options it was given. -/
def connectsOf (t : List Event) : List (ClientId × MQTTAsyncConnectOptions) :=
  t.filterMap Event.connectOptions

variable {env : Env} {self : ClientId} {w w' w'' : World}

theorem connectsOf_append (t u : List Event) :
    connectsOf (t ++ u) = connectsOf t ++ connectsOf u := List.filterMap_append

theorem readsCalls_connectOptions : ReadsCalls Event.connectOptions := by
  intro e he
  cases e with
  | call client method c r => cases he
  | _ => rfl

theorem connectsOf_silent (h : Silent w w') : connectsOf w'.trace = connectsOf w.trace :=
  filterMap_silent readsCalls_connectOptions h

theorem connectsOf_call (env : Env) (self : ClientId) (method : Method) (c : LibCall) (w : World) :
    connectsOf (w.call env self method c).1.trace = connectsOf w.trace ++
      (Event.connectOptions (.call self method c (env.reply w.trace c))).toList :=
  filterMap_call readsCalls_connectOptions env self method c w

/-- All of a client but its handle. -/
def PahoClient.withoutHandle (c : PahoClient) : PahoClient := { c with mqttAsyncHandle := none }

/-- Steps that call no `MQTTAsync_connect` and leave a client as it was, but for its handle. -/
structure Keeps (w w' : World) : Prop where
  connects : connectsOf w'.trace = connectsOf w.trace
  clients : ∀ i, (w'.clients i).withoutHandle = (w.clients i).withoutHandle
  ssls : w'.ssls = w.ssls

theorem Keeps.refl (w : World) : Keeps w w := ⟨rfl, fun _ => rfl, rfl⟩

theorem Keeps.trans (h : Keeps w w') (h' : Keeps w' w'') : Keeps w w'' :=
  ⟨h'.connects.trans h.connects, fun i => (h'.clients i).trans (h.clients i),
    h'.ssls.trans h.ssls⟩

theorem Keeps.connectOpts (h : Keeps w w') (i : ClientId) :
    (w'.clients i).connectOpts = (w.clients i).connectOpts := by
  have hrest : (w'.clients i).withoutHandle.connectOpts = (w.clients i).withoutHandle.connectOpts :=
    congrArg _ (h.clients i)
  exact hrest

theorem Keeps.ssl (h : Keeps w w') (i : ClientId) : (w'.clients i).ssl = (w.clients i).ssl := by
  have hrest : (w'.clients i).withoutHandle.ssl = (w.clients i).withoutHandle.ssl :=
    congrArg _ (h.clients i)
  exact hrest

theorem Keeps.emit (h : Keeps w w') {events : List Event} (he : ∀ e ∈ events, e.isCall = false) :
    Keeps w (w'.emit events) :=
  h.trans ⟨connectsOf_silent (Silent.emit w' he), fun _ => rfl, rfl⟩

/-- What a part of a method does, without a call of `MQTTAsync_connect` and assignments to more than
the handle. -/
theorem World.Does.keeps {calls : List (Method × CallKind)} {parts : List ClientPart}
    (h : World.Does env self calls parts w w') (hcalls : ∀ p ∈ calls, p.2 ≠ .connect)
    (hparts : parts ⊆ [.handle]) : Keeps w w' where
  connects := by
    refine h.filterMap_eq readsCalls_connectOptions fun method c r hcall => ?_
    cases c with
    | connect handle options => exact absurd rfl (hcalls _ hcall)
    | _ => rfl
  clients := by
    intro i
    refine h.sameBut i _ fun part hpart c => ?_
    rw [List.mem_singleton.1 (hparts hpart)]
    rfl
  ssls := h.ssls

theorem keeps_disconnect (env : Env) (self : ClientId) (w : World) :
    Keeps w (w.disconnect env self) :=
  (World.does_disconnect env self w).keeps (by simp [Method.calls, Method.kinds]) (List.Subset.refl _)

/-- Every method but the connect. -/
theorem keeps_run {op : Operation} (h : op.run env self w = some w') {method : Method}
    (hmethod : op.method = some method) (hconnect : method ≠ .connect) : Keeps w w' := by
  obtain ⟨result, hdoes, rfl⟩ := World.does_run h hmethod
  refine Keeps.emit (hdoes.keeps ?_ ?_) (by simp [Event.isCall])
  · cases method <;> simp [Method.bodies, Method.calls, Method.kinds] at hconnect ⊢
  · cases method <;> simp [Method.parts] at hconnect ⊢

/-- What a step does: it runs a connect, assigns a property, or leaves all clients as they were but for
their handles and connects no one. -/
inductive Stepped (env : Env) (w : World) : Action → World → Prop where
  | connect (self : ClientId) (username password : Option NSString)
      (userProperties : Option (NSDictionary PropertyObject)) :
      Stepped env w (.operation self (.connect username password userProperties))
        (World.returning self .connect
          (w.connectWithUsername env self username password userProperties))
  | set (self : ClientId) (setter : ClientSetter) :
      Stepped env w (.operation self (.set setter)) (w.modify self setter.apply)
  | setServerURIs (self : ClientId) (serverURIs : Option (List NSString)) :
      Stepped env w (.operation self (.setServerURIs serverURIs)) (w.setServerURIs self serverURIs)
  | setSSL (self : ClientId) (ssl : Option SSLId) :
      Stepped env w (.operation self (.setSSL ssl)) (w.modify self fun c => { c with ssl := ssl })
  | setSSLOption (ssl : SSLId) (setter : SSLSetter) :
      Stepped env w (.setSSLOption ssl setter)
        { w with ssls := Function.update w.ssls ssl (setter.apply ssl (w.ssls ssl)) }
  | request {w' : World} (self : ClientId) (op : Operation) (method : Method)
      (hmethod : op.method = some method) (hconnect : method ≠ .connect) (h : Keeps w w') :
      Stepped env w (.operation self op) w'

theorem stepped_of_act {action : Action} (h : w.act env action = some w') :
    Stepped env w action w' := by
  cases action with
  | setSSLOption ssl setter =>
      cases h
      exact .setSSLOption ssl setter
  | operation self op =>
      cases hmethod : op.method with
      | some method =>
          by_cases hconnect : method = .connect
          · subst hconnect
            cases op with
            | connect username password userProperties =>
                cases h
                exact .connect self username password userProperties
            | _ => cases hmethod
          · exact .request self op method hmethod hconnect (keeps_run h hmethod hconnect)
      | none =>
          cases op with
          | set setter =>
              cases h
              exact .set self setter
          | setServerURIs serverURIs =>
              cases h
              exact .setServerURIs self serverURIs
          | setSSL ssl =>
              cases h
              exact .setSSL self ssl
          | _ => cases hmethod

/-- The steps of `setServerURIs:`, for the number of strings the cast of the count leaves. -/
def World.setCountedURIs (self : ClientId) (serverURIs : Option (List NSString)) (count : ℕ)
    (w : World) : World :=
  let strings := w.malloc.strdup (((serverURIs.getD []).take count).map utf8)
  let w' := strings.1.modify self fun c =>
    { c with connectOpts := { c.connectOpts with serverURIs := some ⟨w.nextAddress, strings.2⟩ } }
  let w' := (w'.freeAll (strings.2.take count)).free w.nextAddress
  w'.modify self fun c => { c with serverURIs := serverURIs }

theorem setServerURIs_eq (self : ClientId) (serverURIs : Option (List NSString)) (w : World) :
    w.setServerURIs self serverURIs =
      w.setCountedURIs self serverURIs (cInt (serverURIs.getD []).length).toNat := rfl

/-- What `setServerURIs:` does: it puts the list and an array into its client, and that and its
strings are released. -/
theorem setServerURIs_spec (self : ClientId) (serverURIs : Option (List NSString)) (w : World) :
    ∃ array : Buffer (List (Buffer CString)),
      (w.setServerURIs self serverURIs).clients = (w.modify self fun c => { c with
        connectOpts := { c.connectOpts with serverURIs := some array }
        serverURIs := serverURIs }).clients ∧
      .free array.address ∈ (w.setServerURIs self serverURIs).trace ∧
      ∀ string ∈ array.contents, .free string.address ∈ (w.setServerURIs self serverURIs).trace := by
  obtain ⟨count, h⟩ : ∃ count, w.setServerURIs self serverURIs =
      w.setCountedURIs self serverURIs count := ⟨_, setServerURIs_eq self serverURIs w⟩
  rw [h]
  unfold World.setCountedURIs
  dsimp only
  refine ⟨⟨w.nextAddress, (w.malloc.strdup (((serverURIs.getD []).take count).map utf8)).2⟩,
    ?_, ?_, fun string hstring => ?_⟩
  · funext i
    by_cases hi : i = self
    · rw [hi, World.modify_self, World.free_clients, World.freeAll_clients, World.modify_self,
        World.strdup_clients, World.malloc_clients, World.modify_self]
    · rw [World.modify_of_ne _ hi, World.free_clients, World.freeAll_clients,
        World.modify_of_ne _ hi, World.strdup_clients, World.malloc_clients, World.modify_of_ne _ hi]
  · simp
  · rw [List.take_of_length_le]
    · simp only [World.modify_trace, World.free_trace, World.freeAll_trace, List.mem_append,
        List.mem_map]
      exact Or.inl (Or.inr ⟨string, hstring, rfl⟩)
    · rw [World.strdup_length, List.length_map, List.length_take]
      exact Nat.min_le_left _ _

theorem connectsOf_prepare (username password : Option NSString) :
    connectsOf (w.prepare env self username password).trace = connectsOf w.trace :=
  (keeps_disconnect env self w).connects

theorem orDestroy_of {P : World → Prop} {attempt : World × ℤ} {next : World → World × ℤ}
    (hdestroy : P (attempt.1.destroy env self .connect)) (hnext : P (next attempt.1).1) :
    P (World.orDestroy env self attempt next).1 := by
  unfold World.orDestroy
  split_ifs
  · exact hdestroy
  · exact hnext

/-- What a connect does to a prepared client: one that fails before `MQTTAsync_connect` is called
changes nothing but the handle; any other has called it once. -/
def ConnectTried (env : Env) (self : ClientId)
    (userProperties : Option (NSDictionary PropertyObject)) (w w' : World) : Prop :=
  Keeps w w' ∨ ∃ w₁, Keeps w w₁ ∧ Keeps (w₁.sendConnect env self userProperties).1 w'

/-- The calls of a connect other than that of `MQTTAsync_connect`. -/
def setupCalls : List (Method × CallKind) :=
  [(.connect, .create), (.connect, .setConnected), (.connect, .setCallbacks), (.connect, .destroy)]

theorem keeps_of_setup (h : World.Does env self setupCalls [.handle] w w') : Keeps w w' :=
  h.keeps (by simp [setupCalls]) (List.Subset.refl _)

theorem connectTried_connectWithUsername (env : Env) (self : ClientId) (w : World)
    (username password : Option NSString)
    (userProperties : Option (NSDictionary PropertyObject)) :
    ConnectTried env self userProperties (w.prepare env self username password)
      (w.connectWithUsername env self username password userProperties).1 := by
  have hhandle : ClientPart.handle ∈ [ClientPart.handle] := List.mem_singleton_self _
  have hdestroy : (Method.connect, CallKind.destroy) ∈ setupCalls := by simp [setupCalls]
  have hcreated : World.Does env self setupCalls [.handle] (w.prepare env self username password)
      ((w.prepare env self username password).create env self).1 :=
    World.Does.create .refl (by simp [setupCalls]) hhandle
  have hconnected := hcreated.setConnected (by simp [setupCalls])
  have hcallbacks := hconnected.setCallbacks (by simp [setupCalls])
  have hdestroyed : ∀ {v w₁ : World}, World.Does env self setupCalls [.handle] v w₁ →
      Keeps v (w₁.destroy env self .connect) :=
    fun h => keeps_of_setup (h.destroy hdestroy (by simp [Method.kinds]) hhandle)
  refine orDestroy_of (Or.inl (hdestroyed hcreated)) ?_
  refine orDestroy_of (Or.inl (hdestroyed hconnected)) ?_
  refine orDestroy_of (Or.inl (hdestroyed hcallbacks)) ?_
  refine orDestroy_of (Or.inr ⟨_, keeps_of_setup hcallbacks, hdestroyed .refl⟩) ?_
  exact Or.inr ⟨_, keeps_of_setup hcallbacks, Keeps.refl _⟩

theorem connectsOf_sendConnect (userProperties : Option (NSDictionary PropertyObject)) :
    connectsOf (w.sendConnect env self userProperties).1.trace = connectsOf w.trace ++
      [(self, ((w.fillConnectOpts env self userProperties).clients self).connectOpts)] := by
  unfold World.sendConnect
  dsimp only
  rw [World.modify_trace, World.request]
  dsimp only
  rw [connectsOf_call, connectsOf_silent (Silent.fillConnectOpts env self userProperties w)]
  rfl

theorem connectsOf_returning (method : Method) (result : World × ℤ) :
    connectsOf (World.returning self method result).trace = connectsOf result.1.trace :=
  connectsOf_silent (Silent.emit result.1 (by simp [Event.isCall]))

/-- What a step adds to the connects: nothing, or its own connect with the options it has filled in. -/
theorem connects_act {action : Action} (h : w.act env action = some w') :
    connectsOf w'.trace = connectsOf w.trace ∨
      ∃ self username password userProperties w₁,
        action = .operation self (.connect username password userProperties) ∧
        Keeps (w.prepare env self username password) w₁ ∧
        connectsOf w'.trace = connectsOf w.trace ++
          [(self, ((w₁.fillConnectOpts env self userProperties).clients self).connectOpts)] := by
  cases stepped_of_act h with
  | connect self username password userProperties =>
      rcases connectTried_connectWithUsername env self w username password userProperties with
        h | ⟨w₁, h₁, h⟩
      · refine Or.inl ?_
        rw [connectsOf_returning, h.connects, connectsOf_prepare]
      · refine Or.inr ⟨self, username, password, userProperties, w₁, rfl, h₁, ?_⟩
        rw [connectsOf_returning, h.connects, connectsOf_sendConnect, h₁.connects,
          connectsOf_prepare]
  | set self setter => exact Or.inl rfl
  | setServerURIs self serverURIs =>
      exact Or.inl (connectsOf_silent (Silent.setServerURIs self serverURIs w))
  | setSSL self ssl => exact Or.inl rfl
  | setSSLOption ssl setter => exact Or.inl rfl
  | request self op method hmethod hconnect hkeeps => exact Or.inl hkeeps.connects

/-- What holds of the options a connect fills in holds of all that a step gives to a connect. -/
theorem given_of_connects {P : ClientId × MQTTAsyncConnectOptions → Prop} {action : Action}
    (h : w.act env action = some w')
    (hP : ∀ self username password userProperties w₁,
      action = .operation self (.connect username password userProperties) →
      Keeps (w.prepare env self username password) w₁ →
      P (self, ((w₁.fillConnectOpts env self userProperties).clients self).connectOpts)) :
    ∃ given, connectsOf w'.trace = connectsOf w.trace ++ given ∧ ∀ g ∈ given, P g := by
  rcases connects_act h with hnone | ⟨self, username, password, userProperties, w₁, haction, h₁, h⟩
  · exact ⟨[], by rw [hnone, List.append_nil], fun g hg => nomatch hg⟩
  · exact ⟨_, h, List.forall_mem_singleton.2 (hP _ _ _ _ _ haction h₁)⟩

/-- A look at a client that takes in neither its handle nor what a connect fills in. -/
structure View (α : Type) where
  look : PahoClient → α
  withoutHandle : ∀ c : PahoClient, look c.withoutHandle = look c
  ssl : ∀ (c : PahoClient) (ssl : Option MQTTAsyncSSLOptions),
    look { c with connectOpts := { c.connectOpts with ssl := ssl } } = look c
  connectProperties : ∀ (c : PahoClient) (properties : Option MQTTProperties),
    look { c with connectOpts := { c.connectOpts with connectProperties := properties } } = look c

namespace View

variable {α : Type} {V : View α}

/-- Steps after which every client looks as before. -/
def Kept (V : View α) (w w' : World) : Prop := ∀ i, V.look (w'.clients i) = V.look (w.clients i)

theorem Kept.refl (V : View α) (w : World) : V.Kept w w := fun _ => rfl

theorem Kept.trans (h : V.Kept w w') (h' : V.Kept w' w'') : V.Kept w w'' :=
  fun i => (h' i).trans (h i)

theorem Kept.modify (h : V.Kept w w') (self : ClientId) {f : PahoClient → PahoClient}
    (hf : ∀ c, V.look (f c) = V.look c) : V.Kept w (w'.modify self f) := by
  refine h.trans fun i => ?_
  by_cases hi : i = self
  · rw [hi, World.modify_self, hf]
  · rw [World.modify_of_ne w' hi]

theorem kept_of_keeps (h : Keeps w w') : V.Kept w w' := by
  intro i
  rw [← V.withoutHandle, h.clients, V.withoutHandle]

/-- A part of a method that assigns to the handle and fills in the options only. -/
theorem kept_of_does {calls : List (Method × CallKind)} {parts : List ClientPart}
    (h : World.Does env self calls parts w w') (hparts : parts ⊆ [.handle, .attempt]) :
    V.Kept w w' := by
  intro i
  refine h.sameBut i V.look fun part hpart c => ?_
  have hpart' := hparts hpart
  simp only [List.mem_cons, List.not_mem_nil, or_false] at hpart'
  rcases hpart' with rfl | rfl
  · exact V.withoutHandle c
  · exact (V.connectProperties _ none).trans (V.ssl c none)

theorem kept_fillConnectOpts (userProperties : Option (NSDictionary PropertyObject)) :
    V.Kept w (w.fillConnectOpts env self userProperties) :=
  kept_of_does (World.does_fillConnectOpts env self w userProperties) (by simp)

theorem kept_sendConnect (userProperties : Option (NSDictionary PropertyObject)) :
    V.Kept w (w.sendConnect env self userProperties).1 :=
  kept_of_does (World.does_sendConnect env self w userProperties) (by simp)

theorem kept_of_connectTried {userProperties : Option (NSDictionary PropertyObject)}
    (h : ConnectTried env self userProperties w w') : V.Kept w w' := by
  rcases h with h | ⟨w₁, h₁, h⟩
  · exact kept_of_keeps h
  · exact ((kept_of_keeps h₁).trans (kept_sendConnect userProperties)).trans (kept_of_keeps h)

end View

/-- The user property of an entry of the dictionary. -/
def connectUserProperty (entry : Σ _ : NSString, PropertyObject) : MQTTProperty where
  identifier := .userProperty
  data := mqttLenString entry.1
  value := mqttLenString entry.2.text

/-- `NULL` for no user properties, otherwise one property for each entry. -/
theorem connectUserProperties_eq (userProperties : Option (NSDictionary PropertyObject)) :
    connectUserProperties userProperties =
      if (userProperties.getD ∅).entries = [] then none
      else some ((userProperties.getD ∅).entries.map connectUserProperty) := by
  cases userProperties with
  | none => rfl
  | some userProperties =>
      rw [connectUserProperties, Option.getD_some]
      simp only [List.length_eq_zero_iff]
      split_ifs with hempty
      · rfl
      · exact congrArg some ((foldl_mqttPropertiesAdd connectUserProperty _ []).trans
          (List.nil_append _))

theorem fillConnectOpts_connectProperties
    (h : (w.clients self).connectOpts.connectProperties = none)
    (userProperties : Option (NSDictionary PropertyObject)) :
    ((w.fillConnectOpts env self userProperties).clients self).connectOpts.connectProperties =
      connectUserProperties userProperties := by
  unfold World.fillConnectOpts
  dsimp only
  split
  · next hnone => split_ifs <;> simp [hnone, h]
  · next properties hsome => simp [hsome]

/-- No client's options hold user properties. -/
def Cleared (w : World) : Prop := ∀ i, (w.clients i).connectOpts.connectProperties = none

theorem Cleared.keeps (hw : Cleared w) (h : Keeps w w') : Cleared w' := by
  intro i
  rw [h.connectOpts]
  exact hw i

theorem Cleared.modify (hw : Cleared w) (self : ClientId) {f : PahoClient → PahoClient}
    (hf : ∀ c : PahoClient, c.connectOpts.connectProperties = none →
      (f c).connectOpts.connectProperties = none) : Cleared (w.modify self f) := by
  intro i
  by_cases hi : i = self
  · rw [hi, World.modify_self]
    exact hf _ (hw self)
  · rw [World.modify_of_ne w hi]
    exact hw i

theorem Cleared.set (hw : Cleared w) (self : ClientId) (setter : ClientSetter) :
    Cleared (w.modify self setter.apply) := by
  refine hw.modify self fun c hc => ?_
  cases setter with
  | connectProperties value => rfl
  | _ => exact hc

theorem Cleared.prepare (hw : Cleared w) (username password : Option NSString) :
    Cleared (w.prepare env self username password) :=
  Cleared.set (Cleared.set (hw.keeps (keeps_disconnect env self w)) self (.username username)) self
    (.password password)

theorem Cleared.sendConnect (hw : Cleared w)
    (userProperties : Option (NSDictionary PropertyObject)) :
    Cleared (w.sendConnect env self userProperties).1 := by
  intro i
  by_cases hi : i = self
  · rw [hi]
    unfold World.sendConnect
    dsimp only
    rw [World.modify_self]
  · rw [(World.does_sendConnect env self w userProperties).others hi]
    exact hw i

theorem Cleared.setServerURIs (hw : Cleared w) (self : ClientId)
    (serverURIs : Option (List NSString)) : Cleared (w.setServerURIs self serverURIs) := by
  obtain ⟨array, hclients, -, -⟩ := setServerURIs_spec self serverURIs w
  intro i
  rw [hclients]
  refine hw.modify self (fun c hc => ?_) i
  exact hc

theorem Keeps.wired (h : Keeps w w') (hw : w.Wired env) : w'.Wired env := by
  refine ⟨fun i => ?_, fun j => by rw [h.ssls]; exact hw.ssls j⟩
  obtain ⟨hcontext, hsuccess, hfailure, hssl⟩ := hw.clients i
  rw [← h.connectOpts] at hcontext hsuccess hfailure hssl
  exact ⟨hcontext, hsuccess, hfailure, hssl⟩

theorem Cleared.connectTried {userProperties : Option (NSDictionary PropertyObject)}
    (hw : Cleared w) (h : ConnectTried env self userProperties w w') : Cleared w' := by
  rcases h with h | ⟨w₁, h₁, h⟩
  · exact hw.keeps h
  · exact ((hw.keeps h₁).sendConnect userProperties).keeps h

/-- A connect made in a step is the one of the step, and it is given the user properties of the step
and the SSL structure of the current options object. -/
def GivenOwnData (env : Env) (w : World) (action : Action)
    (connect : ClientId × MQTTAsyncConnectOptions) : Prop :=
  ∃ username password userProperties,
    action = .operation connect.1 (.connect username password userProperties) ∧
    connect.2.connectProperties =
      (if (userProperties.getD ∅).entries = [] then none
        else some ((userProperties.getD ∅).entries.map connectUserProperty)) ∧
    connect.2.ssl =
      if env.enableSSLConnection then
        (w.clients connect.1).ssl.map fun ssl => (w.ssls ssl).sslOptions
      else none

theorem Cleared.act (hw : Cleared w) {action : Action} (h : w.act env action = some w') :
    Cleared w' := by
  cases stepped_of_act h with
  | connect self username password userProperties =>
      have htried : Cleared (w.connectWithUsername env self username password userProperties).1 :=
        Cleared.connectTried (hw.prepare username password)
          (connectTried_connectWithUsername env self w username password userProperties)
      exact htried
  | set self setter => exact hw.set self setter
  | setServerURIs self serverURIs => exact hw.setServerURIs self serverURIs
  | setSSL self ssl => exact hw.modify self fun _ hc => hc
  | setSSLOption ssl setter => exact hw
  | request self op method hmethod hconnect hkeeps => exact hw.keeps hkeeps

theorem given_ownData (hw : Cleared w) (hwired : w.Wired env) {action : Action}
    (h : w.act env action = some w') :
    ∃ given, connectsOf w'.trace = connectsOf w.trace ++ given ∧
      ∀ g ∈ given, GivenOwnData env w action g := by
  refine given_of_connects h fun self username password userProperties w₁ haction h₁ => ?_
  have hacts : World.Acts env self [.disconnect] w (w.prepare env self username password) :=
    World.acts_prepare hwired username password
  have hcleared : Cleared w₁ := Cleared.keeps (hw.prepare username password) h₁
  refine ⟨username, password, userProperties, haction, ?_, ?_⟩
  · rw [fillConnectOpts_connectProperties (hcleared self), connectUserProperties_eq]
  · rw [World.fillConnectOpts_ssl (h₁.wired hacts.wired), h₁.ssl, h₁.ssls, hacts.ssl, hacts.ssls]

theorem cleared_initial (clientIDs : ClientId → NSString)
    (delegates : ClientId → Option Delegate) : Cleared (World.initial clientIDs delegates) :=
  fun _ => rfl

/-- **No connect-time data leaks from one attempt to another.** After any run no client's options
hold user properties, and whatever is done next, a connect made in that step is given the user
properties and the SSL structure of the step and nothing of an earlier one. -/
theorem connect_given_own_data {clientIDs : ClientId → NSString}
    {delegates : ClientId → Option Delegate} {actions : List Action}
    (hrun : runFrom (World.act env) (World.initial clientIDs delegates) actions = some w) :
    (∀ i, (w.clients i).connectOpts.connectProperties = none) ∧
      ∀ action w', w.act env action = some w' →
        ∃ given, connectsOf w'.trace = connectsOf w.trace ++ given ∧
          ∀ g ∈ given, GivenOwnData env w action g := by
  have hstep : ∀ (v : World) (action : Action) (v' : World), v.Wired env ∧ Cleared v →
      v.act env action = some v' → v'.Wired env ∧ Cleared v' :=
    fun v action v' hv h => ⟨hv.1.act h, hv.2.act h⟩
  have hkept := runFrom_invariant hstep
    ⟨World.wired_initial env clientIDs delegates, cleared_initial clientIDs delegates⟩ hrun
  exact ⟨hkept.2, fun action w' h => given_ownData hkept.2 hkept.1 h⟩

/-- Client 0 connects with the property `k`, `v`, and then without user properties: each of the two
connects is given its own. -/
theorem connect_given_own_data_twice :
    ∃ (w w' : World) (options options' : MQTTAsyncConnectOptions),
      runFrom (World.act obligingEnv) (World.initial (fun _ => "c") fun _ => some 0)
        [.operation 0 (.connect none none (some (AList.singleton "k" (.string "v"))))] = some w ∧
      w.act obligingEnv (.operation 0 (.connect none none none)) = some w' ∧
      connectsOf w.trace = [(0, options)] ∧ options.connectProperties ≠ none ∧
      connectsOf w'.trace = connectsOf w.trace ++ [(0, options')] ∧
      options'.connectProperties = none := by
  have hrun : runFrom (World.act obligingEnv) (World.initial (fun _ => "c") fun _ => some 0)
      [.operation 0 (.connect none none (some (AList.singleton "k" (.string "v"))))] = some _ := rfl
  obtain ⟨-, hnext⟩ := connect_given_own_data hrun
  obtain ⟨given, hgiven, hown⟩ := hnext (.operation 0 (.connect none none none)) _ rfl
  have hone : [(0, _)] = given := List.tail_eq_of_cons_eq hgiven
  subst hone
  obtain ⟨username, password, userProperties, haction, hproperties, -⟩ :=
    hown _ (List.mem_singleton_self _)
  injection haction with _ hop
  cases hop
  exact ⟨_, _, _, _, hrun, rfl, rfl, Option.some_ne_none _, hgiven, hproperties⟩

end CocoaPaho
