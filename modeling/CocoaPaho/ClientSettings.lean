import CocoaPaho.ClientConnect

/-!
The settings of a client. Each is kept twice: in an instance variable, which the getter returns, and
in the connect options, which the library is given. The setters write both; at first the variables
are zero and the options have the values of `MQTTAsync_connectOptions_initializer5`.
-/

namespace CocoaPaho

open Base

inductive Setting where
  | keepAliveInterval
  | cleanSession
  | maxInflight
  | username
  | password
  | connectTimeout
  | retryInterval
  | automaticReconnect
  | minRetryInterval
  | maxRetryInterval
  | cleanstart
  deriving DecidableEq

inductive SettingValue where
  | number (number : ℤ)
  | text (text : Option CString)

/-- What the getter returns, a `BOOL` as 0 or 1 and a string as its UTF-8. -/
def PahoClient.shown (c : PahoClient) : Setting → SettingValue
  | .keepAliveInterval => .number c.keepAliveInterval
  | .cleanSession => .number (if c.cleanSession then 1 else 0)
  | .maxInflight => .number c.maxInflight
  | .username => .text (utf8String c.username)
  | .password => .text (utf8String c.password)
  | .connectTimeout => .number c.connectTimeout
  | .retryInterval => .number c.retryInterval
  | .automaticReconnect => .number (if c.automaticReconnect then 1 else 0)
  | .minRetryInterval => .number c.minRetryInterval
  | .maxRetryInterval => .number c.maxRetryInterval
  | .cleanstart => .number c.cleanstart

/-- What the library is given. -/
def MQTTAsyncConnectOptions.passed (options : MQTTAsyncConnectOptions) : Setting → SettingValue
  | .keepAliveInterval => .number options.keepAliveInterval
  | .cleanSession => .number options.cleansession
  | .maxInflight => .number options.maxInflight
  | .username => .text options.username
  | .password => .text options.password
  | .connectTimeout => .number options.connectTimeout
  | .retryInterval => .number options.retryInterval
  | .automaticReconnect => .number options.automaticReconnect
  | .minRetryInterval => .number options.minRetryInterval
  | .maxRetryInterval => .number options.maxRetryInterval
  | .cleanstart => .number options.cleanstart

/-- The settings whose value in the initializer is not zero. -/
def nonzeroSettings : List Setting :=
  [.keepAliveInterval, .maxInflight, .connectTimeout, .minRetryInterval, .maxRetryInterval,
    .cleanstart]

/-- The setting a setter is for. -/
def ClientSetter.setting : ClientSetter → Option Setting
  | keepAliveInterval _ => some .keepAliveInterval
  | cleanSession _ => some .cleanSession
  | maxInflight _ => some .maxInflight
  | username _ => some .username
  | password _ => some .password
  | connectTimeout _ => some .connectTimeout
  | retryInterval _ => some .retryInterval
  | automaticReconnect _ => some .automaticReconnect
  | minRetryInterval _ => some .minRetryInterval
  | maxRetryInterval _ => some .maxRetryInterval
  | cleanstart _ => some .cleanstart
  | connectProperties _ => none
  | willProperties _ => none
  | hostAndPort _ => none

def Operation.setting : Operation → Option Setting
  | set setter => setter.setting
  | _ => none

/-- A client shows the value it passes. -/
def PahoClient.Agrees (c : PahoClient) (s : Setting) : Prop := c.connectOpts.passed s = c.shown s

/-- Two states of a client with one value of a setting. -/
structure SameSetting (s : Setting) (c c' : PahoClient) : Prop where
  shown : c'.shown s = c.shown s
  passed : c'.connectOpts.passed s = c.connectOpts.passed s

theorem SameSetting.agrees_iff {s : Setting} {c c' : PahoClient} (h : SameSetting s c c') :
    c'.Agrees s ↔ c.Agrees s := by
  rw [PahoClient.Agrees, PahoClient.Agrees, h.shown, h.passed]

theorem SameSetting.trans {s : Setting} {c c' c'' : PahoClient} (h : SameSetting s c c')
    (h' : SameSetting s c' c'') : SameSetting s c c'' :=
  ⟨h'.shown.trans h.shown, h'.passed.trans h.passed⟩

/-- At first a client shows what it passes where the initializer has a zero. -/
theorem agrees_initial_iff (clientIDs : ClientId → NSString)
    (delegates : ClientId → Option Delegate) (i : ClientId) (s : Setting) :
    ((World.initial clientIDs delegates).clients i).Agrees s ↔ s ∉ nonzeroSettings := by
  cases s <;> simp [PahoClient.Agrees, PahoClient.shown, MQTTAsyncConnectOptions.passed,
    World.initial, PahoClient.initWithClientID, PahoClient.setupInitialize, nonzeroSettings,
    utf8String]

/-- A setter brings its setting in agreement. -/
theorem ClientSetter.agrees_apply {setter : ClientSetter} {s : Setting}
    (h : setter.setting = some s) (c : PahoClient) : (setter.apply c).Agrees s := by
  cases setter <;> cases h <;> rfl

/-- A setter changes no setting but its own. -/
theorem ClientSetter.sameSetting_apply {setter : ClientSetter} {s : Setting}
    (h : setter.setting ≠ some s) (c : PahoClient) : SameSetting s c (setter.apply c) := by
  cases setter <;> cases s <;> first | exact ⟨rfl, rfl⟩ | exact absurd rfl h

theorem ClientSetter.agrees_apply_of_agrees (setter : ClientSetter) {s : Setting} {c : PahoClient}
    (h : c.Agrees s) : (setter.apply c).Agrees s := by
  by_cases hs : setter.setting = some s
  · exact agrees_apply hs c
  · exact (sameSetting_apply hs c).agrees_iff.2 h

variable {env : Env} {self : ClientId} {w w' : World} {s : Setting}

/-- A setting of a client, as it is shown and as it is passed. -/
def settingView (s : Setting) : View (SettingValue × SettingValue) where
  look c := (c.shown s, c.connectOpts.passed s)
  withoutHandle c := by cases s <;> rfl
  ssl c ssl := by cases s <;> rfl
  connectProperties c properties := by cases s <;> rfl

/-- Steps that leave a setting of every client alone. -/
def KeepsSetting (s : Setting) (w w' : World) : Prop :=
  ∀ i, SameSetting s (w.clients i) (w'.clients i)

theorem KeepsSetting.trans {w'' : World} (h : KeepsSetting s w w') (h' : KeepsSetting s w' w'') :
    KeepsSetting s w w'' := fun i => (h i).trans (h' i)

theorem KeepsSetting.modify (h : KeepsSetting s w w') (self : ClientId)
    {f : PahoClient → PahoClient} (hf : ∀ c, SameSetting s c (f c)) :
    KeepsSetting s w (w'.modify self f) := by
  refine h.trans fun i => ?_
  by_cases hi : i = self
  · rw [hi, World.modify_self]
    exact hf _
  · rw [World.modify_of_ne w' hi]
    exact ⟨rfl, rfl⟩

theorem keepsSetting_of_kept (h : (settingView s).Kept w w') : KeepsSetting s w w' :=
  fun i => ⟨congrArg Prod.fst (h i), congrArg Prod.snd (h i)⟩

theorem Keeps.keepsSetting (h : Keeps w w') (s : Setting) : KeepsSetting s w w' :=
  keepsSetting_of_kept (View.kept_of_keeps h)

theorem keepsSetting_setServerURIs (serverURIs : Option (List NSString)) :
    KeepsSetting s w (w.setServerURIs self serverURIs) := by
  obtain ⟨array, hclients, -, -⟩ := setServerURIs_spec self serverURIs w
  intro i
  rw [hclients]
  refine KeepsSetting.modify ((Keeps.refl w).keepsSetting s) self (fun c => ?_) i
  cases s <;> exact ⟨rfl, rfl⟩

theorem ConnectTried.keepsSetting {userProperties : Option (NSDictionary PropertyObject)}
    (h : ConnectTried env self userProperties w w') (s : Setting) : KeepsSetting s w w' :=
  keepsSetting_of_kept (View.kept_of_connectTried h)

/-- **No setter changes any other setting**, and none a setting of another client. -/
theorem sameSetting_of_assignment {op : Operation} (h : op.run env self w = some w')
    (hassign : op.method = none) {i : ClientId} (hother : i ≠ self ∨ op.setting ≠ some s) :
    SameSetting s (w.clients i) (w'.clients i) := by
  cases op with
  | set setter =>
      cases h
      by_cases hi : i = self
      · subst hi
        rw [World.modify_self]
        exact ClientSetter.sameSetting_apply (hother.resolve_left (not_not.2 rfl)) _
      · rw [World.modify_of_ne w hi]
        exact ⟨rfl, rfl⟩
  | setServerURIs serverURIs =>
      cases h
      exact keepsSetting_setServerURIs serverURIs i
  | setSSL ssl =>
      cases h
      refine KeepsSetting.modify ((Keeps.refl w).keepsSetting s) self (fun c => ?_) i
      cases s <;> exact ⟨rfl, rfl⟩
  | _ => cases hassign

/-- An assignment of a setting of a client. -/
def Assigns (self : ClientId) (s : Setting) (action : Action) : Prop :=
  ∃ setter : ClientSetter, setter.setting = some s ∧ action = .operation self (.set setter)

theorem agrees_modify_set (setter : ClientSetter) {i : ClientId} (h : (w.clients i).Agrees s) :
    ((w.modify self setter.apply).clients i).Agrees s := by
  by_cases hi : i = self
  · subst hi
    rw [World.modify_self]
    exact setter.agrees_apply_of_agrees h
  · rwa [World.modify_of_ne w hi]

/-- The credentials agree before they are set by a connect, and so they do after. -/
theorem agrees_prepare_iff (username password : Option NSString) {i : ClientId}
    (hfree : s ∉ nonzeroSettings → (w.clients i).Agrees s) :
    ((w.prepare env self username password).clients i).Agrees s ↔ (w.clients i).Agrees s := by
  have hdisconnect : KeepsSetting s w (w.disconnect env self) :=
    (keeps_disconnect env self w).keepsSetting s
  by_cases hs : s ∈ nonzeroSettings
  · have hne : s ≠ .username ∧ s ≠ .password := by
      constructor <;> rintro rfl <;> simp [nonzeroSettings] at hs
    have husername : (ClientSetter.username username).setting ≠ some s :=
      fun h => hne.1 (Option.some.inj h).symm
    have hpassword : (ClientSetter.password password).setting ≠ some s :=
      fun h => hne.2 (Option.some.inj h).symm
    have hprepare := (hdisconnect.modify self (ClientSetter.sameSetting_apply husername)).modify self
      (ClientSetter.sameSetting_apply hpassword)
    exact (hprepare i).agrees_iff
  · have hdisconnected := (hdisconnect i).agrees_iff.2 (hfree hs)
    exact iff_of_true (agrees_modify_set (.password password)
      (agrees_modify_set (.username username) hdisconnected)) (hfree hs)

/-- After a step a setting agrees if it did before or has just been assigned. -/
theorem agrees_act_iff {action : Action} (h : w.act env action = some w') {i : ClientId}
    (hfree : s ∉ nonzeroSettings → (w.clients i).Agrees s) :
    (w'.clients i).Agrees s ↔ (w.clients i).Agrees s ∨ Assigns i s action := by
  have hsame : SameSetting s (w.clients i) (w'.clients i) → ¬ Assigns i s action →
      ((w'.clients i).Agrees s ↔ (w.clients i).Agrees s ∨ Assigns i s action) :=
    fun hsame hno => hsame.agrees_iff.trans (or_iff_left hno).symm
  have hassigned : ∀ {self : ClientId} {op : Operation}, op.method = none →
      action = .operation self op → (i ≠ self ∨ op.setting ≠ some s) →
      ((w'.clients i).Agrees s ↔ (w.clients i).Agrees s ∨ Assigns i s action) := by
    rintro self op hmethod rfl hother
    refine hsame (sameSetting_of_assignment h hmethod hother) ?_
    rintro ⟨setter, hsetting, hop⟩
    cases hop
    exact hother.elim (fun hi => hi rfl) fun hne => hne hsetting
  cases stepped_of_act h with
  | connect self username password userProperties =>
      have hno : ¬ Assigns i s (.operation self (.connect username password userProperties)) := by
        rintro ⟨setter, -, hop⟩
        cases hop
      have htried := (connectTried_connectWithUsername env self w username password
        userProperties).keepsSetting s i
      rw [or_iff_left hno, World.returning_clients, htried.agrees_iff]
      exact agrees_prepare_iff username password hfree
  | set self setter =>
      by_cases hself : i = self ∧ setter.setting = some s
      · obtain ⟨rfl, hsetting⟩ := hself
        refine iff_of_true ?_ (Or.inr ⟨setter, hsetting, rfl⟩)
        rw [World.modify_self]
        exact ClientSetter.agrees_apply hsetting _
      · exact hassigned rfl rfl (not_and_or.1 hself)
  | setServerURIs self serverURIs => exact hassigned rfl rfl (Or.inr nofun)
  | setSSL self ssl => exact hassigned rfl rfl (Or.inr nofun)
  | setSSLOption ssl setter =>
      refine hsame ⟨rfl, rfl⟩ ?_
      rintro ⟨setter', -, hop⟩
      cases hop
  | request self op method hmethod hconnect hkeeps =>
      refine hsame (hkeeps.keepsSetting s i) ?_
      rintro ⟨setter, -, hop⟩
      cases hop
      cases hmethod

/-- In every run, a setting of a client agrees exactly when the initializer leaves it zero or it has
been assigned. -/
theorem agrees_iff_assigned {clientIDs : ClientId → NSString}
    {delegates : ClientId → Option Delegate} {actions : List Action}
    (hrun : runFrom (World.act env) (World.initial clientIDs delegates) actions = some w)
    (i : ClientId) (s : Setting) :
    (w.clients i).Agrees s ↔ s ∉ nonzeroSettings ∨ ∃ action ∈ actions, Assigns i s action := by
  have hstep : ∀ (past : List Action) (v : World) (action : Action) (v' : World),
      ((v.clients i).Agrees s ↔ s ∉ nonzeroSettings ∨ ∃ action ∈ past, Assigns i s action) →
        v.act env action = some v' →
        ((v'.clients i).Agrees s ↔
          s ∉ nonzeroSettings ∨ ∃ action' ∈ past ++ [action], Assigns i s action') := by
    intro past v action v' hv h
    rw [agrees_act_iff h fun hs => hv.2 (Or.inl hs), hv, or_assoc]
    refine or_congr_right ?_
    simp [or_and_right, exists_or]
  have hstart : ((World.initial clientIDs delegates).clients i).Agrees s ↔
      s ∉ nonzeroSettings ∨ ∃ action ∈ ([] : List Action), Assigns i s action := by
    simpa using agrees_initial_iff clientIDs delegates i s
  exact runFrom_history hstep hstart hrun

theorem given_passed {username password : Option NSString}
    {userProperties : Option (NSDictionary PropertyObject)}
    (h : w.act env (.operation self (.connect username password userProperties)) = some w') :
    ∃ given, connectsOf w'.trace = connectsOf w.trace ++ given ∧
      ∀ g ∈ given, g.1 = self ∧ ∀ s, g.2.passed s =
        ((w.prepare env self username password).clients self).connectOpts.passed s := by
  refine given_of_connects h fun self' username' password' userProperties' w₁ haction h₁ => ?_
  cases haction
  have hkept : ∀ s, KeepsSetting s (w.prepare env self username password)
      (w₁.fillConnectOpts env self userProperties) := fun s =>
    (h₁.keepsSetting s).trans (keepsSetting_of_kept (View.kept_fillConnectOpts userProperties))
  exact ⟨rfl, fun s => (hkept s self).passed⟩

/-- **The settings a client shows and those it connects with.** After any run, the options given to
the next connect of a client have the values its getters return at that moment exactly when each of
the settings that the initializer does not leave zero has been assigned. No assignment changes a
setting other than its own. -/
theorem connect_passes_shown_iff {clientIDs : ClientId → NSString}
    {delegates : ClientId → Option Delegate} {actions : List Action}
    (hrun : runFrom (World.act env) (World.initial clientIDs delegates) actions = some w)
    (self : ClientId) :
    (∀ username password userProperties w',
      w.act env (.operation self (.connect username password userProperties)) = some w' →
        ∃ given, connectsOf w'.trace = connectsOf w.trace ++ given ∧
          ∀ g ∈ given, g.1 = self ∧
            ((∀ s, g.2.passed s =
                ((w.prepare env self username password).clients self).shown s) ↔
              ∀ s ∈ nonzeroSettings, ∃ action ∈ actions, Assigns self s action)) ∧
      ∀ op w', op.method = none → w.act env (.operation self op) = some w' →
        ∀ i s, i ≠ self ∨ op.setting ≠ some s → SameSetting s (w.clients i) (w'.clients i) := by
  refine ⟨fun username password userProperties w' h => ?_,
    fun op w' hassign h i s hother => sameSetting_of_assignment h hassign hother⟩
  obtain ⟨given, hgiven, hpassed⟩ := given_passed h
  refine ⟨given, hgiven, fun g hg => ⟨(hpassed g hg).1, ?_⟩⟩
  have hagrees : ∀ s, ((w.prepare env self username password).clients self).Agrees s ↔
      s ∉ nonzeroSettings ∨ ∃ action ∈ actions, Assigns self s action := by
    intro s
    have hiff := agrees_iff_assigned hrun self s
    rw [agrees_prepare_iff username password fun hs => hiff.2 (Or.inl hs), hiff]
  refine forall_congr' fun s => ?_
  rw [(hpassed g hg).2, ← PahoClient.Agrees, hagrees, ← imp_iff_not_or]

/-- Six assignments bring a new client's settings in agreement. -/
def assignAll : List Action :=
  [.keepAliveInterval 60, .maxInflight 10, .connectTimeout 30, .minRetryInterval 1,
    .maxRetryInterval 60, .cleanstart 1].map fun setter => .operation 0 (.set setter)

theorem assigns_of_mem_nonzeroSettings :
    ∀ s ∈ nonzeroSettings, ∃ action ∈ assignAll, Assigns 0 s action := by
  simp [nonzeroSettings, assignAll, Assigns, ClientSetter.setting]

theorem connect_passes_shown_assignAll :
    ∃ (w w' : World) (options : MQTTAsyncConnectOptions),
      runFrom (World.act obligingEnv) (World.initial (fun _ => "c") fun _ => some 0) assignAll =
        some w ∧
      w.act obligingEnv (.operation 0 (.connect none none none)) = some w' ∧
      connectsOf w'.trace = connectsOf w.trace ++ [(0, options)] ∧
      ∀ s, options.passed s = ((w.prepare obligingEnv 0 none none).clients 0).shown s := by
  have hrun : runFrom (World.act obligingEnv) (World.initial (fun _ => "c") fun _ => some 0)
      assignAll = some _ := rfl
  obtain ⟨given, hgiven, hpassed⟩ := (connect_passes_shown_iff hrun 0).1 none none none _ rfl
  have hone : given = [(0, _)] := hgiven.symm
  subst hone
  obtain ⟨-, hshown⟩ := hpassed _ (List.mem_singleton_self _)
  exact ⟨_, _, _, hrun, rfl, hgiven, hshown.2 assigns_of_mem_nonzeroSettings⟩

/-- A new client shows a keep alive interval of 0 and connects with 60. -/
theorem connect_passes_unshown_keepAliveInterval :
    ¬ ∀ (env : Env) (clientIDs : ClientId → NSString) (delegates : ClientId → Option Delegate)
      (actions : List Action) (w : World) (self : ClientId) (username password : Option NSString)
      (userProperties : Option (NSDictionary PropertyObject)) (w' : World),
      runFrom (World.act env) (World.initial clientIDs delegates) actions = some w →
      w.act env (.operation self (.connect username password userProperties)) = some w' →
      ∃ given, connectsOf w'.trace = connectsOf w.trace ++ given ∧
        ∀ g ∈ given, ∀ s, g.2.passed s =
          ((w.prepare env self username password).clients self).shown s := by
  intro h
  obtain ⟨given, hgiven, hpassed⟩ := h obligingEnv (fun _ => "c") (fun _ => some 0) [] _ 0 none none
    none _ rfl rfl
  have hone : given = [(0, _)] := hgiven.symm
  have hvalue := hpassed (0, _) (by rw [hone]; exact List.mem_singleton_self _) .keepAliveInterval
  cases hvalue

end CocoaPaho
