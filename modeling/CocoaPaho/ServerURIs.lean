import CocoaPaho.ClientConnect

/-!
The server list. `setServerURIs:` points the connect options at copies it frees at once, and never
tells them how many there are; so what a connect is given does not depend on the list.
-/

namespace CocoaPaho

open Base

/-- The list a step assigns to a client. -/
def Action.serverURIs (client : ClientId) : Action → Option (Option (List NSString))
  | .operation self (.setServerURIs serverURIs) => if self = client then some serverURIs else none
  | _ => none

/-- The list last assigned to a client, empty if it is `nil` or none was. -/
def assignedURIs (client : ClientId) (actions : List Action) : List NSString :=
  ((actions.filterMap (Action.serverURIs client)).getLast?.getD none).getD []

/-- The options of a connect, made after some history, serve a list of URIs: they count its entries,
and hold an array of their C strings, of which nothing has been released. -/
structure Served (uris : List NSString) (past : List Event) (options : MQTTAsyncConnectOptions) :
    Prop where
  count : options.serverURIcount = uris.length
  entries : ∀ (i : ℕ) (uri : NSString), uris[i]? = some uri →
    ∃ (array : Buffer (List (Buffer CString))) (string : Buffer CString),
      options.serverURIs = some array ∧ array.contents[i]? = some string ∧
      cText string.contents = cText (utf8 uri) ∧
      Event.free array.address ∉ past ∧ Event.free string.address ∉ past

variable {env : Env} {self : ClientId} {w w' : World}

/-- What a client's options say of the server list. -/
def serverListView : View (ℤ × Option (Buffer (List (Buffer CString)))) where
  look c := (c.connectOpts.serverURIcount, c.connectOpts.serverURIs)
  withoutHandle := fun _ => rfl
  ssl := fun _ _ => rfl
  connectProperties := fun _ _ => rfl

theorem serverListView_set (setter : ClientSetter) (c : PahoClient) :
    serverListView.look (setter.apply c) = serverListView.look c := by
  cases setter <;> rfl

theorem kept_prepare (username password : Option NSString) :
    serverListView.Kept w (w.prepare env self username password) :=
  ((View.kept_of_keeps (keeps_disconnect env self w)).modify self
    (serverListView_set (.username username))).modify self (serverListView_set (.password password))

/-- No step but `setServerURIs:` touches the server list. -/
theorem serverList_act {action : Action} (h : w.act env action = some w') :
    (∃ self serverURIs, action = .operation self (.setServerURIs serverURIs) ∧
      w' = w.setServerURIs self serverURIs) ∨ serverListView.Kept w w' := by
  cases stepped_of_act h with
  | connect self username password userProperties =>
      have htried : serverListView.Kept (w.prepare env self username password)
          (w.connectWithUsername env self username password userProperties).1 :=
        View.kept_of_connectTried
          (connectTried_connectWithUsername env self w username password userProperties)
      exact Or.inr fun i => (kept_prepare username password).trans htried i
  | set self setter => exact Or.inr ((View.Kept.refl _ w).modify self (serverListView_set setter))
  | setServerURIs self serverURIs => exact Or.inl ⟨self, serverURIs, rfl, rfl⟩
  | setSSL self ssl => exact Or.inr ((View.Kept.refl _ w).modify self fun _ => rfl)
  | setSSLOption ssl setter => exact Or.inr (View.Kept.refl _ w)
  | request self op method hmethod hconnect hkeeps => exact Or.inr (View.kept_of_keeps hkeeps)

/-- A connect made in a step is given the server list its client had before. -/
theorem given_serverList {action : Action} (h : w.act env action = some w') :
    ∃ given, connectsOf w'.trace = connectsOf w.trace ++ given ∧
      ∀ g ∈ given, (g.2.serverURIcount, g.2.serverURIs) = serverListView.look (w.clients g.1) := by
  refine given_of_connects h fun self username password userProperties w₁ _ h₁ => ?_
  have hfilled : serverListView.Kept w (w₁.fillConnectOpts env self userProperties) :=
    ((kept_prepare username password).trans (View.kept_of_keeps h₁)).trans
      (View.kept_fillConnectOpts userProperties)
  exact hfilled self

/-- The same of a call that is found in the history behind what was there before the step. -/
theorem call_serverList (hw : w.Wired env) {action : Action} (h : w.act env action = some w')
    {past future : List Event} {client : ClientId} {method : Method} {handle : Option Handle}
    {options : MQTTAsyncConnectOptions} {r : Reply}
    (hcall : w'.trace = past ++ .call client method (.connect handle options) r :: future)
    (hnew : w.trace.length ≤ past.length) :
    w.trace <+: past ∧
      (options.serverURIcount, options.serverURIs) = serverListView.look (w.clients client) := by
  have hpast : w.trace <+: past := by
    refine List.prefix_of_prefix_length_le (World.trace_isPrefix_act hw h) ?_ hnew
    rw [hcall]
    exact List.prefix_append _ _
  refine ⟨hpast, ?_⟩
  obtain ⟨between, rfl⟩ := hpast
  obtain ⟨given, hgiven, hlist⟩ := given_serverList h
  rw [hcall, List.append_assoc, connectsOf_append, List.append_cancel_left_eq, connectsOf_append]
    at hgiven
  exact hlist (client, options) (hgiven ▸ List.mem_append_right _ List.mem_cons_self)

/-- What a client's options say of the server list between the steps: they count no servers, and the
array they hold has been released with its strings. -/
structure ListReleased (w : World) : Prop where
  count : ∀ i, (w.clients i).connectOpts.serverURIcount = 0
  released : ∀ i array, (w.clients i).connectOpts.serverURIs = some array →
    .free array.address ∈ w.trace ∧ ∀ string ∈ array.contents, .free string.address ∈ w.trace

theorem listReleased_initial (clientIDs : ClientId → NSString)
    (delegates : ClientId → Option Delegate) : ListReleased (World.initial clientIDs delegates) :=
  ⟨fun _ => rfl, fun _ _ h => nomatch h⟩

theorem ListReleased.mono (hw : ListReleased w) (htrace : w.trace <+: w'.trace) {i : ClientId}
    (hlist : serverListView.look (w'.clients i) = serverListView.look (w.clients i)) :
    (w'.clients i).connectOpts.serverURIcount = 0 ∧
      ∀ array, (w'.clients i).connectOpts.serverURIs = some array →
        .free array.address ∈ w'.trace ∧
          ∀ string ∈ array.contents, .free string.address ∈ w'.trace := by
  refine ⟨(congrArg Prod.fst hlist).trans (hw.count i), fun array harray => ?_⟩
  obtain ⟨hfree, hstrings⟩ := hw.released i array ((congrArg Prod.snd hlist).symm.trans harray)
  exact ⟨htrace.subset hfree, fun string hstring => htrace.subset (hstrings string hstring)⟩

theorem ListReleased.act (hw : ListReleased w) (hwired : w.Wired env) {action : Action}
    (h : w.act env action = some w') : ListReleased w' := by
  have htrace := World.trace_isPrefix_act hwired h
  have hclient : ∀ i, (w'.clients i).connectOpts.serverURIcount = 0 ∧
      ∀ array, (w'.clients i).connectOpts.serverURIs = some array →
        .free array.address ∈ w'.trace ∧
          ∀ string ∈ array.contents, .free string.address ∈ w'.trace := by
    intro i
    rcases serverList_act h with ⟨self, serverURIs, -, rfl⟩ | hkept
    · obtain ⟨array, hclients, hfree, hstrings⟩ := setServerURIs_spec self serverURIs w
      by_cases hi : i = self
      · rw [hi, hclients, World.modify_self]
        refine ⟨hw.count self, fun array' harray => ?_⟩
        cases harray
        exact ⟨hfree, hstrings⟩
      · exact hw.mono htrace (by rw [hclients, World.modify_of_ne w hi])
    · exact hw.mono htrace (hkept i)
  exact ⟨fun i => (hclient i).1, fun i => (hclient i).2⟩

theorem listReleased_run {clientIDs : ClientId → NSString}
    {delegates : ClientId → Option Delegate} {actions : List Action}
    (hrun : runFrom (World.act env) (World.initial clientIDs delegates) actions = some w) :
    w.Wired env ∧ ListReleased w := by
  have hstep : ∀ (v : World) (action : Action) (v' : World), v.Wired env ∧ ListReleased v →
      v.act env action = some v' → v'.Wired env ∧ ListReleased v' :=
    fun v action v' hv h => ⟨hv.1.act h, hv.2.act hv.1 h⟩
  exact runFrom_invariant hstep
    ⟨World.wired_initial env clientIDs delegates, listReleased_initial clientIDs delegates⟩ hrun

/-- Options that count no servers serve the empty list and no other. -/
theorem served_iff {uris : List NSString} {past : List Event} {options : MQTTAsyncConnectOptions}
    (h : options.serverURIcount = 0) : Served uris past options ↔ uris = [] := by
  constructor
  · intro hserved
    have hlength := hserved.count.symm.trans h
    exact List.length_eq_zero_iff.1 (by omega)
  · rintro rfl
    exact ⟨h, fun i uri hi => by simp at hi⟩

/-- Whatever array a connect is given, it has been released, and so have its strings. -/
theorem connect_given_released {clientIDs : ClientId → NSString}
    {delegates : ClientId → Option Delegate} {actions : List Action}
    (hrun : runFrom (World.act env) (World.initial clientIDs delegates) actions = some w)
    {action : Action} (h : w.act env action = some w') :
    ∀ past client method handle options r future,
      w'.trace = past ++ .call client method (.connect handle options) r :: future →
      w.trace.length ≤ past.length → ∀ array, options.serverURIs = some array →
        .free array.address ∈ past ∧ ∀ string ∈ array.contents, .free string.address ∈ past := by
  intro past client method handle options r future hcall hnew array harray
  obtain ⟨hwired, hw⟩ := listReleased_run hrun
  obtain ⟨hpast, hlist⟩ := call_serverList hwired h hcall hnew
  obtain ⟨hfree, hstrings⟩ := hw.released client array ((congrArg Prod.snd hlist).symm.trans harray)
  exact ⟨hpast.subset hfree, fun string hstring => hpast.subset (hstrings string hstring)⟩

/-- **The server list of a connect.** In every run, a call of `MQTTAsync_connect` serves the list last
assigned to its client exactly when that list is empty. -/
theorem serverURIs_served_iff {clientIDs : ClientId → NSString}
    {delegates : ClientId → Option Delegate} {actions : List Action}
    (hrun : runFrom (World.act env) (World.initial clientIDs delegates) actions = some w)
    {action : Action} (h : w.act env action = some w') :
    ∀ past client method handle options r future,
      w'.trace = past ++ .call client method (.connect handle options) r :: future →
      w.trace.length ≤ past.length →
      (Served (assignedURIs client actions) past options ↔ assignedURIs client actions = []) := by
  intro past client method handle options r future hcall hnew
  obtain ⟨hwired, hw⟩ := listReleased_run hrun
  obtain ⟨-, hlist⟩ := call_serverList hwired h hcall hnew
  exact served_iff ((congrArg Prod.fst hlist).trans (hw.count client))

/-- A list that is short enough is assigned in full. -/
theorem setServerURIs_counted {serverURIs : Option (List NSString)}
    (h : (serverURIs.getD []).length < 2147483648) (w : World) :
    w.setServerURIs self serverURIs =
      w.setCountedURIs self serverURIs (serverURIs.getD []).length := by
  rw [setServerURIs_eq, cInt_of_lt h, Int.toNat_natCast]

/-- A client is assigned a list, then the empty one, and connects. -/
theorem serverURIs_served_none :
    ∃ w w' past handle options r future,
      runFrom (World.act obligingEnv) (World.initial (fun _ => "c") fun _ => some 0)
        [.operation 0 (.setServerURIs (some ["tcp://h:1"])), .operation 0 (.setServerURIs (some []))] =
        some w ∧
      w.act obligingEnv (.operation 0 (.connect none none none)) = some w' ∧
      w'.trace = past ++ .call 0 .connect (.connect handle options) r :: future ∧
      options.serverURIs ≠ none ∧ Served [] past options := by
  have hfirst : (World.initial (fun _ => "c") fun _ => some 0).setServerURIs 0 (some ["tcp://h:1"]) =
    _ := setServerURIs_counted (by decide) _
  have hlast : ((World.initial (fun _ => "c") fun _ => some 0).setServerURIs 0
      (some ["tcp://h:1"])).setServerURIs 0 (some []) = _ :=
    (setServerURIs_counted (by decide) _).trans (congrArg _ hfirst)
  have hrun : runFrom (World.act obligingEnv) (World.initial (fun _ => "c") fun _ => some 0)
    [.operation 0 (.setServerURIs (some ["tcp://h:1"])), .operation 0 (.setServerURIs (some []))] =
    some _ := congrArg some hlast
  have hserved := serverURIs_served_iff hrun
    (rfl : World.act obligingEnv _ (.operation 0 (.connect none none none)) = _) _ 0 .connect _ _ _ _
    (eq_take_append_of_getElem? (n := 9) rfl) (by decide)
  exact ⟨_, _, _, _, _, _, _, hrun, rfl, eq_take_append_of_getElem? (n := 9) rfl,
    Option.some_ne_none _, hserved.2 rfl⟩

/-- A client that has been assigned one URI is connected with the count 0. -/
theorem serverURIs_not_served :
    ∃ w w' past handle options r future,
      runFrom (World.act obligingEnv) (World.initial (fun _ => "c") fun _ => some 0)
        [.operation 0 (.setServerURIs (some ["tcp://h:1"]))] = some w ∧
      w.act obligingEnv (.operation 0 (.connect none none none)) = some w' ∧
      w'.trace = past ++ .call 0 .connect (.connect handle options) r :: future ∧
      ¬ Served ["tcp://h:1"] past options := by
  refine ⟨_, _, _, _, _, _, _, congrArg some (setServerURIs_counted (by decide) _), rfl,
    eq_take_append_of_getElem? (n := 7) rfl, fun h => ?_⟩
  exact absurd h.count (by decide)

end CocoaPaho
