import CocoaPaho.Base.Ledger
import CocoaPaho.ClientConnect

/-!
The temporary buffers of the wrapper. A ledger of the blocks it has obtained by `malloc` and `strdup`
and not yet freed is read off the history. A batch of topics is copied into such blocks for one call;
of a batch of unsubscriptions nothing stays behind, of a batch of subscriptions the qualities do.
-/

namespace CocoaPaho

open Base

def Event.use : Event → Option (Use ℕ)
  | .malloc address => some (.acquire address)
  | .free address => some (.release address)
  | _ => none

/-- What a history obtains and frees, in order. -/
def usesOf (t : List Event) : List (Use ℕ) := t.filterMap Event.use

/-- The blocks obtained and not yet freed. -/
def ledger (t : List Event) : Multiset ℕ := settle 0 (usesOf t)

/-- The blocks a batch call reads: its arrays and the strings one of them points to. -/
def LibCall.buffers : LibCall → List ℕ
  | .subscribeMany _ _ topic qos _ => qos.address :: topic.address :: topic.contents.map Buffer.address
  | .unsubscribeMany _ _ topic _ => topic.address :: topic.contents.map Buffer.address
  | _ => []

/-- Around a call, the blocks it reads are obtained before it, and freed after it, each of them once;
nothing else is obtained or freed. -/
structure FreedAfter (c : LibCall) (before after : List Event) : Prop where
  obtained : usesOf before = c.buffers.map Use.acquire
  distinct : c.buffers.Nodup
  freed : ∀ address ∈ c.buffers, (usesOf after).count (.release address) = 1
  nothingElse : ∀ use ∈ usesOf after, ∃ address ∈ c.buffers, use = .release address

/-- A step that returns with the ledger as it found it, and has freed the blocks of a batch call after
that call. -/
structure Balances (w w' : World) : Prop where
  ledger : ledger w'.trace = ledger w.trace
  freed : ∃ before after client method c r, c.buffers ≠ [] ∧
    w'.trace = w.trace ++ (before ++ .call client method c r :: after) ∧ FreedAfter c before after

variable {env : Env} {self : ClientId} {w w' : World}

theorem usesOf_append (t u : List Event) : usesOf (t ++ u) = usesOf t ++ usesOf u :=
  List.filterMap_append

theorem ledger_append (t u : List Event) : ledger (t ++ u) = settle (ledger t) (usesOf u) := by
  rw [ledger, usesOf_append, settle_append]
  rfl

theorem ledger_congr (h : usesOf w'.trace = usesOf w.trace) : ledger w'.trace = ledger w.trace :=
  congrArg (settle 0) h

theorem usesOf_window (w : World) (ds : List Dispatch) : usesOf (ds.flatMap w.dispatch) = [] := by
  rw [usesOf, List.filterMap_eq_nil_iff]
  intro e he
  obtain ⟨d, -, rfl | rfl⟩ := World.mem_window he <;> rfl

theorem usesOf_mallocs {α : Type} (buffers : List (Buffer α)) :
    usesOf (buffers.map fun buffer => .malloc buffer.address) =
      (buffers.map Buffer.address).map Use.acquire := by
  rw [usesOf, List.filterMap_map, List.map_map]
  exact congrFun (List.filterMap_eq_map (f := Use.acquire ∘ Buffer.address)) buffers

theorem usesOf_frees {α : Type} (buffers : List (Buffer α)) :
    usesOf (buffers.map fun buffer => .free buffer.address) =
      (buffers.map Buffer.address).map Use.release := by
  rw [usesOf, List.filterMap_map, List.map_map]
  exact congrFun (List.filterMap_eq_map (f := Use.release ∘ Buffer.address)) buffers

theorem nextAddress_malloc (w : World) : w.malloc.nextAddress = w.nextAddress + 1 := by
  simp [World.nextAddress, World.malloc, World.isMalloc]

theorem strdup_trace (strings : List CString) (w : World) :
    (w.strdup strings).1.trace =
      w.trace ++ (w.strdup strings).2.map fun buffer => .malloc buffer.address := by
  induction strings generalizing w with
  | nil => exact (List.append_nil _).symm
  | cons s ss ih =>
      rw [World.strdup]
      dsimp only
      rw [ih, World.malloc, World.emit_trace, List.append_assoc]
      rfl

/-- The blocks of copies are new ones, one behind the other. -/
theorem strdup_addresses (strings : List CString) (w : World) :
    (w.strdup strings).2.map Buffer.address = List.range' w.nextAddress strings.length := by
  induction strings generalizing w with
  | nil => rfl
  | cons s ss ih =>
      rw [World.strdup, List.map_cons, ih, nextAddress_malloc, List.length_cons, List.range'_succ]

/-- The copies of strings, a call that is made while they are held, and what is freed after it. -/
theorem copies_around (env : Env) (self : ClientId) (w : World) (strings : List CString)
    (method : Method) (c : LibCall) (count array : ℕ) :
    ∃ before after r,
      ((((w.strdup strings).1.request env self method c).1.freeAll
          ((w.strdup strings).2.take count)).free array).trace =
        w.trace ++ (before ++ .call self method c r :: after) ∧
      usesOf before = (List.range' w.nextAddress strings.length).map Use.acquire ∧
      usesOf after =
        ((List.range' w.nextAddress strings.length).take count ++ [array]).map Use.release := by
  refine ⟨(w.strdup strings).2.map fun buffer => .malloc buffer.address,
    (env.reply (w.strdup strings).1.trace c).window.flatMap (w.strdup strings).1.dispatch ++
      (((w.strdup strings).2.take count).map fun buffer => .free buffer.address) ++ [.free array],
    env.reply (w.strdup strings).1.trace c, ?_, ?_, ?_⟩
  · rw [World.free_trace, World.freeAll_trace, World.request, World.call, World.emit_trace,
      World.answer]
    nth_rewrite 1 [strdup_trace]
    simp only [List.append_assoc, List.cons_append]
  · rw [usesOf_mallocs, strdup_addresses]
  · rw [usesOf_append, usesOf_append, usesOf_window, usesOf_frees, List.map_take,
      strdup_addresses, List.nil_append, List.map_append]
    rfl

/-- What is left of the ledger when the blocks of a first part are freed in a second. -/
theorem ledger_rounds {t before after : List Event} {acquired released kept : List ℕ}
    (hbefore : usesOf before = acquired.map Use.acquire)
    (hafter : usesOf after = released.map Use.release) (h : acquired.Perm (released ++ kept)) :
    ledger (t ++ (before ++ after)) = ledger t + kept := by
  rw [ledger_append, usesOf_append, hbefore, hafter, settle_rounds h]

theorem usesOf_cons_call {client : ClientId} {method : Method} {c : LibCall} {r : Reply}
    (t : List Event) : usesOf (.call client method c r :: t) = usesOf t :=
  List.filterMap_cons_none rfl

/-- Distinct blocks that are obtained before a call and freed after it in another order. -/
theorem freedAfter_of_perm {c : LibCall} {before after : List Event} {released : List ℕ}
    (hbefore : usesOf before = c.buffers.map Use.acquire)
    (hafter : usesOf after = released.map Use.release) (hdistinct : c.buffers.Nodup)
    (h : c.buffers.Perm released) : FreedAfter c before after where
  obtained := hbefore
  distinct := hdistinct
  freed := fun address haddress => by
    rw [hafter]
    exact count_releases (h.nodup_iff.1 hdistinct) (h.mem_iff.1 haddress)
  nothingElse := fun use huse => by
    rw [hafter] at huse
    obtain ⟨address, haddress, rfl⟩ := List.mem_map.1 huse
    exact ⟨address, h.mem_iff.2 haddress, rfl⟩

theorem balances_of_perm {client : ClientId} {method : Method} {c : LibCall} {r : Reply}
    {before after : List Event} {released : List ℕ}
    (htrace : w'.trace = w.trace ++ (before ++ .call client method c r :: after))
    (hbefore : usesOf before = c.buffers.map Use.acquire)
    (hafter : usesOf after = released.map Use.release) (hne : c.buffers ≠ [])
    (hdistinct : c.buffers.Nodup) (h : c.buffers.Perm released) : Balances w w' where
  ledger := by
    have hall : c.buffers.Perm (released ++ []) := by rwa [List.append_nil]
    rw [htrace, ledger_rounds hbefore ((usesOf_cons_call after).trans hafter) hall]
    exact Multiset.add_zero _
  freed := ⟨before, after, client, method, c, r, hne, htrace,
    freedAfter_of_perm hbefore hafter hdistinct h⟩

/-- A batch of unsubscriptions frees the array and all the copies, whatever the library answers. -/
theorem unsubscribeTopics_balances (env : Env) (self : ClientId) (w : World)
    (topics : List NSString) : Balances w (w.unsubscribeTopics env self topics).1 := by
  obtain ⟨count, hcount⟩ : ∃ count, (cInt topics.length).toNat = count := ⟨_, rfl⟩
  obtain ⟨strings, hstrings⟩ : ∃ strings, (topics.take count).map utf8 = strings := ⟨_, rfl⟩
  have hlength : strings.length ≤ count := by
    rw [← hstrings, List.length_map, List.length_take]
    exact Nat.min_le_left _ _
  have hbuffers : LibCall.buffers (.unsubscribeMany (w.malloc.clients self).mqttAsyncHandle
      (cInt topics.length) ⟨w.nextAddress, (w.malloc.strdup strings).2⟩ {}) =
      w.nextAddress :: List.range' w.malloc.nextAddress strings.length := by
    rw [LibCall.buffers, strdup_addresses]
  unfold World.unsubscribeTopics
  dsimp only
  rw [hcount, hstrings]
  obtain ⟨before, after, r, htrace, hbefore, hafter⟩ := copies_around env self w.malloc strings
    .unsubscribeTopics (.unsubscribeMany (w.malloc.clients self).mqttAsyncHandle
      (cInt topics.length) ⟨w.nextAddress, (w.malloc.strdup strings).2⟩ {}) count w.nextAddress
  rw [List.take_of_length_le (by rwa [List.length_range'])] at hafter
  have hwhole : usesOf (.malloc w.nextAddress :: before) =
      (w.nextAddress :: List.range' w.malloc.nextAddress strings.length).map Use.acquire :=
    congrArg (Use.acquire w.nextAddress :: ·) hbefore
  rw [← hbuffers] at hwhole
  refine balances_of_perm (htrace.trans (List.append_assoc w.trace [.malloc w.nextAddress] _))
    hwhole hafter ?_ ?_ ?_
  · rw [hbuffers]
    exact List.cons_ne_nil _ _
  · rw [hbuffers, nextAddress_malloc, ← List.range'_succ]
    exact List.nodup_range'
  · rw [hbuffers]
    exact (List.perm_append_singleton _ _).symm

theorem perm_release_but_first (a b : ℕ) (l : List ℕ) (count : ℕ) :
    (a :: b :: l).Perm ((l.take count ++ [b]) ++ a :: l.drop count) := by
  calc List.Perm (a :: b :: l) (a :: b :: (l.take count ++ l.drop count)) := by
        rw [List.take_append_drop]
    List.Perm _ (a :: (l.take count ++ [b] ++ l.drop count)) := by
        rw [List.append_assoc]
        exact List.Perm.cons a List.perm_middle.symm
    List.Perm _ ((l.take count ++ [b]) ++ a :: l.drop count) := List.perm_middle.symm

/-- A batch of subscriptions leaves the block of the qualities, and the copies beyond the count. -/
theorem ledger_subscribeTopics (env : Env) (self : ClientId) (w : World) (topics : List PahoTopic) :
    ledger (w.subscribeTopics env self topics).1.trace = ledger w.trace +
      (w.nextAddress :: (List.range' (w.nextAddress + 2) topics.length).drop
        (cInt topics.length).toNat : List ℕ) := by
  obtain ⟨count, hcount⟩ : ∃ count, (cInt topics.length).toNat = count := ⟨_, rfl⟩
  unfold World.subscribeTopics
  dsimp only
  rw [hcount]
  obtain ⟨before, after, r, htrace, hbefore, hafter⟩ := copies_around env self w.malloc.malloc
    (topics.map fun topic => utf8 topic.topic) .subscribeTopics
    (.subscribeMany (w.malloc.malloc.clients self).mqttAsyncHandle (cInt topics.length)
      ⟨w.malloc.nextAddress, (w.malloc.malloc.strdup (topics.map fun topic => utf8 topic.topic)).2⟩
      ⟨w.nextAddress, topics.map PahoTopic.qos⟩
      { context := some (.client self)
        onSuccess5 := some .onSubscribeSuccess
        onFailure5 := some .onSubscribeFailue }) count w.malloc.nextAddress
  have haddress : w.malloc.malloc.nextAddress = w.nextAddress + 2 := by
    rw [nextAddress_malloc, nextAddress_malloc]
  rw [haddress, List.length_map] at hbefore hafter
  have hwhole : usesOf (.malloc w.nextAddress :: .malloc w.malloc.nextAddress :: before) =
      (w.nextAddress :: w.malloc.nextAddress ::
        List.range' (w.nextAddress + 2) topics.length).map Use.acquire :=
    congrArg (Use.acquire w.nextAddress :: Use.acquire w.malloc.nextAddress :: ·) hbefore
  have hmallocs : ∀ events, w.malloc.malloc.trace ++ events =
      w.trace ++ (.malloc w.nextAddress :: .malloc w.malloc.nextAddress :: events) := fun events =>
    (List.append_assoc w.malloc.trace [.malloc w.malloc.nextAddress] events).trans
      (List.append_assoc w.trace [.malloc w.nextAddress] _)
  rw [hmallocs] at htrace
  exact (congrArg ledger htrace).trans
    (ledger_rounds hwhole ((usesOf_cons_call after).trans hafter)
      (perm_release_but_first _ _ _ count))

theorem usesOf_call (env : Env) (self : ClientId) (method : Method) (c : LibCall) (w : World) :
    usesOf (w.call env self method c).1.trace = usesOf w.trace := by
  have hanswer : usesOf (w.answer env self method c w.trace) = [] := usesOf_window w _
  rw [World.call, World.emit_trace, usesOf_append, hanswer, List.append_nil]

theorem usesOf_destroy (method : Method) :
    usesOf (w.destroy env self method).trace = usesOf w.trace := usesOf_call env self method _ w

theorem usesOf_disconnect : usesOf (w.disconnect env self).trace = usesOf w.trace := by
  unfold World.disconnect
  split
  · rfl
  · exact (usesOf_destroy .disconnect).trans (usesOf_call env self .disconnect _ w)

theorem fillConnectOpts_trace (userProperties : Option (NSDictionary PropertyObject)) :
    (w.fillConnectOpts env self userProperties).trace = w.trace := by
  unfold World.fillConnectOpts
  dsimp only
  split <;> split_ifs <;> rfl

theorem usesOf_sendConnect (userProperties : Option (NSDictionary PropertyObject)) :
    usesOf (w.sendConnect env self userProperties).1.trace = usesOf w.trace := by
  have hfilled : usesOf (w.fillConnectOpts env self userProperties).trace = usesOf w.trace :=
    congrArg usesOf (fillConnectOpts_trace userProperties)
  exact (usesOf_call env self .connect _ _).trans hfilled

/-- A connect obtains no blocks and frees none. -/
theorem usesOf_connectWithUsername (env : Env) (self : ClientId) (w : World)
    (username password : Option NSString)
    (userProperties : Option (NSDictionary PropertyObject)) :
    usesOf (w.connectWithUsername env self username password userProperties).1.trace =
      usesOf w.trace := by
  have hor : ∀ {attempt : World × ℤ} {next : World → World × ℤ},
      usesOf attempt.1.trace = usesOf w.trace → usesOf (next attempt.1).1.trace = usesOf w.trace →
      usesOf (World.orDestroy env self attempt next).1.trace = usesOf w.trace :=
    fun h hnext => orDestroy_of (P := fun v => usesOf v.trace = usesOf w.trace)
      ((usesOf_destroy .connect).trans h) hnext
  have hcreated : usesOf ((w.prepare env self username password).create env self).1.trace =
      usesOf w.trace := (usesOf_call env self .connect _ _).trans usesOf_disconnect
  have hconnected : ∀ {v : World}, usesOf v.trace = usesOf w.trace →
      usesOf (v.setConnected env self).1.trace = usesOf w.trace :=
    fun hv => (usesOf_call env self .connect _ _).trans hv
  have hcallbacks : ∀ {v : World}, usesOf v.trace = usesOf w.trace →
      usesOf (v.setCallbacks env self).1.trace = usesOf w.trace :=
    fun hv => (usesOf_call env self .connect _ _).trans hv
  have hsent : ∀ {v : World}, usesOf v.trace = usesOf w.trace →
      usesOf (v.sendConnect env self userProperties).1.trace = usesOf w.trace :=
    fun hv => (usesOf_sendConnect userProperties).trans hv
  refine hor hcreated (hor (hconnected hcreated) ?_)
  have hregistered := hcallbacks (hconnected hcreated)
  exact hor hregistered (hor (hsent hregistered) (hsent hregistered))

/-- The copies of a server list are freed before the setter returns. -/
theorem ledger_setServerURIs (self : ClientId) (serverURIs : Option (List NSString)) (w : World) :
    ledger (w.setServerURIs self serverURIs).trace = ledger w.trace := by
  obtain ⟨count, h⟩ : ∃ count, w.setServerURIs self serverURIs =
      w.setCountedURIs self serverURIs count := ⟨_, setServerURIs_eq self serverURIs w⟩
  obtain ⟨strings, hstrings⟩ : ∃ strings,
      ((serverURIs.getD []).take count).map utf8 = strings := ⟨_, rfl⟩
  have hlength : (w.malloc.strdup strings).2.length ≤ count := by
    rw [World.strdup_length, ← hstrings, List.length_map, List.length_take]
    exact Nat.min_le_left _ _
  have htrace : (w.setServerURIs self serverURIs).trace = w.trace ++
      ((.malloc w.nextAddress :: (w.malloc.strdup strings).2.map fun buffer =>
          .malloc buffer.address) ++
        (((w.malloc.strdup strings).2.map fun buffer => .free buffer.address) ++
          [.free w.nextAddress])) := by
    rw [h, World.setCountedURIs, hstrings]
    dsimp only
    rw [World.modify_trace, World.free_trace, World.freeAll_trace, World.modify_trace,
      strdup_trace, List.take_of_length_le hlength, World.malloc, World.emit_trace]
    simp only [List.append_assoc, List.cons_append, List.nil_append]
  have hobtained : usesOf (.malloc w.nextAddress :: (w.malloc.strdup strings).2.map fun buffer =>
      .malloc buffer.address) =
      (w.nextAddress :: (w.malloc.strdup strings).2.map Buffer.address).map Use.acquire :=
    congrArg (Use.acquire w.nextAddress :: ·) (usesOf_mallocs _)
  have hfreed : usesOf (((w.malloc.strdup strings).2.map fun buffer => .free buffer.address) ++
      [.free w.nextAddress]) =
      ((w.malloc.strdup strings).2.map Buffer.address ++ [w.nextAddress]).map Use.release := by
    rw [usesOf_append, usesOf_frees, List.map_append]
    rfl
  have hperm := (List.perm_append_singleton w.nextAddress
    ((w.malloc.strdup strings).2.map Buffer.address)).symm
  rw [htrace, ledger_rounds hobtained hfreed (hperm.trans (by rw [List.append_nil]))]
  exact Multiset.add_zero _

/-- A batch of subscriptions, of any length. -/
def Action.SubscribesBatch (action : Action) : Prop :=
  ∃ client topics, action = .operation client (.subscribeTopics topics)

theorem ledger_returning (method : Method) (result : World × ℤ) :
    ledger (World.returning self method result).trace = ledger result.1.trace :=
  ledger_congr ((usesOf_append _ _).trans (List.append_nil _))

theorem usesOf_publish {message : PahoPublishedMessage} {properties : PahoProperties}
    {result : World × ℤ} (h : w.publish env self message properties = some result) :
    usesOf result.1.trace = usesOf w.trace := by
  obtain ⟨lenString, -, h⟩ := Option.bind_eq_some_iff.1 h
  obtain ⟨props, -, rfl⟩ := Option.map_eq_some_iff.1 h
  dsimp only
  rw [World.emit_trace, usesOf_append, usesOf_call]
  exact List.append_nil _

theorem usesOf_isConnected : usesOf (w.isConnected env self).1.trace = usesOf w.trace := by
  unfold World.isConnected
  split
  · rfl
  · exact usesOf_call env self .isConnected _ w

theorem ledger_lt_subscribeTopics (env : Env) (self : ClientId) (w : World)
    (topics : List PahoTopic) :
    ledger w.trace < ledger (w.subscribeTopics env self topics).1.trace := by
  rw [ledger_subscribeTopics, ← Multiset.cons_coe, Multiset.add_cons]
  exact (Multiset.le_add_right _ _).trans_lt (Multiset.lt_cons_self _ _)

theorem ledger_of_returning {method : Method} {result : World × ℤ}
    (h : usesOf result.1.trace = usesOf w.trace) :
    ledger (World.returning self method result).trace = ledger w.trace :=
  (ledger_returning method result).trans (ledger_congr h)

/-- Operations other than a batch of subscriptions keep the ledger. -/
theorem ledger_run {op : Operation} (h : op.run env self w = some w')
    (hop : ∀ topics, op ≠ .subscribeTopics topics) : ledger w'.trace = ledger w.trace := by
  cases op with
  | connect username password userProperties =>
      cases h
      exact ledger_of_returning
        (usesOf_connectWithUsername env self w username password userProperties)
  | disconnect =>
      cases h
      exact ledger_of_returning usesOf_disconnect
  | subscribe topic qos =>
      cases h
      exact ledger_of_returning (usesOf_call env self .subscribe _ w)
  | subscribeTopics topics => exact absurd rfl (hop topics)
  | unsubscribeTopic topic =>
      cases h
      exact ledger_of_returning (usesOf_call env self .unsubscribeTopic _ w)
  | unsubscribeTopics topics =>
      cases h
      exact (ledger_returning .unsubscribeTopics _).trans
        (unsubscribeTopics_balances env self w topics).ledger
  | publish message properties =>
      obtain ⟨result, hresult, rfl⟩ := Option.map_eq_some_iff.1 h
      exact ledger_of_returning (usesOf_publish hresult)
  | isConnected =>
      cases h
      exact ledger_of_returning usesOf_isConnected
  | set setter =>
      cases h
      rfl
  | setServerURIs serverURIs =>
      cases h
      exact ledger_setServerURIs self serverURIs w
  | setSSL ssl =>
      cases h
      rfl

/-- Only a batch of subscriptions adds to the ledger, and no step takes from it. -/
theorem ledger_act {action : Action} (h : w.act env action = some w') :
    action.SubscribesBatch ∧ ledger w.trace < ledger w'.trace ∨
      ¬ action.SubscribesBatch ∧ ledger w'.trace = ledger w.trace := by
  by_cases hbatch : action.SubscribesBatch
  · obtain ⟨client, topics, rfl⟩ := hbatch
    cases h
    rw [ledger_returning]
    exact Or.inl ⟨⟨client, topics, rfl⟩, ledger_lt_subscribeTopics env client w topics⟩
  · refine Or.inr ⟨hbatch, ?_⟩
    cases action with
    | operation client op =>
        refine ledger_run h fun topics hop => ?_
        rw [hop] at hbatch
        exact hbatch ⟨client, topics, rfl⟩
    | setSSLOption ssl setter =>
        cases h
        rfl

/-- A run leaves the ledger as it was exactly when there is no batch of subscriptions in it. -/
theorem ledger_run_iff {actions : List Action}
    (hrun : runFrom (World.act env) w actions = some w') :
    ledger w'.trace = ledger w.trace ↔ ∀ action ∈ actions, ¬ action.SubscribesBatch := by
  have hgrows : ∀ (v : World) (action : Action) (v' : World), ledger w.trace ≤ ledger v.trace →
      v.act env action = some v' → ledger w.trace ≤ ledger v'.trace := by
    intro v action v' hv h
    rcases ledger_act h with ⟨-, hlt⟩ | ⟨-, heq⟩
    · exact hv.trans hlt.le
    · rwa [heq]
  have hexact : ∀ (v : World) (action : Action) (v' : World), ledger w.trace ≤ ledger v.trace →
      v.act env action = some v' →
      (ledger v'.trace = ledger w.trace ↔
        ledger v.trace = ledger w.trace ∧ ¬ action.SubscribesBatch) := by
    intro v action v' hv h
    rcases ledger_act h with ⟨hbatch, hlt⟩ | ⟨hbatch, heq⟩
    · exact iff_of_false (hv.trans_lt hlt).ne' fun hno => hno.2 hbatch
    · rw [heq]
      exact (and_iff_left hbatch).symm
  have hall : ledger w'.trace = ledger w.trace ↔ ledger w.trace = ledger w.trace ∧
      AllSteps (World.act env) (fun _ action => ¬ action.SubscribesBatch) w actions :=
    runFrom_iff_allSteps (P := fun v => ledger v.trace = ledger w.trace) hgrows hexact le_rfl hrun
  rw [hall, allSteps_input_iff hrun]
  exact and_iff_right rfl

/-- **The buffers of a batch.** Whatever the library answers, a batch of unsubscriptions frees what it
obtained, once and after its call, and a batch of subscriptions does not. A run returns with the ledger
it found exactly when it has no batch of subscriptions. -/
theorem batch_balances_iff (env : Env) (self : ClientId) (w : World) :
    (∀ topics : List NSString, Balances w (w.unsubscribeTopics env self topics).1) ∧
      (∀ topics : List PahoTopic, ¬ Balances w (w.subscribeTopics env self topics).1) ∧
      ∀ actions w', runFrom (World.act env) w actions = some w' →
        (ledger w'.trace = ledger w.trace ↔ ∀ action ∈ actions, ¬ action.SubscribesBatch) := by
  refine ⟨unsubscribeTopics_balances env self w, fun topics h => ?_, fun actions w' hrun =>
    ledger_run_iff hrun⟩
  exact absurd h.ledger (ledger_lt_subscribeTopics env self w topics).ne'

theorem batch_balances_twice :
    ∃ w', runFrom (World.act obligingEnv) (World.initial (fun _ => "c") fun _ => some 0)
        [.operation 0 (.unsubscribeTopics ["a", "b"]), .operation 1 (.unsubscribeTopics [])] =
          some w' ∧ ledger w'.trace = 0 := by
  have hrun : runFrom (World.act obligingEnv) (World.initial (fun _ => "c") fun _ => some 0)
      [.operation 0 (.unsubscribeTopics ["a", "b"]), .operation 1 (.unsubscribeTopics [])] =
        some _ := rfl
  obtain ⟨-, -, hruns⟩ := batch_balances_iff obligingEnv 0
    (World.initial (fun _ => "c") fun _ => some 0)
  refine ⟨_, hrun, (hruns _ _ hrun).2 fun action haction => ?_⟩
  rintro ⟨client, topics, rfl⟩
  simp at haction

/-- A batch of one subscription leaves the block of its quality. -/
theorem subscribeTopics_leaves_qualities :
    ledger ((World.initial (fun _ => "c") fun _ => some 0).subscribeTopics obligingEnv 0
        [⟨"a", 0⟩]).1.trace = {0} ∧
      ¬ Balances (World.initial (fun _ => "c") fun _ => some 0)
        ((World.initial (fun _ => "c") fun _ => some 0).subscribeTopics obligingEnv 0
          [⟨"a", 0⟩]).1 := by
  have hleft : ledger ((World.initial (fun _ => "c") fun _ => some 0).subscribeTopics obligingEnv 0
      [⟨"a", 0⟩]).1.trace = {0} := by
    rw [ledger_subscribeTopics, List.length_singleton, cInt_of_lt (by decide)]
    rfl
  refine ⟨hleft, fun h => ?_⟩
  exact absurd (hleft.symm.trans h.ledger) (Multiset.singleton_ne_zero 0)

end CocoaPaho
