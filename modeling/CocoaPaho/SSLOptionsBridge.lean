import CocoaPaho.Base.LastWins
import CocoaPaho.PahoSSLOptions

/-!
What a `PahoSSLOptions` holds after any sequence of assignments: the values its getters return, the
C structure it hands to the library, and the limits under which the library reaches its PSK block.
-/

namespace CocoaPaho

open Base

inductive SSLProperty where
  | structVersion
  | trustStore
  | keyStore
  | privateKey
  | privateKeyPassword
  | enabledCipherSuites
  | enableServerCertAuth
  | sslVersion
  | verify
  | caPath
  | disableDefaultTrustStore
  | sslErrorCallback
  | sslPSKCallback
  deriving DecidableEq

/-- The value of a property, of whichever kind. -/
inductive SSLValue where
  | number (value : ℤ)
  | string (value : Option NSString)
  | flag (value : Bool)
  | errorCallback (value : Option PahoSSLErrorCallback)
  | pskCallback (value : Option PahoSSLPSKCallback)

/-- What the C structure holds for one property: a number, a string, or a function with its
context. -/
inductive SSLMember where
  | number (value : ℤ)
  | string (value : Option CString)
  | callback (fn : Option CallbackFn) (context : Context)

/-- The encoding of a value in the structure of the object `ssl`. -/
def SSLValue.encode (ssl : SSLId) : SSLValue → SSLMember
  | number value => .number value
  | string value => .string (utf8String value)
  | flag value => .number (if value then 1 else 0)
  | errorCallback value => .callback (value.map fun _ => .sslErrorCb) (value.map fun _ => .ssl ssl)
  | pskCallback value => .callback (value.map fun _ => .sslPSKCb) (value.map fun _ => .ssl ssl)

/-- A block property that is `nil`. -/
def SSLValue.NoBlock : SSLValue → Prop
  | errorCallback none => True
  | pskCallback none => True
  | _ => False

instance : DecidablePred SSLValue.NoBlock
  | .number _ => isFalse id
  | .string _ => isFalse id
  | .flag _ => isFalse id
  | .errorCallback none => isTrue trivial
  | .errorCallback (some _) => isFalse id
  | .pskCallback none => isTrue trivial
  | .pskCallback (some _) => isFalse id

/-- The value of a property that was never assigned. -/
def SSLProperty.initial : SSLProperty → SSLValue
  | structVersion => .number 5
  | trustStore => .string none
  | keyStore => .string none
  | privateKey => .string none
  | privateKeyPassword => .string none
  | enabledCipherSuites => .string none
  | enableServerCertAuth => .flag true
  | sslVersion => .number 0
  | verify => .flag false
  | caPath => .string none
  | disableDefaultTrustStore => .flag false
  | sslErrorCallback => .errorCallback none
  | sslPSKCallback => .pskCallback none

/-- An assignment as an entry: the property and its value. -/
def SSLSetter.entry : SSLSetter → Σ _ : SSLProperty, SSLValue
  | structVersion value => ⟨.structVersion, .number value⟩
  | trustStore value => ⟨.trustStore, .string value⟩
  | keyStore value => ⟨.keyStore, .string value⟩
  | privateKey value => ⟨.privateKey, .string value⟩
  | privateKeyPassword value => ⟨.privateKeyPassword, .string value⟩
  | enabledCipherSuites value => ⟨.enabledCipherSuites, .string value⟩
  | enableServerCertAuth value => ⟨.enableServerCertAuth, .flag value⟩
  | sslVersion value => ⟨.sslVersion, .number value⟩
  | verify value => ⟨.verify, .flag value⟩
  | caPath value => ⟨.caPath, .string value⟩
  | disableDefaultTrustStore value => ⟨.disableDefaultTrustStore, .flag value⟩
  | sslErrorCallback value => ⟨.sslErrorCallback, .errorCallback value⟩
  | sslPSKCallback value => ⟨.sslPSKCallback, .pskCallback value⟩

/-- The value last assigned to a property, or the initial one. -/
def lastAssigned (setters : List SSLSetter) (property : SSLProperty) : SSLValue :=
  (lastValue property (setters.map SSLSetter.entry)).getD property.initial

namespace PahoSSLOptions

/-- The getter of a property. -/
def get (self : PahoSSLOptions) : SSLProperty → SSLValue
  | .structVersion => .number self.structVersion
  | .trustStore => .string self.trustStore
  | .keyStore => .string self.keyStore
  | .privateKey => .string self.privateKey
  | .privateKeyPassword => .string self.privateKeyPassword
  | .enabledCipherSuites => .string self.enabledCipherSuites
  | .enableServerCertAuth => .flag self.enableServerCertAuth
  | .sslVersion => .number self.sslVersion
  | .verify => .flag self.verify
  | .caPath => .string self.caPath
  | .disableDefaultTrustStore => .flag self.disableDefaultTrustStore
  | .sslErrorCallback => .errorCallback self.sslErrorCallback
  | .sslPSKCallback => .pskCallback self.sslPSKCallback

/-- The object `ssl` after a sequence of assignments. -/
def built (ssl : SSLId) (setters : List SSLSetter) : PahoSSLOptions :=
  setters.foldl (fun options setter => setter.apply ssl options) {}

end PahoSSLOptions

/-- The part of the C structure that belongs to a property. -/
def MQTTAsyncSSLOptions.member (opts : MQTTAsyncSSLOptions) : SSLProperty → SSLMember
  | .structVersion => .number opts.structVersion
  | .trustStore => .string opts.trustStore
  | .keyStore => .string opts.keyStore
  | .privateKey => .string opts.privateKey
  | .privateKeyPassword => .string opts.privateKeyPassword
  | .enabledCipherSuites => .string opts.enabledCipherSuites
  | .enableServerCertAuth => .number opts.enableServerCertAuth
  | .sslVersion => .number opts.sslVersion
  | .verify => .number opts.verify
  | .caPath => .string opts.caPath
  | .disableDefaultTrustStore => .number opts.disableDefaultTrustStore
  | .sslErrorCallback => .callback opts.sslErrorCb opts.sslErrorContext
  | .sslPSKCallback => .callback opts.sslPskCb opts.sslPskContext

open PahoSSLOptions

variable {ssl : SSLId} {setters : List SSLSetter} {property : SSLProperty}

/-- Only the two callbacks can be given no block, and `nil` is their initial value. -/
theorem SSLSetter.eq_initial_of_noBlock {setter : SSLSetter} (h : setter.entry.2.NoBlock) :
    setter.entry.2 = setter.entry.1.initial := by
  cases setter with
  | sslErrorCallback value =>
      cases value with
      | none => rfl
      | some callback => exact h.elim
  | sslPSKCallback value =>
      cases value with
      | none => rfl
      | some callback => exact h.elim
  | _ => exact h.elim

/-- An assignment to another property leaves a getter alone. -/
theorem get_apply_of_ne {setter : SSLSetter} (self : PahoSSLOptions)
    (h : setter.entry.1 ≠ property) : (setter.apply ssl self).get property = self.get property := by
  cases setter with
  | sslErrorCallback value => cases value <;> cases property <;> first | rfl | exact absurd rfl h
  | sslPSKCallback value => cases value <;> cases property <;> first | rfl | exact absurd rfl h
  | _ => cases property <;> first | rfl | exact absurd rfl h

theorem member_apply_of_ne {setter : SSLSetter} (self : PahoSSLOptions)
    (h : setter.entry.1 ≠ property) :
    (setter.apply ssl self).sslOptions.member property = self.sslOptions.member property := by
  cases setter with
  | sslErrorCallback value => cases value <;> cases property <;> first | rfl | exact absurd rfl h
  | sslPSKCallback value => cases value <;> cases property <;> first | rfl | exact absurd rfl h
  | _ => cases property <;> first | rfl | exact absurd rfl h

/-- The structure takes every value assigned, `nil` included. -/
theorem member_apply_self (setter : SSLSetter) (self : PahoSSLOptions) :
    (setter.apply ssl self).sslOptions.member setter.entry.1 = setter.entry.2.encode ssl := by
  cases setter with
  | sslErrorCallback value => cases value <;> rfl
  | sslPSKCallback value => cases value <;> rfl
  | _ => rfl

/-- The getter takes every value except a `nil` block, which it does not see. -/
theorem get_apply_self (setter : SSLSetter) (self : PahoSSLOptions) :
    (setter.apply ssl self).get setter.entry.1 =
      if setter.entry.2.NoBlock then self.get setter.entry.1 else setter.entry.2 := by
  cases setter with
  | enableServerCertAuth value => cases value <;> rfl
  | verify value => cases value <;> rfl
  | disableDefaultTrustStore value => cases value <;> rfl
  | sslErrorCallback value => cases value <;> rfl
  | sslPSKCallback value => cases value <;> rfl
  | _ => rfl

/-- The assignments that are not of a `nil` block. -/
def assignsValue (setter : SSLSetter) : Bool := ¬ setter.entry.2.NoBlock

@[simp] theorem built_nil : built ssl [] = {} := rfl

@[simp] theorem built_append_singleton (setter : SSLSetter) :
    built ssl (setters ++ [setter]) = setter.apply ssl (built ssl setters) := by
  rw [built, built, List.foldl_append, List.foldl_cons, List.foldl_nil]

@[simp] theorem lastAssigned_nil : lastAssigned [] property = property.initial := rfl

theorem lastAssigned_append_singleton (setter : SSLSetter) :
    lastAssigned (setters ++ [setter]) property =
      if setter.entry.1 = property then setter.entry.2 else lastAssigned setters property := by
  rw [lastAssigned, List.map_append, List.map_singleton, lastValue_append_singleton]
  split <;> rfl

/-- What a property holds last is its initial value, or a value it was assigned. -/
theorem lastAssigned_cases (setters : List SSLSetter) (property : SSLProperty) :
    (lastAssigned setters property = property.initial ∧
      ∀ setter ∈ setters, setter.entry.1 ≠ property) ∨
    ∃ setter ∈ setters, setter.entry.1 = property ∧
      lastAssigned setters property = setter.entry.2 := by
  unfold lastAssigned
  cases hlast : lastValue property (setters.map SSLSetter.entry) with
  | none =>
      refine Or.inl ⟨rfl, fun setter hsetter => ?_⟩
      exact lastValue_eq_none_iff.1 hlast _ (List.mem_map_of_mem hsetter)
  | some value =>
      obtain ⟨setter, hsetter, hentry⟩ := List.mem_map.1 (mem_of_lastValue_eq_some hlast)
      refine Or.inr ⟨setter, hsetter, ?_, ?_⟩
      · rw [hentry]
      · rw [hentry]
        rfl

/-- The structure always holds the value last assigned. -/
theorem member_built (ssl : SSLId) (setters : List SSLSetter) (property : SSLProperty) :
    (built ssl setters).sslOptions.member property =
      (lastAssigned setters property).encode ssl := by
  induction setters using List.reverseRecOn with
  | nil => cases property <;> rfl
  | append_singleton setters setter ih =>
      rw [built_append_singleton, lastAssigned_append_singleton]
      split
      · rename_i heq
        subst heq
        exact member_apply_self setter _
      · rename_i hne
        rw [member_apply_of_ne _ hne, ih]

/-- The getter returns the last value assigned that is not a `nil` block. -/
theorem get_built (ssl : SSLId) (setters : List SSLSetter) (property : SSLProperty) :
    (built ssl setters).get property = lastAssigned (setters.filter assignsValue) property := by
  induction setters using List.reverseRecOn with
  | nil => cases property <;> rfl
  | append_singleton setters setter ih =>
      rw [built_append_singleton, List.filter_append]
      by_cases heq : setter.entry.1 = property
      · subst heq
        rw [get_apply_self, ih]
        by_cases hnone : setter.entry.2.NoBlock
        · simp [assignsValue, hnone]
        · simp [assignsValue, hnone, lastAssigned_append_singleton]
      · rw [get_apply_of_ne _ heq, ih]
        by_cases hnone : setter.entry.2.NoBlock
        · simp [assignsValue, hnone]
        · simp [assignsValue, hnone, lastAssigned_append_singleton, heq]

/-- The object in step after a sequence of assignments: every getter returns the value last
assigned, the structure holds its encoding, and a further assignment touches its own property
only. -/
structure InStep (ssl : SSLId) (setters : List SSLSetter) : Prop where
  getters : ∀ property, (built ssl setters).get property = lastAssigned setters property
  members : ∀ property, (built ssl setters).sslOptions.member property =
    (lastAssigned setters property).encode ssl
  others : ∀ (setter : SSLSetter) (property : SSLProperty), setter.entry.1 ≠ property →
    (setter.apply ssl (built ssl setters)).get property = (built ssl setters).get property ∧
    (setter.apply ssl (built ssl setters)).sslOptions.member property =
      (built ssl setters).sslOptions.member property

/-- A property that is left without a block was never assigned one. -/
def ClearsNothing (setters : List SSLSetter) : Prop :=
  ∀ property, (lastAssigned setters property).NoBlock →
    ∀ setter ∈ setters, setter.entry.1 = property → setter.entry.2.NoBlock

/-- A value that is not a `nil` block is still the last one when those are left out. -/
theorem lastAssigned_filter (h : ¬ (lastAssigned setters property).NoBlock) :
    lastAssigned (setters.filter assignsValue) property = lastAssigned setters property := by
  induction setters using List.reverseRecOn with
  | nil => rfl
  | append_singleton setters setter ih =>
      rw [lastAssigned_append_singleton] at h ⊢
      rw [List.filter_append]
      by_cases heq : setter.entry.1 = property
      · rw [if_pos heq] at h ⊢
        simp [assignsValue, h, lastAssigned_append_singleton, heq]
      · rw [if_neg heq] at h ⊢
        by_cases hnone : setter.entry.2.NoBlock
        · simp [assignsValue, hnone, ih h]
        · simp [assignsValue, hnone, lastAssigned_append_singleton, heq, ih h]

theorem lastAssigned_eq_initial (h : (lastAssigned setters property).NoBlock) :
    lastAssigned setters property = property.initial := by
  rcases lastAssigned_cases setters property with ⟨hlast, -⟩ | ⟨setter, -, rfl, hlast⟩
  · exact hlast
  · rw [hlast] at h ⊢
    exact SSLSetter.eq_initial_of_noBlock h

/-- With the `nil` blocks left out, no block is held last only where none was ever assigned. -/
theorem noBlock_lastAssigned_filter
    (h : (lastAssigned (setters.filter assignsValue) property).NoBlock) :
    ∀ setter ∈ setters, setter.entry.1 = property → setter.entry.2.NoBlock := by
  intro setter hsetter heq
  by_contra hvalue
  rcases lastAssigned_cases (setters.filter assignsValue) property with
    ⟨-, hnever⟩ | ⟨last, hlast, -, hvalueLast⟩
  · exact hnever setter (List.mem_filter.2 ⟨hsetter, by simpa [assignsValue] using hvalue⟩) heq
  · rw [hvalueLast] at h
    have hassigns := (List.mem_filter.1 hlast).2
    simp [assignsValue, h] at hassigns

theorem get_built_of_noBlock
    (h : ∀ setter ∈ setters, setter.entry.1 = property → setter.entry.2.NoBlock) :
    (built ssl setters).get property = property.initial := by
  rw [get_built]
  rcases lastAssigned_cases (setters.filter assignsValue) property with
    ⟨hlast, -⟩ | ⟨last, hlast, heq, -⟩
  · exact hlast
  · obtain ⟨hmem, hassigns⟩ := List.mem_filter.1 hlast
    have hblock := h last hmem heq
    simp [assignsValue, hblock] at hassigns

/-- **In step.** The object is in step with its assignments exactly when no block property is left
`nil` after a block was assigned to it. -/
theorem sslOptions_inStep_iff (ssl : SSLId) (setters : List SSLSetter) :
    InStep ssl setters ↔ ClearsNothing setters := by
  constructor
  · intro h property hnone
    have hget := h.getters property
    rw [get_built] at hget
    rw [← hget] at hnone
    exact noBlock_lastAssigned_filter hnone
  · intro h
    refine ⟨fun property => ?_, member_built ssl setters, fun setter property hne =>
      ⟨get_apply_of_ne _ hne, member_apply_of_ne _ hne⟩⟩
    by_cases hnone : (lastAssigned setters property).NoBlock
    · rw [get_built_of_noBlock (h property hnone), lastAssigned_eq_initial hnone]
    · rw [get_built, lastAssigned_filter hnone]

/-- A block that was assigned is still what the getter returns after `nil` was. -/
theorem sslErrorCallback_survives_nil :
    ¬ InStep 0 [.sslErrorCallback (some fun _ => 1), .sslErrorCallback none] := by
  intro h
  have hget := h.getters .sslErrorCallback
  cases hget

/-- What a PSK callback writes and returns, within the two limits. -/
structure PSKAnswer.Within (answer : PSKAnswer) (maxIdentityLen maxPskLen : ℕ) : Prop where
  identity : answer.identity.length ≤ maxIdentityLen
  psk : answer.psk.length ≤ maxPskLen
  returned : answer.returned ≤ maxPskLen

/-- A block that keeps within the limits it is given. -/
def Respects (callback : PahoSSLPSKCallback) : Prop :=
  ∀ hint maxIdentityLen maxPskLen,
    (callback hint maxIdentityLen maxPskLen).Within maxIdentityLen maxPskLen

/-- Every PSK block among the assignments keeps within its limits. -/
def AllRespect (setters : List SSLSetter) : Prop :=
  ∀ callback, .sslPSKCallback (some callback) ∈ setters → Respects callback

/-- The PSK block an object holds was assigned to it. -/
theorem assigned_of_sslPSKCallback {callback : PahoSSLPSKCallback}
    (h : (built ssl setters).sslPSKCallback = some callback) :
    .sslPSKCallback (some callback) ∈ setters := by
  have hget : (built ssl setters).get .sslPSKCallback = .pskCallback (some callback) :=
    congrArg SSLValue.pskCallback h
  rw [get_built] at hget
  rcases lastAssigned_cases (setters.filter assignsValue) .sslPSKCallback with
    ⟨hinitial, -⟩ | ⟨setter, hsetter, -, hlast⟩
  · rw [hinitial] at hget
    cases hget
  · rw [hlast] at hget
    cases setter with
    | sslPSKCallback value =>
        cases hget
        exact List.mem_of_mem_filter hsetter
    | _ => cases hget

/-- The largest answer a respectful block can give. -/
def fillsLimits : PahoSSLPSKCallback := fun _ maxIdentityLen maxPskLen =>
  { identity := List.replicate maxIdentityLen 0
    psk := List.replicate maxPskLen 0
    returned := maxPskLen }

theorem respects_fillsLimits : Respects fillsLimits := fun _ _ _ =>
  ⟨List.length_replicate.le, List.length_replicate.le, le_rfl⟩

/-- **The PSK bridge.** Whatever respectful blocks are assigned, the library's limits are kept,
exactly when its limit for the key is no larger than the one for the identity. -/
theorem sslPSKCb_within_iff (ssl : SSLId) (hint : Option CString) (maxIdentityLen maxPskLen : ℕ) :
    (∀ setters, AllRespect setters →
      (sslPSKCb (some (built ssl setters)) hint maxIdentityLen maxPskLen).Within
        maxIdentityLen maxPskLen) ↔ maxPskLen ≤ maxIdentityLen := by
  constructor
  · intro h
    have hwithin := h [.sslPSKCallback (some fillsLimits)] fun callback hcallback => by
      cases List.mem_singleton.1 hcallback
      exact respects_fillsLimits
    calc maxPskLen = (List.replicate maxPskLen (0 : UInt8)).length := List.length_replicate.symm
      _ ≤ maxIdentityLen := hwithin.identity
  · intro hle setters hrespect
    unfold sslPSKCb
    rw [Option.bind_some]
    cases hcallback : (built ssl setters).sslPSKCallback with
    | none => exact ⟨Nat.zero_le _, Nat.zero_le _, Nat.zero_le _⟩
    | some callback =>
        have hwithin := hrespect callback (assigned_of_sslPSKCallback hcallback) hint maxPskLen
          maxPskLen
        exact ⟨hwithin.identity.trans hle, hwithin.psk, hwithin.returned⟩

/-- A block that fills its limits writes eight bytes of identity into a buffer of four. -/
theorem sslPSKCb_overruns :
    ∃ setters, AllRespect setters ∧
      ¬ (sslPSKCb (some (built 0 setters)) none 4 8).Within 4 8 := by
  refine ⟨[.sslPSKCallback (some fillsLimits)], fun callback hcallback => ?_, fun hwithin => ?_⟩
  · cases List.mem_singleton.1 hcallback
    exact respects_fillsLimits
  · exact absurd hwithin.identity (by decide)

end CocoaPaho
