import CocoaPaho.MQTTAsync
import CocoaPaho.PahoHelper

/-!
`PahoSSLOptions.m`, as built with SSL: the options object, which keeps the C structure beside the
values of its string and block properties, and the two C functions it registers.
-/

namespace CocoaPaho

open Base

abbrev PahoSSLErrorCallback := Option NSString → ℤ

/-- What a PSK block writes into the two buffers, and the key length it returns. -/
structure PSKAnswer where
  identity : List UInt8 := []
  psk : List UInt8 := []
  returned : ℕ := 0

/-- A PSK block, by the hint and the two limits it is given. -/
abbrev PahoSSLPSKCallback := Option CString → ℕ → ℕ → PSKAnswer

structure PahoSSLOptions where
  sslOpts : MQTTAsyncSSLOptions := {}
  trustStore : Option NSString := none
  keyStore : Option NSString := none
  privateKey : Option NSString := none
  privateKeyPassword : Option NSString := none
  enabledCipherSuites : Option NSString := none
  caPath : Option NSString := none
  sslErrorCallback : Option PahoSSLErrorCallback := none
  sslPSKCallback : Option PahoSSLPSKCallback := none

namespace PahoSSLOptions

def setStructVersion (structVersion : ℤ) (self : PahoSSLOptions) : PahoSSLOptions :=
  { self with sslOpts := { self.sslOpts with structVersion := structVersion } }

def structVersion (self : PahoSSLOptions) : ℤ := self.sslOpts.structVersion

def setTrustStore (trustStore : Option NSString) (self : PahoSSLOptions) : PahoSSLOptions :=
  { self with
    sslOpts := { self.sslOpts with trustStore := utf8String trustStore }
    trustStore := trustStore }

def setKeyStore (keyStore : Option NSString) (self : PahoSSLOptions) : PahoSSLOptions :=
  { self with
    sslOpts := { self.sslOpts with keyStore := utf8String keyStore }
    keyStore := keyStore }

def setPrivateKey (privateKey : Option NSString) (self : PahoSSLOptions) : PahoSSLOptions :=
  { self with
    sslOpts := { self.sslOpts with privateKey := utf8String privateKey }
    privateKey := privateKey }

def setPrivateKeyPassword (privateKeyPassword : Option NSString) (self : PahoSSLOptions) :
    PahoSSLOptions :=
  { self with
    sslOpts := { self.sslOpts with privateKeyPassword := utf8String privateKeyPassword }
    privateKeyPassword := privateKeyPassword }

def setEnabledCipherSuites (enabledCipherSuites : Option NSString) (self : PahoSSLOptions) :
    PahoSSLOptions :=
  { self with
    sslOpts := { self.sslOpts with enabledCipherSuites := utf8String enabledCipherSuites }
    enabledCipherSuites := enabledCipherSuites }

def setEnableServerCertAuth (enableServerCertAuth : Bool) (self : PahoSSLOptions) :
    PahoSSLOptions :=
  { self with sslOpts := { self.sslOpts with
      enableServerCertAuth := if enableServerCertAuth then 1 else 0 } }

def enableServerCertAuth (self : PahoSSLOptions) : Bool := self.sslOpts.enableServerCertAuth = 1

def setSslVersion (sslVersion : ℤ) (self : PahoSSLOptions) : PahoSSLOptions :=
  { self with sslOpts := { self.sslOpts with sslVersion := sslVersion } }

def sslVersion (self : PahoSSLOptions) : ℤ := self.sslOpts.sslVersion

def setVerify (verify : Bool) (self : PahoSSLOptions) : PahoSSLOptions :=
  { self with sslOpts := { self.sslOpts with verify := if verify then 1 else 0 } }

def verify (self : PahoSSLOptions) : Bool := self.sslOpts.verify = 1

def setCApath (caPath : Option NSString) (self : PahoSSLOptions) : PahoSSLOptions :=
  { self with
    sslOpts := { self.sslOpts with caPath := utf8String caPath }
    caPath := caPath }

def setDisableDefaultTrustStore (disableDefaultTrustStore : Bool) (self : PahoSSLOptions) :
    PahoSSLOptions :=
  { self with sslOpts := { self.sslOpts with
      disableDefaultTrustStore := if disableDefaultTrustStore then 1 else 0 } }

def disableDefaultTrustStore (self : PahoSSLOptions) : Bool :=
  self.sslOpts.disableDefaultTrustStore = 1

/-- `setSslErrorCallback:` of the object `ssl`. Of `nil` it clears the structure only. -/
def setSslErrorCallback (ssl : SSLId) (sslErrorCallback : Option PahoSSLErrorCallback)
    (self : PahoSSLOptions) : PahoSSLOptions :=
  match sslErrorCallback with
  | none => { self with sslOpts := { self.sslOpts with
      sslErrorCb := none, sslErrorContext := none } }
  | some callback => { self with
      sslOpts := { self.sslOpts with
        sslErrorCb := some .sslErrorCb, sslErrorContext := some (.ssl ssl) }
      sslErrorCallback := some callback }

/-- `setSslPSKCallback:` of the object `ssl`. -/
def setSslPSKCallback (ssl : SSLId) (sslPSKCallback : Option PahoSSLPSKCallback)
    (self : PahoSSLOptions) : PahoSSLOptions :=
  match sslPSKCallback with
  | none => { self with sslOpts := { self.sslOpts with
      sslPskCb := none, sslPskContext := none } }
  | some callback => { self with
      sslOpts := { self.sslOpts with
        sslPskCb := some .sslPSKCb, sslPskContext := some (.ssl ssl) }
      sslPSKCallback := some callback }

/-- `sslOptions`: a copy of the structure. -/
def sslOptions (self : PahoSSLOptions) : MQTTAsyncSSLOptions := self.sslOpts

end PahoSSLOptions

/-- `sslErrorCb`, of which the context is the object's own pointer or `NULL`. -/
def sslErrorCb (options : Option PahoSSLOptions) (str : Option CString) : ℤ :=
  match options.bind PahoSSLOptions.sslErrorCallback with
  | none => 0
  | some sslErrorCallback => sslErrorCallback (str.bind stringWithUTF8String)

/-- `sslPSKCb`. The block is given the key's limit as the identity's. -/
def sslPSKCb (options : Option PahoSSLOptions) (hint : Option CString)
    (_maxIdentityLen maxPskLen : ℕ) : PSKAnswer :=
  match options.bind PahoSSLOptions.sslPSKCallback with
  | none => {}
  | some sslPSKCallback => sslPSKCallback hint maxPskLen maxPskLen

/-- An assignment to one of the properties. -/
inductive SSLSetter where
  | structVersion (value : ℤ)
  | trustStore (value : Option NSString)
  | keyStore (value : Option NSString)
  | privateKey (value : Option NSString)
  | privateKeyPassword (value : Option NSString)
  | enabledCipherSuites (value : Option NSString)
  | enableServerCertAuth (value : Bool)
  | sslVersion (value : ℤ)
  | verify (value : Bool)
  | caPath (value : Option NSString)
  | disableDefaultTrustStore (value : Bool)
  | sslErrorCallback (value : Option PahoSSLErrorCallback)
  | sslPSKCallback (value : Option PahoSSLPSKCallback)

def SSLSetter.apply (ssl : SSLId) : SSLSetter → PahoSSLOptions → PahoSSLOptions
  | structVersion value => PahoSSLOptions.setStructVersion value
  | trustStore value => PahoSSLOptions.setTrustStore value
  | keyStore value => PahoSSLOptions.setKeyStore value
  | privateKey value => PahoSSLOptions.setPrivateKey value
  | privateKeyPassword value => PahoSSLOptions.setPrivateKeyPassword value
  | enabledCipherSuites value => PahoSSLOptions.setEnabledCipherSuites value
  | enableServerCertAuth value => PahoSSLOptions.setEnableServerCertAuth value
  | sslVersion value => PahoSSLOptions.setSslVersion value
  | verify value => PahoSSLOptions.setVerify value
  | caPath value => PahoSSLOptions.setCApath value
  | disableDefaultTrustStore value => PahoSSLOptions.setDisableDefaultTrustStore value
  | sslErrorCallback value => PahoSSLOptions.setSslErrorCallback ssl value
  | sslPSKCallback value => PahoSSLOptions.setSslPSKCallback ssl value

/-- The callbacks of the structure are the two C functions, with the object itself as context. -/
structure MQTTAsyncSSLOptions.Bridges (ssl : SSLId) (opts : MQTTAsyncSSLOptions) : Prop where
  error : opts.sslErrorCb = none ∨
    opts.sslErrorCb = some .sslErrorCb ∧ opts.sslErrorContext = some (.ssl ssl)
  psk : opts.sslPskCb = none ∨
    opts.sslPskCb = some .sslPSKCb ∧ opts.sslPskContext = some (.ssl ssl)

theorem bridges_initial (ssl : SSLId) : ({} : MQTTAsyncSSLOptions).Bridges ssl :=
  ⟨Or.inl rfl, Or.inl rfl⟩

theorem bridges_apply {ssl : SSLId} (setter : SSLSetter) {self : PahoSSLOptions}
    (h : self.sslOpts.Bridges ssl) : (setter.apply ssl self).sslOpts.Bridges ssl := by
  cases setter with
  | sslErrorCallback value =>
      cases value with
      | none => exact ⟨Or.inl rfl, h.psk⟩
      | some callback => exact ⟨Or.inr ⟨rfl, rfl⟩, h.psk⟩
  | sslPSKCallback value =>
      cases value with
      | none => exact ⟨h.error, Or.inl rfl⟩
      | some callback => exact ⟨h.error, Or.inr ⟨rfl, rfl⟩⟩
  | _ => exact ⟨h.error, h.psk⟩

theorem MQTTAsyncSSLOptions.Bridges.of_mem {ssl : SSLId} {opts : MQTTAsyncSSLOptions}
    (h : opts.Bridges ssl) {p : Context × CallbackFn} (hp : p ∈ LibCall.sslCallbacks opts) :
    p.1 = some (.ssl ssl) ∧ (p.2 = .sslErrorCb ∨ p.2 = .sslPSKCb) := by
  simp only [LibCall.sslCallbacks, List.mem_append, Option.mem_toList, Option.map_eq_some_iff] at hp
  rcases hp with ⟨fn, hfn, rfl⟩ | ⟨fn, hfn, rfl⟩
  · rcases h.error with hnone | ⟨hcb, hcontext⟩
    · rw [hnone] at hfn
      cases hfn
    · rw [hcb] at hfn
      cases hfn
      exact ⟨hcontext, Or.inl rfl⟩
  · rcases h.psk with hnone | ⟨hcb, hcontext⟩
    · rw [hnone] at hfn
      cases hfn
    · rw [hcb] at hfn
      cases hfn
      exact ⟨hcontext, Or.inr rfl⟩

end CocoaPaho
