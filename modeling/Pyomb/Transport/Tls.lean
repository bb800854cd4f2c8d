import Mathlib.Data.Nat.Bitwise

/-! The TLS settings of a simulator, the context that is built from them, and the weakenings
that are reported of them. The context is the `ssl` module's, with the rules of its attributes:
a certificate policy of none is refused while hostnames are checked, and checking them raises
such a policy again. What the installed library and the files decide is a parameter. -/

namespace Pyomb

/-! ### The `ssl` module -/

inductive VerifyMode where
  | certNone | certOptional | certRequired
  deriving DecidableEq, Repr

def VerifyMode.name : VerifyMode → String
  | .certNone => "CERT_NONE"
  | .certOptional => "CERT_OPTIONAL"
  | .certRequired => "CERT_REQUIRED"

inductive TlsProtocol where
  | tls | tlsClient | tlsServer | tlsv1 | tlsv1_1 | tlsv1_2
  deriving DecidableEq, Repr

/-- Whether a context of the protocol negotiates its version. -/
def TlsProtocol.Negotiates (p : TlsProtocol) : Prop := p = .tls ∨ p = .tlsClient ∨ p = .tlsServer

instance (p : TlsProtocol) : Decidable p.Negotiates := inferInstanceAs (Decidable (_ ∨ _ ∨ _))

inductive TlsVersion where
  | sslv3 | tlsv1 | tlsv1_1 | tlsv1_2 | tlsv1_3
  deriving DecidableEq, Repr

def TlsVersion.wire : TlsVersion → ℕ
  | .sslv3 => 0x0300
  | .tlsv1 => 0x0301
  | .tlsv1_1 => 0x0302
  | .tlsv1_2 => 0x0303
  | .tlsv1_3 => 0x0304

/-- The bit of the option that leaves a version out, such as `OP_NO_TLSv1`. -/
def TlsVersion.noBit : TlsVersion → ℕ
  | .sslv3 => 25
  | .tlsv1 => 26
  | .tlsv1_1 => 28
  | .tlsv1_2 => 27
  | .tlsv1_3 => 29

/-- What leaves the building of a context. -/
inductive TlsError where
  | osError | sslError | valueError
  deriving DecidableEq, Repr

/-- How the files of a certificate load. -/
inductive FileLoad where
  | loaded | unreadable | malformed
  deriving DecidableEq, Repr

/-- A file that cannot be read raises, and one that is no certificate raises an `SSLError`. -/
def FileLoad.guard {α : Type} : FileLoad → α → Except TlsError α
  | .loaded, a => .ok a
  | .unreadable, _ => .error .osError
  | .malformed, _ => .error .sslError

@[simp] theorem FileLoad.guard_loaded {α : Type} (a : α) : FileLoad.loaded.guard a = .ok a := rfl

theorem FileLoad.guard_of_ne {α : Type} {l : FileLoad} (h : l ≠ .loaded) (a : α) :
    ∃ e, l.guard a = .error e ∧ e ≠ .valueError := by
  cases l with
  | loaded => exact absurd rfl h
  | unreadable => exact ⟨.osError, rfl, by decide⟩
  | malformed => exact ⟨.sslError, rfl, by decide⟩

/-- What the installed library and the files decide: the options and the lowest version a new
context starts with, `OP_ALL`, which certificates load, and which cipher strings select a
suite. -/
structure SslLibrary where
  newOptions : TlsProtocol → ℕ
  newMinimum : TlsProtocol → TlsVersion
  opAll : ℕ
  loadsCertChain : String → String → FileLoad
  loadsVerifyLocations : String → FileLoad
  selects : String → Bool

structure SslContext where
  protocol : TlsProtocol
  certChain : Option (String × String) := none
  verifyLocations : Option String := none
  ciphers : Option String := none
  checkHostname : Bool
  verifyMode : VerifyMode
  options : ℕ
  minimumVersion : TlsVersion
  deriving DecidableEq

namespace SslContext

/-- A client's context starts out with both checks on, any other with both off. -/
def new (ssl : SslLibrary) (protocol : TlsProtocol) : SslContext where
  protocol := protocol
  checkHostname := protocol = .tlsClient
  verifyMode := if protocol = .tlsClient then .certRequired else .certNone
  options := ssl.newOptions protocol
  minimumVersion := ssl.newMinimum protocol

def loadCertChain (ssl : SslLibrary) (cert key : String) (c : SslContext) :
    Except TlsError SslContext :=
  (ssl.loadsCertChain cert key).guard { c with certChain := some (cert, key) }

def loadVerifyLocations (ssl : SslLibrary) (caChain : String) (c : SslContext) :
    Except TlsError SslContext :=
  (ssl.loadsVerifyLocations caChain).guard { c with verifyLocations := some caChain }

def setCiphers (ssl : SslLibrary) (ciphers : String) (c : SslContext) :
    Except TlsError SslContext :=
  if ssl.selects ciphers then .ok { c with ciphers := some ciphers } else .error .sslError

/-- Checking hostnames raises a certificate policy of none. -/
def setCheckHostname (value : Bool) (c : SslContext) : SslContext :=
  if value = true ∧ c.verifyMode = .certNone then
    { c with checkHostname := true, verifyMode := .certRequired }
  else { c with checkHostname := value }

/-- A policy of none is refused while hostnames are checked. -/
def setVerifyMode (value : VerifyMode) (c : SslContext) : Except TlsError SslContext :=
  if value = .certNone ∧ c.checkHostname = true then .error .valueError
  else .ok { c with verifyMode := value }

/-- Only a context that negotiates its version has a lowest one. -/
def setMinimumVersion (value : TlsVersion) (c : SslContext) : Except TlsError SslContext :=
  if c.protocol.Negotiates then .ok { c with minimumVersion := value } else .error .valueError

/-- A session under the context may run at the version. -/
def Allows (c : SslContext) (v : TlsVersion) : Prop :=
  c.minimumVersion.wire ≤ v.wire ∧ c.options.testBit v.noBit = false

instance (c : SslContext) (v : TlsVersion) : Decidable (c.Allows v) :=
  inferInstanceAs (Decidable (_ ∧ _))

end SslContext

/-! ### The settings -/

/-- Which side of the connection a context is built for. -/
inductive TlsRole where
  | client | server
  deriving DecidableEq, Repr

/-- `_ROLE_DEFAULTS`. -/
def TlsRole.protocol : TlsRole → TlsProtocol
  | .client => .tlsClient
  | .server => .tlsServer

def TlsRole.verifyHostname : TlsRole → Bool
  | .client => true
  | .server => false

/-- `_resolved`, with `none` for `UNSET`. -/
def resolved {α : Type} (chosen : Option α) (fallback : α) : α := chosen.getD fallback

/-- `TlsSettings`, with `none` for `UNSET`. -/
structure TlsSettings where
  cert : String
  key : String
  caChain : String
  protocol : Option TlsProtocol := none
  ciphers : Option (Option String) := none
  verifyMode : Option VerifyMode := none
  verifyHostname : Option Bool := none
  options : Option ℕ := none

namespace TlsSettings

def minimumVersion : TlsVersion := .tlsv1_2

def context (ssl : SslLibrary) (settings : TlsSettings) (role : TlsRole) :
    Except TlsError SslContext := do
  let protocol := resolved settings.protocol role.protocol
  let ciphers := resolved settings.ciphers none
  let verifyMode := resolved settings.verifyMode .certRequired
  let verifyHostname := resolved settings.verifyHostname role.verifyHostname
  let options := resolved settings.options ssl.opAll
  let c ← (SslContext.new ssl protocol).loadCertChain ssl settings.cert settings.key
  let c ← c.loadVerifyLocations ssl settings.caChain
  let c ← match ciphers with
    | some ciphers => c.setCiphers ssl ciphers
    | none => .ok c
  let c ← (c.setCheckHostname false).setVerifyMode verifyMode
  let c := c.setCheckHostname verifyHostname
  let c := { c with options := c.options ||| options }
  c.setMinimumVersion minimumVersion

def cipherPhrase (ciphers : String) : String := "a custom cipher suite (" ++ ciphers ++ ")"

def policyPhrase (mode : VerifyMode) : String := "peer certificate policy " ++ mode.name

def hostnamePhrase : String := "hostname checking off"

def relaxations (settings : TlsSettings) (role : TlsRole) : List String :=
  let verifyMode := resolved settings.verifyMode .certRequired
  (match resolved settings.ciphers none with
    | some ciphers => [cipherPhrase ciphers]
    | none => []) ++
  (if verifyMode ≠ .certRequired then [policyPhrase verifyMode] else []) ++
  (if role.verifyHostname = true ∧ resolved settings.verifyHostname role.verifyHostname = false then
    [hostnamePhrase] else [])

/-- What a context carries that is weaker than the baseline of the role, in the same words. -/
def weakenings (c : SslContext) (role : TlsRole) : List String :=
  (match c.ciphers with
    | some ciphers => [cipherPhrase ciphers]
    | none => []) ++
  (if c.verifyMode ≠ .certRequired then [policyPhrase c.verifyMode] else []) ++
  (if role.verifyHostname = true ∧ c.checkHostname = false then [hostnamePhrase] else [])

/-! ### What is built -/

section Built

variable (ssl : SslLibrary) (settings : TlsSettings) (role : TlsRole)

/-- The certificates load and the cipher string, where there is one, selects a suite. -/
def Loads : Prop :=
  ssl.loadsCertChain settings.cert settings.key = .loaded ∧
    ssl.loadsVerifyLocations settings.caChain = .loaded ∧
    ∀ ciphers, resolved settings.ciphers none = some ciphers → ssl.selects ciphers = true

/-- Hostnames are to be checked against certificates that nobody has to show. -/
def AtOdds : Prop :=
  resolved settings.verifyMode .certRequired = .certNone ∧
    resolved settings.verifyHostname role.verifyHostname = true

/-- The context of settings that load. -/
def built : SslContext where
  protocol := resolved settings.protocol role.protocol
  certChain := some (settings.cert, settings.key)
  verifyLocations := some settings.caChain
  ciphers := resolved settings.ciphers none
  checkHostname := resolved settings.verifyHostname role.verifyHostname
  verifyMode :=
    if resolved settings.verifyMode .certRequired = .certNone ∧
        resolved settings.verifyHostname role.verifyHostname = true then .certRequired
    else resolved settings.verifyMode .certRequired
  options := ssl.newOptions (resolved settings.protocol role.protocol) |||
    resolved settings.options ssl.opAll
  minimumVersion := minimumVersion

theorem setVerifyMode_unchecked {c : SslContext} (mode : VerifyMode)
    (h : c.checkHostname = false) : c.setVerifyMode mode = .ok { c with verifyMode := mode } := by
  simp [SslContext.setVerifyMode, h]

/-- What the hostname check finds when it is set is the policy. -/
theorem setCheckHostname_eq (c : SslContext) (hostname : Bool) :
    c.setCheckHostname hostname =
      { c with
        checkHostname := hostname
        verifyMode :=
          if c.verifyMode = .certNone ∧ hostname = true then .certRequired else c.verifyMode } := by
  cases hostname <;> by_cases hmode : c.verifyMode = .certNone <;>
    simp [SslContext.setCheckHostname, hmode]

variable {ssl settings role}

theorem context_of_loads (h : settings.Loads ssl) :
    settings.context ssl role = (settings.built ssl role).setMinimumVersion minimumVersion := by
  obtain ⟨hcert, hca, hciphers⟩ := h
  cases hc : resolved settings.ciphers none with
  | none =>
    simp [context, SslContext.loadCertChain, SslContext.loadVerifyLocations, hcert, hca, hc,
      setVerifyMode_unchecked, setCheckHostname_eq, bind, Except.bind, built,
      SslContext.new, SslContext.setMinimumVersion]
  | some ciphers =>
    have hs := hciphers ciphers hc
    simp [context, SslContext.loadCertChain, SslContext.loadVerifyLocations, hcert, hca, hc,
      SslContext.setCiphers, hs, setVerifyMode_unchecked, setCheckHostname_eq, bind, Except.bind,
      built, SslContext.new, SslContext.setMinimumVersion]

theorem context_of_not_loads (h : ¬ settings.Loads ssl) :
    ∃ e, settings.context ssl role = .error e ∧ e ≠ .valueError := by
  by_cases hcert : ssl.loadsCertChain settings.cert settings.key = .loaded
  · by_cases hca : ssl.loadsVerifyLocations settings.caChain = .loaded
    · have hs : ∃ ciphers, resolved settings.ciphers none = some ciphers ∧
          ssl.selects ciphers = false := by
        simpa [Loads, hcert, hca] using h
      obtain ⟨ciphers, hc, hs⟩ := hs
      refine ⟨.sslError, ?_, by decide⟩
      simp [context, SslContext.loadCertChain, SslContext.loadVerifyLocations, hcert,
        hca, hc, SslContext.setCiphers, hs, bind, Except.bind]
    · obtain ⟨e, he, hne⟩ := FileLoad.guard_of_ne hca { SslContext.new ssl
        (resolved settings.protocol role.protocol) with
          certChain := some (settings.cert, settings.key)
          verifyLocations := some settings.caChain }
      refine ⟨e, ?_, hne⟩
      simp [context, SslContext.loadCertChain, SslContext.loadVerifyLocations, hcert,
        he, bind, Except.bind]
  · obtain ⟨e, he, hne⟩ := FileLoad.guard_of_ne hcert { SslContext.new ssl
      (resolved settings.protocol role.protocol) with
        certChain := some (settings.cert, settings.key) }
    refine ⟨e, ?_, hne⟩
    simp [context, SslContext.loadCertChain, he, bind, Except.bind]

theorem context_eq_ok_iff {c : SslContext} :
    settings.context ssl role = .ok c ↔
      (settings.Loads ssl ∧ (resolved settings.protocol role.protocol).Negotiates) ∧
        c = settings.built ssl role := by
  by_cases hl : settings.Loads ssl
  · have hset : (settings.built ssl role).setMinimumVersion minimumVersion =
        if (resolved settings.protocol role.protocol).Negotiates then
          .ok (settings.built ssl role) else .error .valueError := rfl
    rw [context_of_loads hl, hset]
    by_cases hp : (resolved settings.protocol role.protocol).Negotiates
    · simp [hl, hp, eq_comm]
    · simp [hp]
  · have hctx : ∃ e, settings.context ssl role = .error e ∧ e ≠ .valueError :=
      context_of_not_loads hl
    obtain ⟨e, he, -⟩ := hctx
    simp [he, hl]

end Built

/-! ### The floor -/

section Floor

variable {ssl : SslLibrary} {settings : TlsSettings} {role : TlsRole} {c : SslContext}

theorem allows_floor (h : settings.context ssl role = .ok c) {v : TlsVersion}
    (hv : c.Allows v) : minimumVersion.wire ≤ v.wire := by
  obtain ⟨-, rfl⟩ := context_eq_ok_iff.mp h
  exact hv.1

theorem context_moreOptions (h : settings.context ssl role = .ok c) (more : ℕ) :
    { settings with
        options := some (resolved settings.options ssl.opAll ||| more) }.context ssl role =
      .ok { c with options := c.options ||| more } := by
  obtain ⟨hl, rfl⟩ := context_eq_ok_iff.mp h
  refine context_eq_ok_iff.mpr ⟨hl, ?_⟩
  simp [built, resolved, Nat.or_assoc]

theorem allows_of_moreOptions {more : ℕ} {v : TlsVersion}
    (hv : { c with options := c.options ||| more }.Allows v) : c.Allows v := by
  obtain ⟨hmin, hbit⟩ := hv
  rw [Nat.testBit_or, Bool.or_eq_false_iff] at hbit
  exact ⟨hmin, hbit.1⟩

end Floor

/-- The order in which the two checks are assigned leaves no combination of settings out, no
settings bring a context below the lowest version, and further options only narrow it. -/
theorem context_settles (ssl : SslLibrary) (settings : TlsSettings) (role : TlsRole) :
    ((∃ c, settings.context ssl role = .ok c) ↔
      settings.Loads ssl ∧ (resolved settings.protocol role.protocol).Negotiates) ∧
    (settings.context ssl role = .error .valueError ↔
      settings.Loads ssl ∧ ¬ (resolved settings.protocol role.protocol).Negotiates) ∧
    ∀ c, settings.context ssl role = .ok c →
      c.checkHostname = resolved settings.verifyHostname role.verifyHostname ∧
      (c.checkHostname = true → c.verifyMode ≠ .certNone) ∧
      (∀ v, c.Allows v → minimumVersion.wire ≤ v.wire) ∧
      ∀ more, ∃ c', { settings with
          options := some (resolved settings.options ssl.opAll ||| more) }.context ssl role =
            .ok c' ∧ ∀ v, c'.Allows v → c.Allows v := by
  refine ⟨?_, ?_, ?_⟩
  · constructor
    · intro ⟨c, hc⟩
      exact (context_eq_ok_iff.mp hc).1
    · intro h
      exact ⟨_, context_eq_ok_iff.mpr ⟨h, rfl⟩⟩
  · by_cases hl : settings.Loads ssl
    · rw [context_of_loads hl]
      by_cases hp : (resolved settings.protocol role.protocol).Negotiates <;>
        simp [SslContext.setMinimumVersion, built, hl, hp]
    · have hctx : ∃ e, settings.context ssl role = .error e ∧ e ≠ .valueError :=
        context_of_not_loads hl
      obtain ⟨e, he, hne⟩ := hctx
      simp [he, hne, hl]
  · intro c hc
    have hbuilt := (context_eq_ok_iff.mp hc).2
    refine ⟨?_, ?_, fun v => allows_floor hc, fun more => ?_⟩
    · rw [hbuilt, built]
    · rw [hbuilt]
      intro hcheck hmode
      simp only [built] at hcheck hmode
      rw [hcheck] at hmode
      split at hmode
      · cases hmode
      · rename_i hn
        exact hn ⟨hmode, rfl⟩
    · exact ⟨_, context_moreOptions hc more, fun v => allows_of_moreOptions⟩

/-! ### The report -/

section Report

variable {ssl : SslLibrary} {settings : TlsSettings} {role : TlsRole} {c : SslContext}

/-- The policy the settings ask for is the one the context carries, unless it is raised. -/
theorem built_verifyMode (h : ¬ settings.AtOdds role) :
    (settings.built ssl role).verifyMode = resolved settings.verifyMode .certRequired := by
  unfold AtOdds at h
  simp [built, h]

theorem built_verifyMode_of_atOdds (h : settings.AtOdds role) :
    (settings.built ssl role).verifyMode = .certRequired := by
  unfold AtOdds at h
  simp [built, h]

theorem relaxations_of_not_atOdds (h : ¬ settings.AtOdds role) :
    settings.relaxations role = weakenings (settings.built ssl role) role := by
  simp only [weakenings, built_verifyMode h]
  rfl

/-- The report names a policy of none that the context does not carry. -/
theorem relaxations_of_atOdds (h : settings.AtOdds role) :
    settings.relaxations role =
      weakenings (settings.built ssl role) role ++ [policyPhrase .certNone] := by
  simp only [weakenings, built_verifyMode_of_atOdds h]
  obtain ⟨hmode, hhost⟩ := h
  simp [relaxations, built, hmode, hhost]

end Report

/-- Everything weak that a context carries is named. What is named is exactly that, unless the
settings ask to check hostnames against no certificate: the policy of none is named then, and
the context asks for certificates. -/
theorem relaxations_exact (ssl : SslLibrary) (settings : TlsSettings) (role : TlsRole)
    (c : SslContext) (h : settings.context ssl role = .ok c) :
    (weakenings c role).Sublist (settings.relaxations role) ∧
    (settings.relaxations role = weakenings c role ↔ ¬ settings.AtOdds role) ∧
    (settings.AtOdds role → c.verifyMode = .certRequired ∧
      settings.relaxations role = weakenings c role ++ [policyPhrase .certNone]) := by
  obtain ⟨-, rfl⟩ := context_eq_ok_iff.mp h
  by_cases hodds : settings.AtOdds role
  · have hrelax : settings.relaxations role =
        weakenings (settings.built ssl role) role ++ [policyPhrase .certNone] :=
      relaxations_of_atOdds hodds
    refine ⟨?_, ?_, fun _ => ⟨built_verifyMode_of_atOdds hodds, hrelax⟩⟩
    · rw [hrelax]
      exact List.sublist_append_left _ _
    · simp [hrelax, hodds]
  · have hrelax : settings.relaxations role = weakenings (settings.built ssl role) role :=
      relaxations_of_not_atOdds hodds
    exact ⟨hrelax ▸ List.Sublist.refl _, ⟨fun _ => hodds, fun _ => hrelax⟩,
      fun h => absurd h hodds⟩

def permissive : SslLibrary where
  newOptions _ := 0
  newMinimum _ := .tlsv1_2
  opAll := 0x80000050
  loadsCertChain _ _ := .loaded
  loadsVerifyLocations _ := .loaded
  selects _ := true

/-- A client that is to ask for no certificates, and says nothing of hostnames. -/
def certNone : TlsSettings where
  cert := "client.crt"
  key := "client.key"
  caChain := "ca.crt"
  verifyMode := some .certNone

theorem relaxations_exact_certNone :
    (certNone.built permissive .client).verifyMode = .certRequired ∧
      certNone.relaxations .client = ["peer certificate policy CERT_NONE"] := by
  have hc : certNone.context permissive .client = .ok (certNone.built permissive .client) :=
    context_eq_ok_iff.mpr ⟨⟨⟨rfl, rfl, fun _ _ => rfl⟩, by decide⟩, rfl⟩
  obtain ⟨-, -, hodds⟩ := relaxations_exact permissive certNone .client _ hc
  exact hodds ⟨rfl, rfl⟩

end TlsSettings

end Pyomb
