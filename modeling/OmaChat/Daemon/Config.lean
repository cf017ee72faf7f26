import OmaChat.Proto.Hosted

/-!
# The configuration of the daemon

`config.rs`: what a configuration file must say before the daemon starts with it, and the display name that a daemon with a
hosted account sends when it authenticates. Parsing a URL and checking an Ed25519 key are library functions.
-/

namespace OmaChat.Daemon
open Wire Proto

/-- The errors of `CoreError` that the modelled parts of the core return. -/
inductive CoreError where
  | invalidConfig
  deriving DecidableEq

/-- `url::Host`, with whether an address is a loopback address. -/
inductive UrlHost where
  | domain (name : String)
  | ipv4 (loopback : Bool)
  | ipv6 (loopback : Bool)
  deriving DecidableEq

/-- What `canonical_publication_url` asks of a URL. -/
structure ParsedUrl where
  scheme : String
  host : Option UrlHost
  hasPort : Bool
  username : String
  password : Option String
  query : Option String
  fragment : Option String
  text : String
  deriving DecidableEq

structure ConfigLibrary where
  /-- `Url::parse` -/
  parseUrl : String → Option ParsedUrl
  /-- `VerifyingKey::from_bytes` accepts the key, and it is not weak. -/
  keyStrong : Bytes 32 → Bool

/-- A numeric loopback address, which may do without TLS. -/
def UrlHost.isLoopback : UrlHost → Bool
  | .domain _ => false
  | .ipv4 loopback => loopback
  | .ipv6 loopback => loopback

section Library
variable (library : ConfigLibrary)

def canonicalPublicationUrl (raw : String) : Except CoreError String :=
  match library.parseUrl raw with
  | none => .error .invalidConfig
  | some url =>
    let secure := url.scheme = "wss"
    let numericLoopback := url.scheme = "ws" ∧ url.host.any UrlHost.isLoopback = true
    if ¬ secure ∧ ¬ numericLoopback ∨ url.host = none ∨ url.hasPort = false ∨
        url.username ≠ "" ∨ url.password ≠ none ∨ url.query ≠ none ∨ url.fragment ≠ none then
      .error .invalidConfig
    else .ok url.text

structure HostedConfig where
  url : String
  pinnedServerPublicKey : String
  displayName : Option String
  deriving DecidableEq

def HostedConfig.pinnedServerPublicKeyBytes (config : HostedConfig) : Except CoreError (Bytes 32) :=
  match (hexDecode config.pinnedServerPublicKey).bind (Bytes.ofList? 32) with
  | none => .error .invalidConfig
  | some key => if library.keyStrong key then .ok key else .error .invalidConfig

def HostedConfig.validate (config : HostedConfig) : Except CoreError Unit := do
  let _ ← canonicalPublicationUrl library config.url
  let _ ← config.pinnedServerPublicKeyBytes library
  match config.displayName with
  | none => pure ()
  | some displayName => do
    let _ ← (validateName displayName).mapError fun _ => CoreError.invalidConfig
    pure ()

/-- The display name in `DaemonCore::start_hosted_with`, which is sent at authentication. -/
def HostedConfig.sentDisplayName (config : HostedConfig) : Option String :=
  config.displayName.filter fun name => (validateName name).isOk

structure DaemonConfig where
  hosted : Option HostedConfig
  dmRelays : List String
  deriving DecidableEq

/-- The loop of `DaemonConfig::validate` over the relays, which must be different. -/
def validateRelays : (seen relays : List String) → Except CoreError Unit
  | _, [] => .ok ()
  | seen, relay :: rest => do
    let canonical ← canonicalPublicationUrl library relay
    if canonical ∈ seen then .error .invalidConfig else validateRelays (seen ++ [canonical]) rest

def DaemonConfig.validate (config : DaemonConfig) : Except CoreError Unit := do
  match config.hosted with
  | none => pure ()
  | some hosted => hosted.validate library
  if 4 < config.dmRelays.length then .error .invalidConfig else validateRelays library [] config.dmRelays

variable {library}

theorem DaemonConfig.validate_name {config : DaemonConfig} {hosted : HostedConfig} {name : String}
    (h : config.validate library = .ok ()) (hhosted : config.hosted = some hosted)
    (hname : hosted.displayName = some name) :
    validateName name = .ok name ∧ hosted.sentDisplayName = some name := by
  unfold DaemonConfig.validate at h
  rw [hhosted] at h
  have hvalid : hosted.validate library = .ok () := by
    cases hv : hosted.validate library with
    | ok _ => rfl
    | error e =>
      simp only [hv] at h
      cases h
  unfold HostedConfig.validate at hvalid
  rw [hname] at hvalid
  have hchecked : validateName name = .ok name := by
    unfold validateName
    split
    · next hbad =>
        exfalso
        cases hurl : canonicalPublicationUrl library hosted.url with
        | error e => rw [hurl] at hvalid; cases hvalid
        | ok url =>
          cases hkey : hosted.pinnedServerPublicKeyBytes library with
          | error e => rw [hurl, hkey] at hvalid; cases hvalid
          | ok key =>
            rw [hurl, hkey] at hvalid
            simp only [validateName, if_pos hbad] at hvalid
            cases hvalid
    · rfl
  refine ⟨hchecked, ?_⟩
  unfold HostedConfig.sentDisplayName
  rw [hname, Option.filter_some, hchecked]
  rfl

end Library

end OmaChat.Daemon
