import OmaChat.Nostr.Relay
import OmaChat.Nostr.Transparent

/-!
# The back-off between connections

`RelayConfig::validate` and `reconnect_delay` of `relay.rs`, with the durations and the saturating 128-bit products of the
source. The delays of the actor's model are plain numbers of milliseconds.

* `nanos_backoff` : no product saturates, so the delay is the one of the actor's model;
* `backoff_grows` : the range of a delay, and its growth below the largest one, for every configuration that `validate` accepts.
-/

namespace OmaChat.Nostr

/-- A `Duration`: its seconds are a 64-bit word. -/
structure Duration where
  nanos : Nat
  bounded : nanos < 2 ^ 64 * 10 ^ 9

namespace Duration

instance : LE Duration := ⟨fun a b => a.nanos ≤ b.nanos⟩

instance (a b : Duration) : Decidable (a ≤ b) := inferInstanceAs (Decidable (a.nanos ≤ b.nanos))

def isZero (d : Duration) : Bool := d.nanos == 0

def asMillis (d : Duration) : Nat := d.nanos / 10 ^ 6

def fromMillis (millis : UInt64) : Duration := ⟨millis.toNat * 10 ^ 6, by have := millis.toNat_lt; omega⟩

theorem nanos_eq {d : Duration} (h : 10 ^ 6 ∣ d.nanos) : d.nanos = d.asMillis * 10 ^ 6 := (Nat.div_mul_cancel h).symm

theorem asMillis_lt (d : Duration) : d.asMillis < 2 ^ 64 * 1000 := by
  have := d.bounded
  unfold asMillis
  omega

end Duration

/-- The parts of a parsed URL that `validate` reads. -/
structure ParsedUrl where
  scheme : String
  hostStr : Option String
  portOrKnownDefault : Option UInt16

/-- The parts of `RelayConfig` that `validate` and `reconnect_delay` read. -/
structure RelaySettings where
  url : String
  commandCapacity : Nat
  notificationCapacity : Nat
  connectTimeout : Duration
  pingInterval : Duration
  idleTimeout : Duration
  responseTimeout : Duration
  shutdownTimeout : Duration
  reconnectInitialDelay : Duration
  reconnectMaxDelay : Duration

/-- The errors of `validate`; those of the URL parser are of any type. -/
inductive RelaySettingsError (E : Type) where
  | invalidConfig (message : String)
  | url (error : E)
  deriving DecidableEq

/-- The product of two 128-bit words, which stops at the largest one. -/
def saturatingMul (a b : Nat) : Nat := min (a * b) (2 ^ 128 - 1)

namespace RelaySettings

def validate {E : Type} (parse : String → Except E ParsedUrl) (config : RelaySettings) :
    Except (RelaySettingsError E) Unit :=
  if config.commandCapacity = 0 ∨ config.notificationCapacity = 0 then
    .error (.invalidConfig "queue capacities must be non-zero")
  else if config.connectTimeout.isZero ∨ config.pingInterval.isZero ∨ config.idleTimeout ≤ config.pingInterval ∨
      config.responseTimeout.isZero ∨ config.shutdownTimeout.isZero ∨ config.reconnectInitialDelay.isZero ∨
      ¬ config.reconnectInitialDelay ≤ config.reconnectMaxDelay then
    .error (.invalidConfig "invalid relay timer ordering")
  else
    match parse config.url with
    | .error error => .error (.url error)
    | .ok parsed =>
      if parsed.scheme ∉ ["ws", "wss"] ∨ parsed.hostStr.isNone ∨ parsed.portOrKnownDefault.isNone then
        .error (.invalidConfig "relay URL must be ws:// or wss://")
      else
        .ok ()

/-- `reconnect_delay` -/
def backoff (library : RelayLibrary) (config : RelaySettings) (failures : UInt32) : Duration :=
  let exponent := min (failures.toNat - 1) 20
  let cappedMillis :=
    min (saturatingMul config.reconnectInitialDelay.asMillis (2 ^ exponent)) config.reconnectMaxDelay.asMillis
  let jitterPerMille := 750 + (library.hash config.url failures).toNat % 501
  let jittered := min (max (saturatingMul cappedMillis jitterPerMille / 1000) 1) config.reconnectMaxDelay.asMillis
  .fromMillis (if jittered < 2 ^ 64 then .ofNat jittered else .ofNat (2 ^ 64 - 1))

end RelaySettings

/-! ## The delays of the actor's model -/

variable (library : RelayLibrary) (config : RelayConfig)

theorem reconnectDelay_bounds (h : 0 < config.reconnectMaxDelay) (failures : UInt32) :
    1 ≤ reconnectDelay library config failures ∧ reconnectDelay library config failures ≤ config.reconnectMaxDelay := by
  unfold reconnectDelay
  dsimp only
  omega

/-- A delay below the largest one, with its jitter apart. -/
theorem reconnectDelay_eq {failures : UInt32} {k : Nat} (hk : failures.toNat = k + 1) (h20 : k ≤ 20)
    (hmax : config.reconnectInitialDelay * 2 ^ k ≤ config.reconnectMaxDelay) :
    ∃ jitter ≤ 500, reconnectDelay library config failures =
      min (min (max (config.reconnectInitialDelay * 2 ^ k * (750 + jitter) / 1000) 1) config.reconnectMaxDelay)
        (2 ^ 64 - 1) := by
  refine ⟨(library.hash config.url failures).toNat % 501, by omega, ?_⟩
  unfold reconnectDelay
  dsimp only
  rw [hk, Nat.add_sub_cancel, Nat.min_eq_left h20, Nat.min_eq_left hmax]

/-- The jitter takes a delay to at most five quarters, and the next one, twice as long, to at least six. -/
theorem reconnectDelay_le_succ {n : UInt32} (hpos : 1 ≤ n) (h20 : n ≤ 20)
    (hmax : config.reconnectInitialDelay * 2 ^ n.toNat ≤ config.reconnectMaxDelay) :
    reconnectDelay library config n ≤ reconnectDelay library config (n + 1) := by
  have hn : n.toNat ≤ 20 := h20
  have hsucc : (n + 1).toNat = n.toNat + 1 := Nat.mod_eq_of_lt (by simp; omega)
  obtain ⟨k, hk⟩ : ∃ k, n.toNat = k + 1 := Nat.exists_eq_add_of_le' hpos
  have hdouble : config.reconnectInitialDelay * 2 ^ (k + 1) = config.reconnectInitialDelay * 2 ^ k * 2 := by
    rw [Nat.pow_succ, Nat.mul_assoc]
  rw [hk] at hsucc hmax
  have hthis : config.reconnectInitialDelay * 2 ^ k ≤ config.reconnectMaxDelay := by omega
  obtain ⟨j, hj, heq⟩ := reconnectDelay_eq library config hk (by omega) hthis
  obtain ⟨j', hj', heq'⟩ := reconnectDelay_eq library config hsucc (by omega) hmax
  rw [heq, heq', hdouble]
  generalize config.reconnectInitialDelay * 2 ^ k = x
  have hjitter : x * (750 + j) ≤ x * 1250 := Nat.mul_le_mul_left x (by omega)
  have hnext : x * 2 * 750 ≤ x * 2 * (750 + j') := Nat.mul_le_mul_left _ (by omega)
  omega

/-! ## The delays of the source -/

namespace RelaySettings

variable {config} {settings : RelaySettings}

/-- What the actor's model keeps of the settings. -/
def Configures (settings : RelaySettings) (config : RelayConfig) : Prop :=
  config.url = settings.url ∧ config.reconnectInitialDelay = settings.reconnectInitialDelay.asMillis ∧
    config.reconnectMaxDelay = settings.reconnectMaxDelay.asMillis

theorem saturatingMul_eq {a b : Nat} (ha : a < 2 ^ 64 * 1000) (hb : b ≤ 2 ^ 20) : saturatingMul a b = a * b := by
  have hle : a * b ≤ 2 ^ 64 * 1000 * 2 ^ 20 := Nat.mul_le_mul (by omega) hb
  exact Nat.min_eq_left (by omega)

/-- **The two models agree**: no product saturates, and the delay that the source makes is the one of the actor. -/
theorem nanos_backoff (h : Configures settings config) (failures : UInt32) :
    (settings.backoff library failures).nanos = reconnectDelay library config failures * 10 ^ 6 := by
  obtain ⟨hurl, hinitial, hmax⟩ := h
  have hmillis := settings.reconnectMaxDelay.asMillis_lt
  have hexponent : 2 ^ min (failures.toNat - 1) 20 ≤ 2 ^ 20 := Nat.pow_le_pow_right (by decide) (by omega)
  unfold backoff reconnectDelay
  dsimp only
  rw [saturatingMul_eq settings.reconnectInitialDelay.asMillis_lt hexponent,
    saturatingMul_eq (by omega) (by omega), hurl, hinitial, hmax]
  dsimp only [Duration.fromMillis]
  congr 1
  split_ifs with hword
  · rw [UInt64.toNat_ofNat', Nat.mod_eq_of_lt hword]
    omega
  · rw [UInt64.toNat_ofNat', Nat.mod_eq_of_lt (by decide)]
    omega

theorem validate_delays {E : Type} {parse : String → Except E ParsedUrl} (h : settings.validate parse = .ok ()) :
    0 < settings.reconnectInitialDelay.nanos ∧ settings.reconnectInitialDelay ≤ settings.reconnectMaxDelay := by
  unfold validate at h
  split_ifs at h with _ htimers
  simp only [not_or, not_not] at htimers
  obtain ⟨-, -, -, -, -, hzero, hle⟩ := htimers
  exact ⟨by simpa [Duration.isZero, Nat.pos_iff_ne_zero] using hzero, hle⟩

end RelaySettings

open RelaySettings

/-- **Back-off growth.** For every configuration that `validate` accepts, with delays of whole milliseconds, and whatever
the hash gives: a delay lies between a millisecond and the largest delay, and as long as the largest delay has room for the
next one without its jitter, the next one is not shorter. -/
theorem backoff_grows {E : Type} (parse : String → Except E ParsedUrl) (library : RelayLibrary)
    (settings : RelaySettings) (hvalid : settings.validate parse = .ok ())
    (hinitial : 10 ^ 6 ∣ settings.reconnectInitialDelay.nanos) (hmax : 10 ^ 6 ∣ settings.reconnectMaxDelay.nanos) :
    (∀ failures, .fromMillis 1 ≤ settings.backoff library failures ∧
      settings.backoff library failures ≤ settings.reconnectMaxDelay) ∧
    ∀ n : UInt32, 1 ≤ n → n ≤ 20 →
      settings.reconnectInitialDelay.nanos * 2 ^ n.toNat ≤ settings.reconnectMaxDelay.nanos →
      settings.backoff library n ≤ settings.backoff library (n + 1) := by
  obtain ⟨hpos, hle⟩ := validate_delays hvalid
  replace hinitial := Duration.nanos_eq hinitial
  replace hmax := Duration.nanos_eq hmax
  obtain ⟨config, hactor⟩ : ∃ config, Configures settings config :=
    ⟨⟨settings.url, none, .requireWhenConfigured, _, _, {}, {}⟩, rfl, rfl, rfl⟩
  obtain ⟨-, hi, hm⟩ := id hactor
  replace hle : settings.reconnectInitialDelay.nanos ≤ settings.reconnectMaxDelay.nanos := hle
  constructor
  · intro failures
    obtain ⟨hlow, hhigh⟩ := reconnectDelay_bounds library config (by omega) failures
    constructor
    · show 1 * 10 ^ 6 ≤ (settings.backoff library failures).nanos
      rw [nanos_backoff library hactor]
      exact Nat.mul_le_mul_right _ hlow
    · show (settings.backoff library failures).nanos ≤ settings.reconnectMaxDelay.nanos
      rw [nanos_backoff library hactor, hmax, ← hm]
      exact Nat.mul_le_mul_right _ hhigh
  · intro n hn h20 hroom
    rw [hinitial, hmax, Nat.mul_right_comm, ← hi, ← hm] at hroom
    have hgrows := reconnectDelay_le_succ library config hn h20 (Nat.le_of_mul_le_mul_right hroom (by decide))
    show (settings.backoff library n).nanos ≤ (settings.backoff library (n + 1)).nanos
    rw [nanos_backoff library hactor, nanos_backoff library hactor]
    exact Nat.mul_le_mul_right _ hgrows

/-- The delays of `RelayConfig::new`: a second at first, a minute at most. -/
def defaultSettings : RelaySettings :=
  ⟨"wss://relay.example", 64, 256, .fromMillis 20000, .fromMillis 30000, .fromMillis 90000, .fromMillis 20000,
    .fromMillis 1000, .fromMillis 1000, .fromMillis 60000⟩

/-- `Url::parse` on the one URL of `defaultSettings` -/
def parseRelay (_ : String) : Except Unit ParsedUrl := .ok ⟨"wss", some "relay.example", some 443⟩

/-- The largest jitter after one failure and the smallest after two. -/
def swingingLibrary : RelayLibrary :=
  ⟨unsealed, ⟨fun _ => none, fun _ => none⟩, fun _ failures => if failures = 1 then 500 else 0⟩

theorem backoff_grows_swinging :
    (defaultSettings.backoff swingingLibrary 1).asMillis = 1250 ∧
    (defaultSettings.backoff swingingLibrary 2).asMillis = 1500 ∧
    defaultSettings.backoff swingingLibrary 1 ≤ defaultSettings.backoff swingingLibrary 2 :=
  have hvalid : defaultSettings.validate parseRelay = .ok () := by decide
  ⟨by decide, by decide, (backoff_grows parseRelay swingingLibrary defaultSettings hvalid (by decide) (by decide)).2 1
    (by decide) (by decide) (by decide)⟩

end OmaChat.Nostr
