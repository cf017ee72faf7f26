import OmaChat.Daemon.Config
import OmaChat.Server.Directory

/-!
# The first login of a configured daemon

The daemon checks the display name of its configuration with `validate_name` and sends it when it authenticates. For a new
device the server checks it again, with `DisplayName::parse`, which also refuses the format characters that a reader does
not see.

* `validDisplayName_iff` : of the names that the daemon accepts, the server accepts those without such characters;
* `configured_name_accepted_iff` : so a first login with a valid configuration can fail for its name exactly if the name
  has one of them.
-/

namespace OmaChat.Server
open Wire Effects Proto Crypto Daemon

variable {name : String}

theorem length_le_utf8ByteSize (s : String) : s.length ≤ s.utf8ByteSize := by
  rw [← charBytes_toList, ← String.length_toList]
  induction s.toList with
  | nil => exact Nat.le_refl 0
  | cons c l ih =>
    have hpos := Char.utf8Size_pos c
    rw [List.length_cons, charBytes_cons]
    omega

theorem validDisplayName_iff (h : validateName name = .ok name) :
    validDisplayName name = true ↔ ∀ c ∈ name.toList, isUnsafeDisplayFormat c = false := by
  unfold validateName at h
  split at h
  · cases h
  next hgood =>
    simp only [not_or, Bool.not_eq_true, List.any_eq_false, ne_eq, not_not] at hgood
    obtain ⟨hne, hsize, htrim, hctl⟩ := hgood
    have hb := length_le_utf8ByteSize name
    have hlen : name.length ≠ 0 := by
      intro hzero
      exact hne (String.length_eq_zero_iff.1 hzero)
    have hchars : ¬ maxDisplayNameChars < name.length := by
      unfold maxDisplayNameChars
      unfold maxNameBytes at hsize
      omega
    have hlong : ¬ maxDisplayNameBytes < name.utf8ByteSize := by
      unfold maxDisplayNameBytes
      unfold maxNameBytes at hsize
      omega
    have hany : (name.toList.any fun c => isControl c || isUnsafeDisplayFormat c) = false ↔
        ∀ c ∈ name.toList, isUnsafeDisplayFormat c = false := by
      rw [List.any_eq_false]
      apply forall₂_congr
      intro c hc
      rw [hctl c hc, Bool.false_or, Bool.not_eq_true]
    rw [← hany]
    simp [validDisplayName, hlen, hchars, hlong, htrim]

section Login
variable {c c' : Service × Database} {A : List NostrRow} {D : List DeviceRow} {device : Bytes 32}
  {now : UInt64}

theorem storageError_code (e : StorageError) : (storageError e).code ≠ .invalidName := by
  cases e <;> simp [storageError]

theorem fails_stored {α : Type} (m : StorageMethod Service α) :
    Method.Fails SqliteStep (fun e : ServerError => e.code ≠ .invalidName) (stored m) := by
  apply Method.fails_mapError
  intro c e c' _
  exact storageError_code e

theorem fails_register_of_valid (h : validDisplayName name = true) :
    Method.Fails SqliteStep (fun e => e.code ≠ .invalidName) (Service.register device (some name) now) := by
  unfold Service.register
  apply Method.fails_bind (fails_stored _)
  intro found
  cases found with
  | some account => exact Method.fails_bind (fails_stored _) fun _ => Method.fails_pure _
  | none =>
    apply Method.fails_bind
    · apply Method.fails_ofExcept
      intro e he
      rw [newDisplayName, DisplayName.parse, dif_pos h] at he
      cases he
    · intro displayName
      exact Method.fails_bind (fails_stored _) fun _ => Method.fails_pure _

theorem eval_selectDeviceAccount_new (htab : Tables c.2 A D) (hnew : ∀ row ∈ D, row.publicKey ≠ device.val) :
    (Statement.selectDeviceAccount device.val).eval c.2 = (.ok none, c.2) := by
  have hfind : D.find? (·.publicKey == device.val) = none := by
    rw [List.find?_eq_none]
    intro row hrow heq
    exact hnew row hrow (beq_iff_eq.1 heq)
  have hunchanged := htab.unchanged
  rw [htab.devices_eq] at hunchanged
  simp only [Statement.eval, htab.devices_eq, Database.onAccounts, htab.accounts_eq, AccountsTable.onRows, hfind,
    Option.bind_eq_bind, Option.bind_none]
  exact congrArg _ hunchanged

theorem exec_register_of_invalid (htab : Tables c.2 A D) (hnew : ∀ row ∈ D, row.publicKey ≠ device.val)
    (h : validDisplayName name ≠ true) :
    (Service.register device (some name) now).Exec SqliteStep c
      (.error ⟨.invalidName, "display names are 1 to 80 printable characters"⟩) c := by
  unfold Service.register
  rw [Method.exec_bind]
  refine .inr ⟨none, c, ?_, ?_⟩
  · rw [stored, Method.exec_mapError_ok, accountForDevice, exec_execute_ok]
    exact ⟨eval_selectDeviceAccount_new htab hnew, rfl⟩
  · dsimp only
    rw [Method.exec_bind]
    refine .inl ⟨_, rfl, ?_⟩
    rw [Method.exec_ofExcept, newDisplayName, DisplayName.parse, dif_neg h]
    exact ⟨rfl, rfl⟩

end Login

/-- **The names of the client and the server.** A configuration that the daemon accepts is sent with its display name, and
the registration of a new device never fails for that name, exactly if it has no unsafe format character. -/
theorem configured_name_accepted_iff {library : ConfigLibrary} {config : DaemonConfig} {hosted : HostedConfig} {name : String}
    (hvalid : config.validate library = .ok ()) (hhosted : config.hosted = some hosted)
    (hname : hosted.displayName = some name) {c : Service × Database} {A : List NostrRow}
    {D : List DeviceRow} (htables : Tables c.2 A D) {device : Bytes 32} (hnew : ∀ row ∈ D, row.publicKey ≠ device.val)
    (now : UInt64) :
    hosted.sentDisplayName = some name ∧
      ((∀ e c', (Service.register device hosted.sentDisplayName now).Exec SqliteStep c (.error e) c' →
          e.code ≠ .invalidName) ↔
        ∀ ch ∈ name.toList, isUnsafeDisplayFormat ch = false) := by
  obtain ⟨hchecked, hsent⟩ := DaemonConfig.validate_name hvalid hhosted hname
  refine ⟨hsent, ?_⟩
  rw [hsent, ← validDisplayName_iff hchecked]
  constructor
  · intro hnever
    by_contra hbad
    exact hnever _ _ (exec_register_of_invalid htables hnew hbad) rfl
  · intro hgood e c' hexec
    exact fails_register_of_valid hgood c e c' hexec

/-- A library that knows the address of one server and accepts every key. -/
def oneServer : ConfigLibrary where
  parseUrl raw := if raw = "wss://chat.example:8443/" then
      some ⟨"wss", some (.domain "chat.example"), true, "", none, none, none, "wss://chat.example:8443/"⟩
    else none
  keyStrong _ := true

/-- A hosted account with the given name, at a server whose key is the base point of the curve. -/
def hostedAs (name : String) : HostedConfig where
  url := "wss://chat.example:8443/"
  pinnedServerPublicKey := "5866666666666666666666666666666666666666666666666666666666666666"
  displayName := some name

def configuredAs (name : String) : DaemonConfig where
  hosted := some (hostedAs name)
  dmRelays := []

theorem configured_name_accepted_ada :
    (configuredAs "Ada L.").validate oneServer = .ok () ∧
      ((∀ e c', (Service.register (.replicate 32 1) (hostedAs "Ada L.").sentDisplayName 1000).Exec SqliteStep newService
          (.error e) c' → e.code ≠ .invalidName) ↔
        ∀ ch ∈ "Ada L.".toList, isUnsafeDisplayFormat ch = false) := by
  have hvalid : (configuredAs "Ada L.").validate oneServer = .ok () := by decide +kernel
  exact ⟨hvalid, (configured_name_accepted_iff hvalid rfl rfl (A := []) (D := []) ⟨rfl, rfl⟩ (by simp) 1000).2⟩

/-- The daemon accepts a name that ends in a zero-width space after a letter, and the first login fails for it. -/
theorem configured_name_refused :
    (configuredAs "Ada\u200b").validate oneServer = .ok () ∧
      (Service.register (.replicate 32 1) (hostedAs "Ada\u200b").sentDisplayName 1000).Exec SqliteStep newService
        (.error ⟨.invalidName, "display names are 1 to 80 printable characters"⟩) newService := by
  refine ⟨by decide +kernel, ?_⟩
  have hsent : (hostedAs "Ada\u200b").sentDisplayName = some "Ada\u200b" := by decide +kernel
  rw [hsent]
  exact exec_register_of_invalid (A := []) (D := []) ⟨rfl, rfl⟩ (by simp) (by decide +kernel)

end OmaChat.Server
