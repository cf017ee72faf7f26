import OmaChat.Daemon.Progress

/-!
# Answers and the length of a line

`serve_client` writes an answer as one line of at most `MAX_LINE_BYTES`; if `encode_line` refuses it, the connection ends
without an answer (`respond`). `answers_written_iff` says for which contacts and messages the three answers that list them
are written: their bytes, escapes included, must fit. Nothing else in the daemon keeps a history that small
(`history_not_answered`).
-/

namespace OmaChat.Daemon
open Wire Effects Nostr Proto Durable Transition

/-! ## The answers -/

inductive ProviderKind where
  | secretService
  | file

def ProviderKind.name : ProviderKind → String
  | .secretService => "secret-service"
  | .file => "file"

structure HostedStatus where
  state : String
  url : Option String
  serverPublicKey : Option String
  accountId : Option String
  handle : Option String
  displayName : Option String
  reason : Option String

def HostedStatus.value (status : HostedStatus) : Json :=
  .object [("state", .str status.state), ("url", .ofOption status.url),
    ("server_public_key", .ofOption status.serverPublicKey), ("account_id", .ofOption status.accountId),
    ("handle", .ofOption status.handle), ("display_name", .ofOption status.displayName),
    ("reason", .ofOption status.reason)]

/-- What `DaemonCore::status_value` reads. -/
structure DaemonStatus (p : Primitives) where
  storageProvider : ProviderKind
  fingerprint : String
  devicePublicKey : Bytes 32
  hosted : HostedStatus
  nostr : Option (NostrSecret p)
  relays : List String

/-- `DaemonCore::status_value` -/
def DaemonStatus.value {p : Primitives} (status : DaemonStatus p) : Json :=
  .object [("storage_provider", .str status.storageProvider.name), ("fingerprint", .str status.fingerprint),
    ("device_public_key", .str (hexEncode status.devicePublicKey.val)), ("hosted", status.hosted.value),
    ("nostr", snapshotIdentity p status.nostr), ("dm_relays", .strings status.relays)]

/-- `snapshot[key] = value` -/
def setField (key : String) (value : Json) : Json → Json
  | .obj fields => .obj (Json.insertField key value fields)
  | other => other

theorem field_setField_of_ne {key k : String} (h : key ≠ k) (value snapshot : Json) :
    (setField k value snapshot).field key = snapshot.field key := by
  cases snapshot with
  | obj fields => exact Json.lookup_insertField_of_ne h value fields
  | _ => rfl

/-- The result of `Command::Subscribe`: the chat actor's snapshot, with the topics and the status. -/
def subscribeResult {p : Primitives} (snapshot : Json) (topics : List Topic) (status : DaemonStatus p) : Json :=
  setField "status" status.value (setField "topics" (.strings (topics.map Topic.name)) snapshot)

/-- The line that `serve_client` writes for the outcome of a request; none if `encode_line` fails, which ends the
connection. -/
def respond (id : String) (outcome : ResponseOutcome) : Option String := encodeLine (Response.json ⟨ipcVersion, id, outcome⟩)

/-! ## Their sizes -/

def StoredMessage.bytes (m : StoredMessage) : Nat :=
  99 + Json.escapedSize m.conversation + (Json.num m.createdAt.toNat).size + Json.escapedSize m.delivery +
    Json.escapedSize m.id + (Json.bool m.outgoing).size + Json.escapedSize m.peer + Json.escapedSize m.sender +
    Json.escapedSize m.text

theorem StoredMessage.value_eq (m : StoredMessage) :
    m.value = .obj [("conversation", .str m.conversation), ("created_at", .num m.createdAt.toNat),
      ("delivery", .str m.delivery), ("id", .str m.id), ("outgoing", .bool m.outgoing), ("peer", .str m.peer),
      ("sender", .str m.sender), ("text", .str m.text)] := by
  simp [StoredMessage.value, Json.object, Json.insertField, Json.keyLt]

theorem size_message (m : StoredMessage) : m.value.size = m.bytes := by
  have hkeys : Json.escapedSize "conversation" = 12 ∧ Json.escapedSize "created_at" = 10 ∧
      Json.escapedSize "delivery" = 8 ∧ Json.escapedSize "id" = 2 ∧ Json.escapedSize "outgoing" = 8 ∧
      Json.escapedSize "peer" = 4 ∧ Json.escapedSize "sender" = 6 ∧ Json.escapedSize "text" = 4 := by decide
  rw [m.value_eq]
  simp [Json.size_obj, Json.fieldSize, Json.size_str, StoredMessage.bytes]
  omega

def Contact.bytes (contact : Contact) : Nat :=
  36 + Json.escapedSize contact.display + (contact.nip05.elim 0 fun handle => 11 + Json.escapedSize handle) +
    Json.escapedSize contact.npub + Json.escapedSize contact.pubkey

theorem Contact.value_eq (contact : Contact) :
    contact.value = .obj ([("display", .str contact.display)] ++
      (contact.nip05.elim [] fun handle => [("nip05", .str handle)]) ++
        [("npub", .str contact.npub), ("pubkey", .str contact.pubkey)]) := by
  obtain ⟨pubkey, npub, nip05, display⟩ := contact
  cases nip05 <;> simp [Contact.value, Json.object, Json.insertField, Json.keyLt]

theorem size_contact (contact : Contact) : contact.value.size = contact.bytes := by
  have hkeys : Json.escapedSize "display" = 7 ∧ Json.escapedSize "nip05" = 5 ∧ Json.escapedSize "npub" = 4 ∧
      Json.escapedSize "pubkey" = 6 := by decide
  rw [contact.value_eq]
  obtain ⟨pubkey, npub, nip05, display⟩ := contact
  cases nip05 <;>
    simp [Json.size_obj, Json.fieldSize, Json.size_str, Option.elim, Contact.bytes] <;>
    omega

def arrayBytes (sizes : List Nat) : Nat := 2 + sizes.sum + (sizes.length - 1)

theorem size_array {α : Type} {value : α → Json} {bytes : α → Nat} (h : ∀ a, (value a).size = bytes a) (l : List α) :
    (Json.arr (l.map value)).size = arrayBytes (l.map bytes) := by
  rw [Json.size_arr, arrayBytes, List.map_map, List.length_map, List.length_map]
  congr 3
  exact List.map_congr_left fun a _ => h a

theorem respond_isSome_iff (id : String) (result : Json) :
    (respond id (.ok result)).isSome ↔ 45 + Json.escapedSize id + result.size ≤ maxLineBytes := by
  have hkeys : Json.escapedSize "version" = 7 ∧ Json.escapedSize "id" = 2 ∧ Json.escapedSize "status" = 6 ∧
      Json.escapedSize "ok" = 2 ∧ Json.escapedSize "result" = 6 ∧ (Json.num ipcVersion).size = 1 := by decide
  have hsize : (Response.json ⟨ipcVersion, id, .ok result⟩).render.utf8ByteSize = 45 + Json.escapedSize id + result.size := by
    rw [Json.utf8ByteSize_render]
    simp [Response.json, Json.size_obj, Json.fieldSize, Json.size_str]
    omega
  rw [respond, encodeLine, hsize]
  split_ifs with h
  · exact iff_of_false (by simp) (Nat.not_le.2 h)
  · exact iff_of_true rfl (Nat.not_lt.1 h)

section Written
open Method
variable {p : Primitives} {c c' : Actor × World} {v : Json}

theorem exec_handle_messages : (handle p .messages).Exec Answers c (.ok v) c' ↔
    v = .object [("messages", .arr (c.1.messages.map StoredMessage.value))] ∧ c' = c := by
  show (Method.get >>= _ : ChatMethod Json).Exec Answers c (.ok v) c' ↔ _
  rw [exec_get_bind, exec_pure, Except.ok.injEq]

theorem exec_handle_listContacts : (handle p .listContacts).Exec Answers c (.ok v) c' ↔
    v = .object [("contacts", .arr (c.1.contacts.map Contact.value))] ∧ c' = c := by
  show (Method.get >>= _ : ChatMethod Json).Exec Answers c (.ok v) c' ↔ _
  rw [exec_get_bind, exec_pure, Except.ok.injEq]

def snapshotOf (actor : Actor) (secret : Option (NostrSecret p)) : Json :=
  .object [("messages", .arr (actor.messages.map StoredMessage.value)),
    ("contacts", .arr (actor.contacts.map Contact.value)), ("relays", .strings actor.relays),
    ("identity", snapshotIdentity p secret)]

theorem field_messages_snapshotOf (actor : Actor) (secret : Option (NostrSecret p)) :
    (snapshotOf actor secret).field "messages" = some (.arr (actor.messages.map StoredMessage.value)) := by
  have hv : snapshotOf actor secret = .obj [("contacts", .arr (actor.contacts.map Contact.value)),
      ("identity", snapshotIdentity p secret), ("messages", .arr (actor.messages.map StoredMessage.value)),
      ("relays", .strings actor.relays)] := by
    simp [snapshotOf, Json.object, Json.insertField, Json.keyLt]
  rw [hv]
  rfl

theorem exec_handle_snapshot (h : (handle p .snapshot).Exec Answers c (.ok v) c') :
    ∃ secret : Option (NostrSecret p), v = snapshotOf c.1 secret := by
  obtain ⟨secret, c₁, hsec, h⟩ := exec_bind_ok.1 (show (snapshotValue p).Exec Answers c (.ok v) c' from h)
  obtain ⟨-, -, hactor, -⟩ := exec_optionalSecret_iff.1 hsec
  have h := exec_get_bind.1 h
  exact ⟨secret, hactor ▸ Except.ok.inj (exec_pure.1 h).1⟩

theorem exec_snapshot_of {ω : Type} {step : Answering Call.Answer ω} {c : Actor × ω} {w : ω}
    (secret : NostrSecret p) (hread : step (.read .identity) c.2 (.ok (some secret.secret)) w) :
    (handle p .snapshot).Exec step c (.ok (snapshotOf c.1 (some secret))) (c.1, w) := by
  refine exec_bind_ok.2 ⟨_, (c.1, w), exec_optionalSecret_of secret hread, exec_get_bind.2 ?_⟩
  exact exec_pure.2 ⟨rfl, rfl⟩

theorem exec_snapshot (secret : NostrSecret p) :
    (handle p .snapshot).Exec Answers c (.ok (snapshotOf c.1 (some secret))) c := exec_snapshot_of secret rfl

theorem size_messages_result (messages : List StoredMessage) :
    (Json.object [("messages", .arr (messages.map StoredMessage.value))]).size =
      13 + arrayBytes (messages.map StoredMessage.bytes) := by
  have hkey : Json.escapedSize "messages" = 8 := by decide
  simp [Json.object, Json.insertField, Json.size_obj, Json.fieldSize, Json.size_str, size_array size_message, hkey]
  omega

theorem size_contacts_result (contacts : List Contact) :
    (Json.object [("contacts", .arr (contacts.map Contact.value))]).size = 13 + arrayBytes (contacts.map Contact.bytes) := by
  have hkey : Json.escapedSize "contacts" = 8 := by decide
  simp [Json.object, Json.insertField, Json.size_obj, Json.fieldSize, Json.size_str, size_array size_contact, hkey]
  omega

/-- The bytes of the result of `Subscribe`. -/
def subscribeBytes (actor : Actor) (secret : Option (NostrSecret p)) (topics : List Topic) (status : DaemonStatus p) :
    Nat :=
  67 + arrayBytes (actor.contacts.map Contact.bytes) + (snapshotIdentity p secret).size +
    arrayBytes (actor.messages.map StoredMessage.bytes) + (Json.strings actor.relays).size + status.value.size +
    (Json.strings (topics.map Topic.name)).size

theorem size_subscribeResult (actor : Actor) (secret : Option (NostrSecret p)) (topics : List Topic)
    (status : DaemonStatus p) :
    (subscribeResult (snapshotOf actor secret) topics status).size = subscribeBytes actor secret topics status := by
  have hkeys : Json.escapedSize "contacts" = 8 ∧ Json.escapedSize "identity" = 8 ∧ Json.escapedSize "messages" = 8 ∧
      Json.escapedSize "relays" = 6 ∧ Json.escapedSize "status" = 6 ∧ Json.escapedSize "topics" = 6 := by decide
  have hfields : subscribeResult (snapshotOf actor secret) topics status =
      .obj [("contacts", .arr (actor.contacts.map Contact.value)), ("identity", snapshotIdentity p secret),
        ("messages", .arr (actor.messages.map StoredMessage.value)), ("relays", .strings actor.relays),
        ("status", status.value), ("topics", .strings (topics.map Topic.name))] := by
    simp [subscribeResult, snapshotOf, setField, Json.object, Json.insertField, Json.keyLt]
  rw [hfields]
  simp [Json.size_obj, Json.fieldSize, Json.size_str, size_array size_message, size_array size_contact, subscribeBytes]
  omega

/-- **The answers that list messages and contacts are written exactly when these fit on a line.** -/
theorem answers_written_iff {p : Primitives} (c c' : Actor × World) (id : String) (v : Json) :
    ((handle p .messages).Exec Answers c (.ok v) c' →
      ((respond id (.ok v)).isSome ↔
        58 + Json.escapedSize id + arrayBytes (c.1.messages.map StoredMessage.bytes) ≤ maxLineBytes)) ∧
    ((handle p .listContacts).Exec Answers c (.ok v) c' →
      ((respond id (.ok v)).isSome ↔
        58 + Json.escapedSize id + arrayBytes (c.1.contacts.map Contact.bytes) ≤ maxLineBytes)) ∧
    ((handle p .snapshot).Exec Answers c (.ok v) c' →
      (∃ secret : Option (NostrSecret p), v = snapshotOf c.1 secret) ∧
        ∀ (secret : Option (NostrSecret p)), v = snapshotOf c.1 secret →
          ∀ (topics : List Topic) (status : DaemonStatus p),
            ((respond id (.ok (subscribeResult v topics status))).isSome ↔
              45 + Json.escapedSize id + subscribeBytes c.1 secret topics status ≤ maxLineBytes)) := by
  refine ⟨fun h => ?_, fun h => ?_, fun h => ?_⟩
  · rw [(exec_handle_messages.1 h).1, respond_isSome_iff, size_messages_result]
    omega
  · rw [(exec_handle_listContacts.1 h).1, respond_isSome_iff, size_contacts_result]
    omega
  · refine ⟨exec_handle_snapshot h, fun secret hv topics status => ?_⟩
    rw [hv, respond_isSome_iff, size_subscribeResult]

end Written

def aliceStatus (rumors : List Rumor) (seals : List SignedEvent) : DaemonStatus (transparent rumors seals) where
  storageProvider := .file
  fingerprint := ""
  devicePublicKey := aliceKey
  hosted := ⟨"disconnected", none, none, none, none, none, none⟩
  nostr := some (aliceSecret rumors seals)
  relays := aliceRelays

theorem subscribe_fits (rumors : List Rumor) (seals : List SignedEvent) :
    45 + Json.escapedSize "1" + subscribeBytes (afterStart rumors seals).1 (some (aliceSecret rumors seals)) [.messages]
      (aliceStatus rumors seals) ≤ maxLineBytes := by
  -- the sizes do not depend on what the primitives can open
  have hcl : 45 + Json.escapedSize "1" + subscribeBytes (afterStart [] []).1 (some (aliceSecret [] [])) [.messages]
      (aliceStatus [] []) ≤ maxLineBytes := by decide +kernel
  exact hcl

/-- After its first start, and a message to Bob, Alice's daemon answers. -/
theorem answers_written_after_send :
    let c := sent (afterStart [] []) [("hi", toBob [] [] 1000 "hi")]
    c.1.messages.map StoredMessage.text = ["hi"] ∧
    (respond "1" (.ok (.object [("messages", .arr (c.1.messages.map StoredMessage.value))]))).isSome ∧
    (respond "1" (.ok (.object [("contacts", .arr [bobContact.value])]))).isSome ∧
    (respond "1" (.ok (subscribeResult (snapshotOf c.1 (some (aliceSecret [] []))) [.messages] (aliceStatus [] [])))).isSome := by
  intro c
  have hmessages := (answers_written_iff c c "1" _).1 (exec_handle_messages (p := unsealed).2 ⟨rfl, rfl⟩)
  have hcontacts := (answers_written_iff c c "1" _).2.1 (exec_handle_listContacts (p := unsealed).2 ⟨rfl, rfl⟩)
  have hsnapshot := (answers_written_iff c c "1" _).2.2 (exec_snapshot (aliceSecret [] []))
  exact ⟨rfl, hmessages.2 (by decide +kernel), hcontacts.2 (by decide +kernel), (hsnapshot.2 _ rfl _ _).2 (by decide +kernel)⟩

/-! ## A history that is not answered -/

/-- A text of `n` letters. -/
def letters (n : Nat) : String := String.ofList (List.replicate n 'a')

theorem utf8ByteSize_letters (n : Nat) : (letters n).utf8ByteSize = n := by
  rw [letters, utf8ByteSize_ofList, charBytes_replicate]
  exact Nat.mul_one n

theorem escapedSize_letters (n : Nat) : Json.escapedSize (letters n) = n := by
  have hchar : charBytes (Json.escapeChar 'a') = 1 := by decide
  rw [letters, Json.escapedSize_replicate, hchar, Nat.mul_one]

variable {n : Nat}

theorem validText_letters (hpos : 0 < n) (hmax : n ≤ maxTextBytes) : validText (letters n) = true := by
  have hne : letters n ≠ "" := by
    intro h
    have := utf8ByteSize_letters n
    rw [h] at this
    exact Nat.ne_of_gt hpos this.symm
  have hctl : ((letters n).toList.any fun c => isControl c && c != '\n' && c != '\t') = false := by
    rw [letters, String.toList_ofList, List.any_eq_false]
    intro c hc
    rw [List.eq_of_mem_replicate hc]
    decide
  rw [validText, hctl, utf8ByteSize_letters, decide_eq_false (Nat.not_lt.2 hmax), beq_eq_false_iff_ne.2 hne]
  rfl

def longSends (n : Nat) : List (String × Outgoing unsealed) :=
  (List.range n).map fun i =>
    (letters maxTextBytes, toBob [] [] (1000 + UInt64.ofNat i) (letters maxTextBytes))

theorem sends_longSends (n : Nat) : ∀ send ∈ longSends n, Sends (afterStart [] []).1 bobNpub send.1 send.2 := by
  intro send hmem
  obtain ⟨i, -, rfl⟩ := List.mem_map.1 hmem
  refine sends_toBob _ (validText_letters (by decide) le_rfl) ?_
  rw [escapedSize_letters]
  decide

theorem longSends_bytes (hn : n ≤ maxMessages) :
    n * maxTextBytes ≤ arrayBytes ((sent (afterStart [] []) (longSends n)).1.messages.map StoredMessage.bytes) := by
  let messages := (longSends n).map fun send => outgoingMessage unsealed send.2 send.1
  have hlen : messages.length = n := by simp [messages, longSends]
  have hmsgs : (sent (afterStart [] []) (longSends n)).1.messages = messages := by
    have hpush := Window.foldl_push (by decide : 0 < maxMessages) messages (l := []) (Nat.zero_le _)
    rw [List.nil_append, List.length_nil, Nat.zero_add, hlen, Nat.sub_eq_zero_of_le hn, List.drop_zero] at hpush
    rw [sent_messages]
    exact hpush
  have hb : ∀ bytes ∈ messages.map StoredMessage.bytes, maxTextBytes ≤ bytes := by
    intro bytes hb
    obtain ⟨message, hmsg, rfl⟩ := List.mem_map.1 hb
    obtain ⟨send, hsend, rfl⟩ := List.mem_map.1 hmsg
    obtain ⟨i, -, rfl⟩ := List.mem_map.1 hsend
    have htext := escapedSize_letters maxTextBytes
    simp only [StoredMessage.bytes, outgoingMessage]
    omega
  have hsum := List.card_nsmul_le_sum _ _ hb
  rw [List.length_map, hlen, smul_eq_mul] at hsum
  rw [hmsgs, arrayBytes]
  omega

/-- After 17 messages of the greatest length, neither they nor a snapshot are answered. -/
theorem history_not_answered :
    ∃ (ls : List (ChatLabel unsealed)) (c : Actor × World), Run ChatStep atRest ls c ∧
      (∃ v, (handle unsealed .messages).Exec Answers c (.ok v) c ∧ respond "1" (.ok v) = none) ∧
      ∃ v, (handle unsealed .snapshot).Exec Answers c (.ok v) c ∧
        ∀ (topics : List Topic) (status : DaemonStatus unsealed),
          respond "1" (.ok (subscribeResult v topics status)) = none := by
  have hbytes := longSends_bytes (n := 17) (by decide)
  have hline : maxLineBytes < 17 * maxTextBytes := by decide
  refine ⟨_, _, .cons start_atRest (run_sends _ (sends_longSends 17)),
    ⟨_, exec_handle_messages.2 ⟨rfl, rfl⟩, ?_⟩, ⟨_, exec_snapshot (aliceSecret [] []), fun topics status => ?_⟩⟩
  · rw [← Option.not_isSome_iff_eq_none, respond_isSome_iff, size_messages_result]
    omega
  · rw [← Option.not_isSome_iff_eq_none, respond_isSome_iff, size_subscribeResult, subscribeBytes]
    omega

end OmaChat.Daemon
