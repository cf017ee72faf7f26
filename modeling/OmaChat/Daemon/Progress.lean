import OmaChat.Nostr.Transparent
import OmaChat.Daemon.Books

/-!
# When everything answers

A send of a valid text to a known contact ends with the message in the history and on disk if the identity can be read,
the relays take the event and the save succeeds (`send_stores`); a notification brings the message of its rumor
(`deliver_brings`).
-/

namespace OmaChat.Daemon
open Wire Effects Nostr Proto Durable Method

variable {contacts : List Contact} {event : SignedEvent} {message : StoredMessage} {now : UInt64} {opened : OpenedGiftWrap}
  {peer subscription text : String} {pubkey recipient sender : Bytes 32} {p : Primitives}

theorem NostrSecret.fromBytes_secret (secret : NostrSecret p) : NostrSecret.fromBytes p secret.secret = some secret := by
  obtain ⟨bytes, publicKey, valid⟩ := secret
  unfold NostrSecret.fromBytes
  split
  · rename_i h
    rw [valid, Option.some.injEq] at h
    subst h
    rfl
  · rename_i h
    rw [valid] at h
    cases h

theorem NostrSecret.secret_of_fromBytes {bytes : Bytes 32} {secret : NostrSecret p}
    (h : NostrSecret.fromBytes p bytes = some secret) : secret.secret = bytes := by
  unfold NostrSecret.fromBytes at h
  split at h
  · rw [← Option.some.inj h]
  · cases h

/-- The relay pool runs for the actor's relays and identity, and is subscribed. -/
structure Ready (actor : Actor) (secret : NostrSecret p) : Prop where
  pool : actor.pool = true
  relays : actor.poolRelays = actor.relays
  pubkey : actor.poolPubkey = some secret.pubkey
  subscribed : actor.subscribedFor = some secret.pubkey

/-- All that a send needs of the actor, the peer and the text, with the rumor that it then makes. -/
structure Sends (actor : Actor) (peer text : String) (outgoing : Outgoing p) : Prop where
  ready : Ready actor outgoing.secret
  valid : validText text = true
  handle : '@' ∉ (trim peer).toList
  npub : p.fromNpub (trim peer) = some outgoing.recipient
  other : outgoing.recipient ≠ outgoing.secret.publicKey
  known : (actor.contacts.any fun contact => contact.pubkey == hexEncode outgoing.recipient.val) = true
  rumor : createChatRumor p outgoing.secret.secret outgoing.now [outgoing.recipient] text defaultLimits = .ok outgoing.rumor
  wraps : ∀ recipient ∈ [outgoing.recipient, outgoing.secret.publicKey],
    ∃ (n a k n' a' : Bytes 32) (event : SignedEvent), (p.publicKey k).isSome ∧
      createGiftWrapWithMaterial p outgoing.rumor outgoing.secret.secret recipient .persistent
        ⟨outgoing.now, n, a, k, outgoing.now, n', a'⟩ defaultLimits = .ok event

section AnyWorld
variable {ω : Type} {step : Answering Call.Answer ω} {c : Actor × ω} {w w₁ w₂ : ω} {c' : Actor × ω}

section
variable (secret : NostrSecret p) (hread : step (.read .identity) c.2 (.ok (some secret.secret)) w)
include hread

theorem exec_loadSecret_of : (loadSecret p).Exec step c (.ok (some secret)) (c.1, w) := by
  refine exec_request_bind.2 ⟨.ok (some secret.secret), w, hread, ?_⟩
  simp only [NostrSecret.fromBytes_secret]
  exact exec_pure.2 ⟨rfl, rfl⟩

theorem exec_optionalSecret_of :
    (optionalSecret p).Exec step c (.ok (some secret)) (c.1, w) :=
  exec_bind_ok.2 ⟨_, (c.1, w), exec_attempt.2 ⟨_, exec_loadSecret_of secret hread, rfl⟩, exec_pure.2 ⟨rfl, rfl⟩⟩

end

theorem exec_incoming {secret : NostrSecret p} (hkind : event.kind = giftWrapKind)
    (hopen : openGiftWrap p event secret.secret now defaultLimits = .ok opened)
    (hmsg : rumorMessage p c.1.contacts secret.pubkey opened.rumor = some message)
    (hread : step (.read .identity) c.2 (.ok (some secret.secret)) w₁) (hnow : step .now w₁ (some now) w₂) :
    (incoming p (.event subscription event)).Exec step c (.ok (some message)) (c.1, w₂) := by
  unfold incoming
  simp only [hkind, ne_eq, not_true_eq_false, if_false]
  refine exec_bind_ok.2 ⟨_, (c.1, w₁), exec_optionalSecret_of secret hread,
    exec_request_bind.2 ⟨some now, w₂, hnow, ?_⟩⟩
  simp only [hopen]
  refine exec_get_bind.2 ?_
  rw [hmsg]
  exact exec_pure.2 ⟨rfl, rfl⟩

theorem exec_publish_bind {β : Type} {topic : Topic} {payload : Json} {f : Unit → ChatMethod β}
    {y : Except ChatError β} : (publish topic payload >>= f).Exec step c y c' ↔
      ∃ n w₁ u w₂, step .nextSequence c.2 n w₁ ∧ step (.publishHub ⟨ipcVersion, n, topic, payload⟩) w₁ u w₂ ∧
        (f u).Exec step (c.1, w₂) y c' := by
  unfold publish
  rw [Method.bind_assoc, exec_request_bind]
  simp only [exec_request_bind]
  constructor
  · rintro ⟨n, w₁, hn, u, w₂, hu, h⟩
    exact ⟨n, w₁, u, w₂, hn, hu, h⟩
  · rintro ⟨n, w₁, u, w₂, hn, hu, h⟩
    exact ⟨n, w₁, hn, u, w₂, hu, h⟩

theorem exec_storeMessage_of {w₃ : ω} {n : UInt64} (message : StoredMessage)
    (hsave : step (.write .messages (Window.push maxMessages c.1.messages message)) c.2 (.ok ()) w₁)
    (hn : step .nextSequence w₁ n w₂)
    (hpublish : step (.publishHub ⟨ipcVersion, n, .messages, message.value⟩) w₂ () w₃) :
    (storeMessage message).Exec step c (.ok message)
      ({ c.1 with messages := Window.push maxMessages c.1.messages message }, w₃) := by
  let actor : Actor := { c.1 with messages := Window.push maxMessages c.1.messages message }
  refine exec_modify_bind.2 (exec_get_bind.2 (exec_bind_ok.2 ⟨(), (actor, w₁), ?_, ?_⟩))
  · exact exec_saveRecord.2 ⟨.ok (), hsave, rfl, rfl⟩
  · exact exec_publish_bind.2 ⟨n, w₂, (), w₃, hn, hpublish, exec_pure.2 ⟨rfl, rfl⟩⟩

theorem exec_storeIncoming (hnew : message.id ∉ c.1.messages.map StoredMessage.id) {x : Except ChatError StoredMessage}
    (h : (storeMessage message).Exec step c x c') : (storeIncoming (some message)).Exec step c (.ok ()) c' := by
  refine exec_get_bind.2 ?_
  rw [if_neg (mt any_id_iff.1 hnew)]
  exact exec_bind_ok.2 ⟨_, _, exec_attempt.2 ⟨_, h, rfl⟩, exec_pure.2 ⟨rfl, rfl⟩⟩

theorem exec_resolvePeer (hpeer : '@' ∉ (trim peer).toList)
    (hnpub : p.fromNpub (trim peer) = some pubkey) : (resolvePeer p peer).Exec step c (.ok (pubkey, none)) c := by
  refine exec_get_bind.2 ?_
  rw [if_neg hpeer, hnpub]
  exact exec_pure.2 ⟨rfl, rfl⟩

end AnyWorld

section Calls
variable {c : Actor × World}

theorem exec_loadSecret (secret : NostrSecret p) : (loadSecret p).Exec Answers c (.ok (some secret)) c :=
  exec_loadSecret_of secret rfl

theorem exec_optionalSecret (secret : NostrSecret p) : (optionalSecret p).Exec Answers c (.ok (some secret)) c :=
  exec_optionalSecret_of secret rfl

theorem exec_ensureIdentity (secret : NostrSecret p) : (ensureIdentity p).Exec Answers c (.ok (secret, false)) c :=
  exec_bind_ok.2 ⟨_, c, exec_mapError_ok.2 (exec_loadSecret secret), exec_pure.2 ⟨rfl, rfl⟩⟩

theorem exec_ensurePool {secret : NostrSecret p} (h : Ready c.1 secret) : (ensurePool p).Exec Answers c (.ok ()) c := by
  refine exec_bind_ok.2 ⟨_, c, exec_optionalSecret secret, exec_get_bind.2 ?_⟩
  rw [if_pos ⟨h.pool, h.relays, h.pubkey⟩]
  refine exec_bind_ok.2 ⟨_, c, exec_optionalSecret secret, exec_get_bind.2 ?_⟩
  rw [if_pos h.subscribed]
  exact exec_pure.2 ⟨rfl, rfl⟩

theorem exec_unixTime (now : UInt64) : unixTime.Exec Answers c (.ok now) c :=
  exec_request_bind.2 ⟨some now, c.2, rfl, exec_pure.2 ⟨rfl, rfl⟩⟩

theorem exec_randomArray (bytes : Bytes 32) : randomArray.Exec Answers c (.ok bytes) c :=
  exec_request_bind.2 ⟨some bytes, c.2, rfl, exec_pure.2 ⟨rfl, rfl⟩⟩

theorem exec_randomPastTimestamp (now : UInt64) : (randomPastTimestamp now).Exec Answers c (.ok now) c := by
  refine exec_request_bind.2 ⟨some (Bytes.replicate 8 0), c.2, rfl, exec_pure.2 ⟨?_, rfl⟩⟩
  have hzero : satSub now (UInt64.ofNat (0 % (2 * 24 * 60 * 60 + 1))) = now := by simp [satSub]
  exact congrArg Except.ok hzero.symm

theorem exec_createGiftWrap {rumor : Rumor} {n a k n' a' : Bytes 32} (hk : (p.publicKey k).isSome)
    (h : createGiftWrapWithMaterial p rumor sender recipient .persistent ⟨now, n, a, k, now, n', a'⟩ defaultLimits =
      .ok event) :
    (createGiftWrap p rumor sender recipient now).Exec Answers c (.ok event) c := by
  refine exec_bind_ok.2 ⟨_, c, exec_randomPastTimestamp now, ?_⟩
  refine exec_bind_ok.2 ⟨_, c, exec_randomArray n, ?_⟩
  refine exec_bind_ok.2 ⟨_, c, exec_randomArray a, ?_⟩
  refine exec_bind_ok.2 ⟨k, c, exec_bind_ok.2 ⟨k, c, exec_randomArray k, ?_⟩, ?_⟩
  · rw [if_pos hk]
    exact exec_pure.2 ⟨rfl, rfl⟩
  refine exec_bind_ok.2 ⟨_, c, exec_randomPastTimestamp now, ?_⟩
  refine exec_bind_ok.2 ⟨_, c, exec_randomArray n', ?_⟩
  refine exec_bind_ok.2 ⟨_, c, exec_randomArray a', ?_⟩
  rw [h]
  exact exec_ofExcept.2 ⟨rfl, rfl⟩

theorem exec_publishToRelays (event : SignedEvent) (h : c.1.pool = true) :
    (publishToRelays event).Exec Answers c (.ok ()) c := by
  refine exec_get_bind.2 ?_
  rw [if_pos h]
  refine exec_request_bind.2 ⟨true, c.2, rfl, ?_⟩
  rw [if_pos rfl]
  exact exec_request_bind.2 ⟨.ok (), c.2, rfl, exec_pure.2 ⟨rfl, rfl⟩⟩

def stored (c : Actor × World) (message : StoredMessage) : Actor × World :=
  let l := Window.push maxMessages c.1.messages message
  ({ c.1 with messages := l },
    { c.2 with messages := ⟨some ⟨l, .readable⟩, some l, some l, c.2.messages.outcomes ++ [.ok]⟩ })

theorem exec_publish (topic : Topic) (payload : Json) : (publish topic payload).Exec Answers c (.ok ()) c :=
  exec_request_bind.2 ⟨(0 : UInt64), c.2, rfl, exec_request.2 ⟨(), rfl, rfl, rfl⟩⟩

theorem exec_storeMessage (message : StoredMessage) :
    (storeMessage message).Exec Answers c (.ok message) (stored c message) :=
  exec_storeMessage_of (n := 0) message ⟨_, .ok _ _, rfl⟩ rfl rfl

end Calls

variable {c : Actor × World} {secret : NostrSecret p} {outgoing : Outgoing p} {r : Except StoreError Unit}
  {d : Disk (List Contact)}

/-- **A send of a valid text to a known contact ends with the message stored,** if its calls are answered well. -/
theorem send_stores (h : Sends c.1 peer text outgoing) :
    ChatStep c (.send peer text (some outgoing)) (stored c (outgoingMessage p outgoing text)) := by
  obtain ⟨n, a, k, n', a', event, hk, hev⟩ := h.wraps outgoing.recipient (by simp)
  obtain ⟨m, b, j, m', b', copy, hj, hcopy⟩ := h.wraps outgoing.secret.publicKey (by simp)
  refine ⟨c, ?_, .ok (.object [("message", (outgoingMessage p outgoing text).value)]), ?_⟩
  · unfold prepareSend
    rw [h.valid]
    refine exec_bind_ok.2 ⟨_, c, exec_ensureIdentity outgoing.secret, ?_⟩
    refine exec_bind_ok.2 ⟨_, c, exec_ensurePool h.ready, ?_⟩
    refine exec_bind_ok.2 ⟨_, c, exec_resolvePeer h.handle h.npub, ?_⟩
    dsimp only
    rw [if_neg h.other]
    refine exec_bind_ok.2 ⟨(), c, ?_, ?_⟩
    · refine exec_get_bind.2 ?_
      rw [if_pos h.known]
      exact exec_pure.2 ⟨rfl, rfl⟩
    refine exec_bind_ok.2 ⟨_, c, exec_unixTime outgoing.now, ?_⟩
    rw [h.rumor]
    exact exec_bind_ok.2 ⟨_, c, exec_ofExcept.2 ⟨rfl, rfl⟩, exec_pure.2 ⟨rfl, rfl⟩⟩
  · refine exec_bind_ok.2 ⟨_, c, exec_createGiftWrap hk hev, ?_⟩
    refine exec_bind_ok.2 ⟨_, c, exec_createGiftWrap hj hcopy, ?_⟩
    refine exec_bind_ok.2 ⟨_, c, exec_publishToRelays event h.ready.pool, ?_⟩
    refine exec_bind_ok.2 ⟨_, c, exec_attempt.2 ⟨_, exec_publishToRelays copy h.ready.pool, rfl⟩, ?_⟩
    exact exec_bind_ok.2 ⟨_, _, exec_storeMessage _, exec_pure.2 ⟨rfl, rfl⟩⟩

theorem Sends.stored (h : Sends c.1 peer text outgoing) : Sends (stored c message).1 peer text outgoing :=
  ⟨⟨h.ready.pool, h.ready.relays, h.ready.pubkey, h.ready.subscribed⟩, h.valid, h.handle, h.npub, h.other, h.known,
    h.rumor, h.wraps⟩

/-- The state after some sends, each a text and what it was prepared as. -/
def sent (c : Actor × World) (sends : List (String × Outgoing p)) : Actor × World :=
  sends.foldl (fun c send => stored c (outgoingMessage p send.2 send.1)) c

theorem run_sends (sends : List (String × Outgoing p)) (h : ∀ send ∈ sends, Sends c.1 peer send.1 send.2) :
    Transition.Run ChatStep c (sends.map fun send => .send peer send.1 (some send.2)) (sent c sends) := by
  induction sends generalizing c with
  | nil => exact .nil c
  | cons send sends ih =>
    refine .cons (send_stores (h send List.mem_cons_self)) (ih fun send' hmem => ?_)
    exact (h send' (List.mem_cons_of_mem _ hmem)).stored

theorem sent_messages (sends : List (String × Outgoing p)) (c : Actor × World) :
    (sent c sends).1.messages =
      (sends.map fun send => outgoingMessage p send.2 send.1).foldl (Window.push maxMessages) c.1.messages := by
  induction sends generalizing c with
  | nil => rfl
  | cons send sends ih => exact ih _

theorem deliver_brings (hkind : event.kind = giftWrapKind)
    (hopen : openGiftWrap p event secret.secret now defaultLimits = .ok opened)
    (hmsg : rumorMessage p c.1.contacts secret.pubkey opened.rumor = some message) :
    ChatStep (p := p) c (.deliver (.event subscription event) (some message))
      (if message.id ∈ c.1.messages.map StoredMessage.id then c else stored c message) := by
  refine ⟨c, exec_incoming hkind hopen hmsg rfl rfl, .ok (), ?_⟩
  by_cases h : message.id ∈ c.1.messages.map StoredMessage.id
  · rw [if_pos h]
    refine exec_get_bind.2 ?_
    rw [if_pos (any_id_iff.2 h)]
    exact exec_pure.2 ⟨rfl, rfl⟩
  · rw [if_neg h]
    exact exec_storeIncoming h (exec_storeMessage message)

/-- The state after a contact was added and the record of the contacts became `d`. -/
def added (c : Actor × World) (contact : Contact) (d : Disk (List Contact)) : Actor × World :=
  ({ c.1 with contacts := c.1.contacts ++ [contact] }, { c.2 with contacts := d })

theorem exec_insertContact {contact : Contact} (hrdy : Ready c.1 secret)
    (hsave : Writes c.2.contacts (c.1.contacts ++ [contact]) r d) :
    ∃ x, (insertContact p contact).Exec Answers c x (added c contact d) := by
  have hrec : (saveRecord .contacts (c.1.contacts ++ [contact])).Exec Answers
      ({ c.1 with contacts := c.1.contacts ++ [contact] }, c.2) (Except.mapError .sealed r) (added c contact d) :=
    exec_saveRecord.2 ⟨r, ⟨d, hsave, rfl⟩, rfl, rfl⟩
  cases r with
  | error e =>
    refine ⟨.error (.sealed e), exec_modify_bind.2 (exec_get_bind.2 ?_)⟩
    exact exec_bind.2 (.inl ⟨_, rfl, hrec⟩)
  | ok u =>
    have hrdy' : Ready (added c contact d).1 secret := ⟨hrdy.pool, hrdy.relays, hrdy.pubkey, hrdy.subscribed⟩
    refine ⟨.ok (.object [("contact", contact.value), ("created", .bool true)]), exec_modify_bind.2 (exec_get_bind.2 ?_)⟩
    exact exec_bind_ok.2 ⟨_, _, hrec, exec_bind_ok.2 ⟨_, _, exec_publish _ _,
      exec_bind_ok.2 ⟨_, _, exec_ensurePool hrdy', exec_pure.2 ⟨rfl, rfl⟩⟩⟩⟩

theorem addContact_adds (hrdy : Ready c.1 secret)
    (hhdl : '@' ∉ (trim peer).toList) (hnpub : p.fromNpub (trim peer) = some pubkey) (ho : pubkey ≠ secret.publicKey)
    (hnew : (c.1.contacts.find? fun contact => contact.pubkey == hexEncode pubkey.val) = none)
    (hroom : c.1.contacts.length < maxContacts)
    (hsave : Writes c.2.contacts (c.1.contacts ++ [newContact p pubkey none]) r d) :
    ChatStep (p := p) c (.request (.addContact peer)) (added c (newContact p pubkey none) d) := by
  obtain ⟨x, hx⟩ := exec_insertContact hrdy hsave
  refine ⟨fun _ _ h => ChatRequest.noConfusion h, x, ?_⟩
  refine exec_bind.2 (.inr ⟨_, c, exec_ensureIdentity secret, ?_⟩)
  refine exec_bind.2 (.inr ⟨_, c, exec_resolvePeer hhdl hnpub, ?_⟩)
  refine exec_bind.2 (.inr ⟨secret, c, exec_bind_ok.2 ⟨_, c, exec_mapError_ok.2 (exec_loadSecret secret),
    exec_pure.2 ⟨rfl, rfl⟩⟩, ?_⟩)
  rw [if_neg ho]
  refine exec_get_bind.2 ?_
  rw [hnew]
  dsimp only
  rw [if_neg (Nat.not_le.2 hroom)]
  exact hx

/-- The actor after a start with relays: the pool runs and is subscribed. -/
def started (secret : NostrSecret p) (relays : List String) (contacts : List Contact) (messages : List StoredMessage) :
    Actor where
  relays := relays
  contacts := contacts
  messages := messages
  pool := true
  poolRelays := relays
  poolPubkey := some secret.pubkey
  subscribedFor := some secret.pubkey
  loopbackNip05 := none

theorem ready_started (secret : NostrSecret p) (relays : List String) (contacts : List Contact)
    (messages : List StoredMessage) : Ready (started secret relays contacts messages) secret :=
  ⟨rfl, rfl, rfl, rfl⟩

/-- The answers to calls that do not save the messages. -/
def Unsaved (call : Call) (w : World) (r : call.Answer) (w' : World) : Prop :=
  (∀ saved, call ≠ .write .messages saved) ∧ Answers call w r w'

theorem exec_start (secret : NostrSecret p) {configuredRelays : List String} {w : World}
    {relays : Except StoreError (Option (List String))} {contacts : Except StoreError (Option (List Contact))}
    {messages : Except StoreError (Option (List StoredMessage))}
    (hr : Reads Absent c.2.relays relays w.relays) (hc : Reads Absent c.2.contacts contacts w.contacts)
    (hm : Reads Absent c.2.messages messages w.messages)
    (hne : relays.toOption.join.getD configuredRelays ≠ []) :
    (start p configuredRelays).Exec Unsaved c (.ok ())
      (started secret (relays.toOption.join.getD configuredRelays) (contacts.toOption.join.getD [])
        (messages.toOption.join.getD []), w) := by
  have hsec {c : Actor × World} : (optionalSecret p).Exec Unsaved c (.ok (some secret)) c :=
    exec_optionalSecret_of secret ⟨nofun, rfl⟩
  refine exec_loadRecord_bind.2 ⟨relays, _, ⟨nofun, _, hr, rfl⟩, ?_⟩
  refine exec_loadRecord_bind.2 ⟨contacts, _, ⟨nofun, _, hc, rfl⟩, ?_⟩
  refine exec_loadRecord_bind.2 ⟨messages, _, ⟨nofun, _, hm, rfl⟩, exec_modify_bind.2 ?_⟩
  -- no pool runs yet
  refine exec_bind_ok.2 ⟨_, _, exec_get_bind.2 (exec_pure.2 ⟨rfl, rfl⟩), ?_⟩
  refine exec_bind_ok.2 ⟨_, _, hsec, exec_modify_bind.2 (exec_get_bind.2 ?_)⟩
  rw [if_neg hne]
  refine exec_bind_ok.2 ⟨_, _, hsec, exec_request_bind.2 ⟨true, _, ⟨nofun, rfl⟩, ?_⟩⟩
  rw [if_pos rfl]
  refine exec_modify_bind.2 (exec_bind_ok.2 ⟨_, _, hsec, exec_get_bind.2 ?_⟩)
  rw [if_neg (by simp)]
  refine exec_request_bind.2 ⟨none, _, ⟨nofun, rfl⟩, ?_⟩
  dsimp only
  rw [if_pos rfl]
  refine exec_request_bind.2 ⟨(), _, ⟨nofun, rfl⟩, exec_modify_bind.2 (exec_get_bind.2 ?_)⟩
  -- without a clock the list of relays is not published
  dsimp only
  split_ifs
  · exact exec_pure.2 ⟨rfl, rfl⟩
  · exact exec_request_bind.2 ⟨none, _, ⟨nofun, rfl⟩, exec_pure.2 ⟨rfl, rfl⟩⟩

/-! ## Messages of rumors -/

theorem rumorMessage_received {p' : Primitives} {reader : Bytes 32}
    {createdAt : UInt64} (hne : sender ≠ reader) (htext : text.utf8ByteSize ≤ 4096) :
    ∃ message, rumorMessage p contacts (hexEncode reader.val) (chatMessage p' sender recipient createdAt text) =
        some message ∧ message.id = (chatMessage p' sender recipient createdAt text).id ∧
      message.text = text ∧ message.peer = hexEncode sender.val ∧ message.outgoing = false := by
  have hhex : hexEncode sender.val ≠ hexEncode reader.val := fun h => hne (hexEncode_val_inj h)
  have hpeer : rumorPeer (hexEncode reader.val) (chatMessage p' sender recipient createdAt text) =
      some (hexEncode sender.val) := if_neg hhex
  have haccept : ¬ ((chatMessage p' sender recipient createdAt text).kind ≠ chatMessageKind ∨
      maxTextBytes < (chatMessage p' sender recipient createdAt text).content.utf8ByteSize) :=
    not_or.2 ⟨not_not.2 rfl, not_lt.2 htext⟩
  unfold rumorMessage
  rw [if_neg haccept, hpeer]
  exact ⟨_, if_neg hhex, rfl, rfl, rfl, beq_eq_false_iff_ne.2 hhex⟩

/-! ## Without secrets -/

section
variable {rumors : List Rumor} {seals : List SignedEvent}

theorem transparent_sends {actor : Actor} {secret : NostrSecret (transparent rumors seals)}
    (now : UInt64) (hrdy : Ready actor secret) (hv : validText text = true)
    (hsize : Json.escapedSize text ≤ 5000) (hhdl : '@' ∉ (trim peer).toList)
    (hnpub : (transparent rumors seals).fromNpub (trim peer) = some recipient) (ho : recipient ≠ secret.secret)
    (hk : (actor.contacts.any fun contact => contact.pubkey == hexEncode recipient.val) = true) :
    Sends actor peer text ⟨secret, recipient, now, chatRumor secret.secret recipient now text⟩ := by
  have hpublic : secret.publicKey = secret.secret := (Option.some.inj secret.valid).symm
  have htext : text.utf8ByteSize ≤ 65536 := by
    have := Json.utf8ByteSize_le_escapedSize text
    omega
  refine ⟨hrdy, hv, hhdl, hnpub, ?_, hk, transparent_createChatRumor ho htext, ?_⟩
  · rw [hpublic]
    exact ho
  · intro reader _
    let zero := Bytes.replicate 32 0
    exact ⟨zero, zero, zero, zero, zero, _, rfl, transparent_wraps_chat hsize reader _⟩

/-! A daemon to run: Alice has Bob as her only contact, one relay and no messages. -/

def aliceKey : Bytes 32 := Bytes.replicate 32 1

def bobKey : Bytes 32 := Bytes.replicate 32 2

def aliceSecret (rumors : List Rumor) (seals : List SignedEvent) : NostrSecret (transparent rumors seals) :=
  ⟨aliceKey, aliceKey, rfl⟩

def bobNpub : String := "npub1" ++ hexEncode bobKey.val

def bobContact : Contact := ⟨hexEncode bobKey.val, bobNpub, none, bobNpub⟩

def aliceRelays : List String := ["wss://relay.example"]

/-- Alice's daemon before its first start: a contact and a relay on disk. -/
def atRest : Actor × World :=
  (⟨[], [], [], false, [], none, none, none⟩,
    ⟨⟨some ⟨[bobContact], .readable⟩, none, none, []⟩, ⟨none, none, none, []⟩,
      ⟨some ⟨aliceRelays, .readable⟩, none, none, []⟩⟩)

def afterStart (rumors : List Rumor) (seals : List SignedEvent) : Actor × World :=
  (started (aliceSecret rumors seals) aliceRelays [bobContact] [],
    ⟨⟨some ⟨[bobContact], .readable⟩, some [bobContact], some [bobContact], []⟩, ⟨none, none, none, []⟩,
      ⟨some ⟨aliceRelays, .readable⟩, some aliceRelays, some aliceRelays, []⟩⟩)

theorem exec_start_atRest : (start (transparent rumors seals) []).Exec Unsaved atRest (.ok ()) (afterStart rumors seals) := by
  have hrs : Reads Absent atRest.2.relays (.ok (some aliceRelays)) (afterStart rumors seals).2.relays := .value rfl
  have hcts : Reads Absent atRest.2.contacts (.ok (some [bobContact])) (afterStart rumors seals).2.contacts := .value rfl
  have hmsgs : Reads Absent atRest.2.messages (.error .recordNotFound) (afterStart rumors seals).2.messages :=
    .error fun _ => rfl
  exact exec_start (aliceSecret rumors seals) hrs hcts hmsgs (List.cons_ne_nil _ _)

theorem start_atRest : ChatStep (p := transparent rumors seals) atRest (.start []) (afterStart rumors seals) :=
  ⟨.ok (), exec_start_atRest.mono fun _ _ _ _ h => h.2⟩

/-- What Alice prepares when she sends Bob a text at a time. -/
def toBob (rumors : List Rumor) (seals : List SignedEvent) (now : UInt64) (text : String) :
    Outgoing (transparent rumors seals) :=
  ⟨aliceSecret rumors seals, bobKey, now, chatRumor aliceKey bobKey now text⟩

theorem sends_toBob (now : UInt64) (hv : validText text = true) (hsize : Json.escapedSize text ≤ 5000) :
    Sends (afterStart rumors seals).1 bobNpub text (toBob rumors seals now text) := by
  obtain ⟨htrim, hhdl, hnpub⟩ := npub_eq bobKey
  have ho : bobKey ≠ aliceKey := by decide
  have hk : ([bobContact].any fun contact => contact.pubkey == hexEncode bobKey.val) = true := by simp [bobContact]
  exact transparent_sends now (ready_started _ _ _ _) hv hsize (by rwa [bobNpub, htrim])
    (by rw [bobNpub, htrim]; exact hnpub) ho hk

def carolKey : Bytes 32 := Bytes.replicate 32 3

def carolNpub : String := "npub1" ++ hexEncode carolKey.val

def carolContact : Contact := ⟨hexEncode carolKey.val, carolNpub, none, carolNpub⟩

theorem adds_carol (hrdy : Ready c.1 (aliceSecret rumors seals)) (hcts : c.1.contacts ⊆ [bobContact])
    (hroom : c.1.contacts.length < maxContacts) (hsave : Writes c.2.contacts (c.1.contacts ++ [carolContact]) r d) :
    ChatStep (p := transparent rumors seals) c (.request (.addContact carolNpub)) (added c carolContact d) := by
  obtain ⟨htrim, hhdl, hnpub⟩ := npub_eq carolKey
  have ho : carolKey ≠ aliceKey := by decide
  have hbob : bobKey ≠ carolKey := by decide
  have hnew : (c.1.contacts.find? fun contact => contact.pubkey == hexEncode carolKey.val) = none := by
    rw [List.find?_eq_none]
    intro contact hmem
    rw [List.mem_singleton.1 (hcts hmem)]
    simpa [bobContact] using fun h => hbob (hexEncode_val_inj h)
  exact addContact_adds hrdy (by rwa [carolNpub, htrim]) (by rw [carolNpub, htrim]; exact hnpub) ho hnew hroom hsave

theorem rumorMessage_chatRumor (outgoing : Outgoing p)
    (hrumor : outgoing.rumor = chatRumor outgoing.secret.publicKey outgoing.recipient outgoing.now text)
    (htext : text.utf8ByteSize ≤ maxTextBytes) (ho : outgoing.recipient ≠ outgoing.secret.publicKey) :
    rumorMessage p contacts outgoing.secret.pubkey outgoing.rumor = some (outgoingMessage p outgoing text) := by
  have hne : hexEncode outgoing.recipient.val ≠ hexEncode outgoing.secret.publicKey.val := fun h => ho (hexEncode_val_inj h)
  have hpeer : rumorPeer outgoing.secret.pubkey outgoing.rumor = some (hexEncode outgoing.recipient.val) := by
    rw [rumorPeer, hrumor]
    exact (if_pos rfl).trans rfl
  unfold rumorMessage
  rw [if_neg (by rw [hrumor]; exact not_or.2 ⟨not_not.2 rfl, Nat.not_lt.2 htext⟩), hpeer]
  refine (if_neg hne).trans ?_
  simp [outgoingMessage, hrumor, chatRumor, NostrSecret.pubkey]

end

end OmaChat.Daemon
