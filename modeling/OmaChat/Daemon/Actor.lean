import OmaChat.Lib.Window
import OmaChat.Daemon.Identity

/-!
# The chat actor

`Actor` of `nostr_chat.rs`: it keeps contacts, messages and relays, sends and receives gift wraps through the relay
pool, and publishes events for the daemon's clients. It handles one request or relay notification at a time.
`Actor::send` and `Actor::on_notification` are each cut in two, so that the rumor and the message that they are about can
be named: `prepareSend` and `sendRumor`, `incoming` and `storeIncoming`; so is `Actor::add_contact`.
-/

namespace OmaChat.Daemon
open Wire Effects Nostr Proto

def maxContacts : Nat := 128

def maxMessages : Nat := 128

def maxTextBytes : Nat := 4096

def maxRelays : Nat := 4

def lookbackSeconds : UInt64 := 30 * 24 * 60 * 60

/-- `EventLimits::default` -/
def defaultLimits : EventLimits := {}

/-- `Actor`, beside the store, the hub and the shared counter. `pool` says whether a relay pool runs. -/
structure Actor where
  relays : List String
  contacts : List Contact
  messages : List StoredMessage
  pool : Bool
  poolRelays : List String
  poolPubkey : Option String
  subscribedFor : Option String
  loopbackNip05 : Option String

/-- A method of `Actor`. -/
abbrev ChatMethod (α : Type) : Type := Method Call.Answer Actor ChatError α

inductive RelayNotification where
  | connected
  | disconnected
  | event (subscriptionId : String) (event : SignedEvent)
  | endOfStoredEvents (subscriptionId : String)
  | closed (subscriptionId message : String)
  | notice (message : String)
  | authChallenge (challenge : String)
  | authenticated (publicKey : String)
  | authenticationRejected (publicKey message : String)

/-- `ChatRequest`, without the channels for the replies. -/
inductive ChatRequest where
  | prepare
  | addContact (peer : String)
  | removeContact (npub : String)
  | listContacts
  | showRelays
  | setRelays (relays : List String)
  | send (peer text : String)
  | messages
  | reload
  | snapshot
  | loopback (base : Option String)
  | shutdown

def unixTime : ChatMethod UInt64 := do
  match (← Method.request Call.now : Option UInt64) with
  | some time => pure time
  | none => Method.throw .clock

def saveRecord (record : Record) (value : record.Value) : ChatMethod Unit := do
  match (← Method.request (Call.write record value) : Except StoreError Unit) with
  | .ok _ => pure ()
  | .error error => Method.throw (.sealed error)

/-- `load_vec` and `load_relays`: none if the record cannot be read or parsed. -/
def loadRecord (record : Record) : ChatMethod (Option record.Value) := do
  match (← Method.request (Call.read record) : Except StoreError (Option record.Value)) with
  | .ok value => pure value
  | .error _ => pure none

def publish (topic : Topic) (payload : Json) : ChatMethod Unit := do
  let sequence : UInt64 ← Method.request Call.nextSequence
  Method.request (Call.publishHub ⟨ipcVersion, sequence, topic, payload⟩)

def storeMessage (message : StoredMessage) : ChatMethod StoredMessage := do
  Method.modify fun actor => { actor with messages := Window.push maxMessages actor.messages message }
  let actor ← Method.get
  saveRecord .messages actor.messages
  publish .messages message.value
  pure message

section Actor
variable (p : Primitives)

/-- `self.load_secret().ok().flatten()` -/
def optionalSecret : ChatMethod (Option (NostrSecret p)) := do
  match ← (loadSecret p).attempt with
  | .ok secret => pure secret
  | .error _ => pure none

/-- `self.load_secret()?.ok_or(ChatError::Stopped)?` -/
def requiredSecret : ChatMethod (NostrSecret p) := do
  match ← (loadSecret p).mapError .store with
  | some secret => pure secret
  | none => Method.throw .stopped

def NostrSecret.pubkey {p : Primitives} (secret : NostrSecret p) : String := hexEncode secret.publicKey.val

/-! ## The relay pool -/

def publishInboxList (secret : NostrSecret p) : ChatMethod Unit := do
  let actor ← Method.get
  let advertised := (actor.relays.filter fun url => url.startsWith "wss://").take 3
  if advertised = [] then pure ()
  else
    match (← Method.request Call.now : Option UInt64) with
    | none => pure ()
    | some now =>
      match (← Method.request (Call.createDmRelayList secret.secret now advertised) : Option SignedEvent) with
      | none => pure ()
      | some event => do
        let actor ← Method.get
        if actor.pool then
          let connected : Bool ← Method.request Call.waitConnected
          if connected then
            let _ : Except RelayPoolError Unit ← Method.request (Call.publishPool event)
            pure ()
          else pure ()
        else pure ()

def ensureSubscription : ChatMethod Unit := do
  match ← optionalSecret p with
  | none => pure ()
  | some secret =>
    let actor ← Method.get
    if actor.subscribedFor = some secret.pubkey then pure ()
    else
      let now : Option UInt64 ← Method.request Call.now
      let since := satSub (now.getD 0) lookbackSeconds
      if actor.pool then
        let _ : Unit ← Method.request (Call.subscribePool secret.pubkey since)
        Method.modify fun actor => { actor with subscribedFor := some secret.pubkey }
        publishInboxList p secret
      else
        Method.modify fun actor => { actor with subscribedFor := some secret.pubkey }
        publishInboxList p secret

/-- `if let Some(pool) = self.pool.take() { pool.shutdown().await }` -/
def closePool : ChatMethod Unit := do
  let actor ← Method.get
  if actor.pool then Method.request Call.shutdownPool else pure ()

def restartPool : ChatMethod Unit := do
  closePool
  let secret ← optionalSecret p
  Method.modify fun actor =>
    { actor with
      pool := false
      subscribedFor := none
      poolRelays := actor.relays
      poolPubkey := secret.map NostrSecret.pubkey }
  let actor ← Method.get
  if actor.relays = [] then pure ()
  else
    -- the signer reads the identity once more
    let _ ← optionalSecret p
    let spawned : Bool ← Method.request (Call.spawnPool actor.relays)
    if spawned then
      Method.modify fun actor => { actor with pool := true }
      ensureSubscription p
    else pure ()

def ensurePool : ChatMethod Unit := do
  let secret ← optionalSecret p
  let actor ← Method.get
  if actor.pool ∧ actor.poolRelays = actor.relays ∧ actor.poolPubkey = secret.map NostrSecret.pubkey then
    ensureSubscription p
  else restartPool p

def publishToRelays (event : SignedEvent) : ChatMethod Unit := do
  let actor ← Method.get
  if actor.pool then
    let connected : Bool ← Method.request Call.waitConnected
    if connected then
      match (← Method.request (Call.publishPool event) : Except RelayPoolError Unit) with
      | .ok _ => pure ()
      | .error error => Method.throw (.send (.pool error))
    else Method.throw .notConnected
  else Method.throw .noRelays

/-! ## Contacts -/

def newContact (pubkey : Bytes 32) (nip05 : Option String) : Contact where
  pubkey := hexEncode pubkey.val
  npub := p.npub pubkey
  nip05 := nip05
  display := nip05.getD (p.npub pubkey)

/-- `Actor::resolve_peer`, with the four forms of a peer in the order of the source. -/
def resolvePeer (peer : String) : ChatMethod (Bytes 32 × Option String) := do
  let peer := trim peer
  let actor ← Method.get
  if '@' ∈ peer.toList then
    match (← Method.request (Call.resolveHandle peer actor.loopbackNip05) : Except Nip05Error ResolvedNip05) with
    | .error error => Method.throw (.nip05 error)
    | .ok resolved => pure (resolved.publicKey, some (resolved.name ++ "@" ++ resolved.domain))
  else
    match p.fromNpub peer with
    | some pubkey => pure (pubkey, none)
    | none =>
      if peer.utf8ByteSize = 64 ∧ peer.toList.all fun c => (hexValue c).isSome then
        match (hexDecode peer).bind (Bytes.ofList? 32) with
        | none => Method.throw .invalidPeer
        | some pubkey => if p.keyValid pubkey then pure (pubkey, none) else Method.throw .invalidPeer
      else
        match actor.contacts.find? fun contact =>
          contact.display.map Char.toLower == peer.map Char.toLower || contact.npub == peer with
        | none => Method.throw .invalidPeer
        | some contact =>
          match (hexDecode contact.pubkey).bind (Bytes.ofList? 32) with
          | none => Method.throw .invalidPeer
          | some pubkey => pure (pubkey, contact.nip05)

/-- `Actor::add_contact` from the new contact on. -/
def insertContact (contact : Contact) : ChatMethod Json := do
  Method.modify fun actor => { actor with contacts := actor.contacts ++ [contact] }
  let actor ← Method.get
  saveRecord .contacts actor.contacts
  publish .conversations
    (.object [("conversation", .str ("dm:" ++ contact.pubkey)), ("name", .str contact.display)])
  ensurePool p
  pure (.object [("contact", contact.value), ("created", .bool true)])

def addContact (peer : String) : ChatMethod Json := do
  let _ ← ensureIdentity p
  let (pubkey, nip05) ← resolvePeer p peer
  let mine ← requiredSecret p
  if pubkey = mine.publicKey then Method.throw .selfContact
  else
    let actor ← Method.get
    match actor.contacts.find? fun contact => contact.pubkey == hexEncode pubkey.val with
    | some existing => pure (.object [("contact", existing.value), ("created", .bool false)])
    | none =>
      if maxContacts ≤ actor.contacts.length then Method.throw .tooLarge
      else insertContact p (newContact p pubkey nip05)

def removeContact (npub : String) : ChatMethod Json := do
  match p.fromNpub npub with
  | none => Method.throw (.identity .bech32)
  | some key =>
    let actor ← Method.get
    let kept := actor.contacts.filter fun contact => contact.pubkey != hexEncode key.val
    Method.modify fun actor => { actor with contacts := kept }
    if kept.length = actor.contacts.length then Method.throw .notFound
    else
      saveRecord .contacts kept
      pure (.object [("removed", .bool true)])

def rememberContact (pubkey : Bytes 32) (nip05 : Option String) : ChatMethod Unit := do
  let actor ← Method.get
  if actor.contacts.any fun contact => contact.pubkey == hexEncode pubkey.val then pure ()
  else if maxContacts ≤ actor.contacts.length then Method.throw .tooLarge
  else
    Method.modify fun actor => { actor with contacts := actor.contacts ++ [newContact p pubkey nip05] }
    let actor ← Method.get
    saveRecord .contacts actor.contacts

def displayFor (contacts : List Contact) (pubkey : String) : String :=
  match contacts.find? fun contact => contact.pubkey == pubkey with
  | some contact => contact.display
  | none =>
    match (hexDecode pubkey).bind (Bytes.ofList? 32) with
    | some raw => p.npub raw
    | none => "peer"

/-! ## Sending -/

/-- The check of the text in `Actor::send`. -/
def validText (text : String) : Bool :=
  !(text == "" || maxTextBytes < text.utf8ByteSize || text.toList.any fun c => isControl c && c != '\n' && c != '\t')

def randomArray : ChatMethod (Bytes 32) := do
  match (← Method.request (Call.random 32) : Option (Bytes 32)) with
  | some bytes => pure bytes
  | none => Method.throw (.send (.giftWrap .randomnessUnavailable))

/-- `random_secret_key`, which tries `attempts` times. -/
def randomSecretKey : (attempts : Nat) → ChatMethod (Bytes 32)
  | 0 => Method.throw (.send (.giftWrap .randomnessUnavailable))
  | attempts + 1 => do
    let candidate ← randomArray
    if (p.publicKey candidate).isSome then pure candidate else randomSecretKey attempts

/-- `random_past_timestamp`: up to two days before `now`. -/
def randomPastTimestamp (now : UInt64) : ChatMethod UInt64 := do
  match (← Method.request (Call.random 8) : Option (Bytes 8)) with
  | none => Method.throw (.send (.giftWrap .randomnessUnavailable))
  | some bytes =>
    let number := bytes.val.foldr (fun b n => b.toNat + 256 * n) 0
    pure (satSub now (UInt64.ofNat (number % (2 * 24 * 60 * 60 + 1))))

/-- `create_gift_wrap` for a persistent wrap. -/
def createGiftWrap (rumor : Rumor) (sender recipient : Bytes 32) (now : UInt64) : ChatMethod SignedEvent := do
  let sealCreatedAt ← randomPastTimestamp now
  let sealNonce ← randomArray
  let sealAuxiliaryRandomness ← randomArray
  let wrapperSecretKey ← randomSecretKey p 128
  let wrapperCreatedAt ← randomPastTimestamp now
  let wrapperNonce ← randomArray
  let wrapperAuxiliaryRandomness ← randomArray
  Method.ofExcept <| Except.mapError (fun error => ChatError.send (.giftWrap error)) <|
    createGiftWrapWithMaterial p rumor sender recipient .persistent
      ⟨sealCreatedAt, sealNonce, sealAuxiliaryRandomness, wrapperSecretKey, wrapperCreatedAt, wrapperNonce,
        wrapperAuxiliaryRandomness⟩ defaultLimits

/-- What `Actor::send` is about once the peer is known: the sender, the recipient, the time and the rumor. -/
structure Outgoing where
  secret : NostrSecret p
  recipient : Bytes 32
  now : UInt64
  rumor : Rumor

/-- `Actor::send` up to the rumor. -/
def prepareSend (peer text : String) : ChatMethod (Outgoing p) := do
  if !validText text then Method.throw .invalidText
  else
    let (secret, _) ← ensureIdentity p
    ensurePool p
    let (recipient, nip05) ← resolvePeer p peer
    if recipient = secret.publicKey then Method.throw .selfContact
    else
      rememberContact p recipient nip05
      let now ← unixTime
      let rumor ← Method.ofExcept <| Except.mapError (fun error => ChatError.send (.giftWrap error)) <|
        createChatRumor p secret.secret now [recipient] text defaultLimits
      pure ⟨secret, recipient, now, rumor⟩

/-- The message that `Actor::send` stores. -/
def outgoingMessage (outgoing : Outgoing p) (text : String) : StoredMessage where
  id := outgoing.rumor.id
  conversation := "dm:" ++ hexEncode outgoing.recipient.val
  peer := hexEncode outgoing.recipient.val
  sender := "you"
  text := text
  outgoing := true
  delivery := "stored"
  createdAt := outgoing.rumor.createdAt

/-- `Actor::send` from the rumor on. -/
def sendRumor (outgoing : Outgoing p) (text : String) : ChatMethod Json := do
  let secret := outgoing.secret
  let recipientWrap ← createGiftWrap p outgoing.rumor secret.secret outgoing.recipient outgoing.now
  let selfWrap ← createGiftWrap p outgoing.rumor secret.secret secret.publicKey outgoing.now
  publishToRelays recipientWrap
  -- the copy for this user's other devices may fail
  let _ ← (publishToRelays selfWrap).attempt
  let message ← storeMessage (outgoingMessage p outgoing text)
  pure (.object [("message", message.value)])

def send (peer text : String) : ChatMethod Json := do
  let outgoing ← prepareSend p peer text
  sendRumor p outgoing text

/-! ## Receiving -/

/-- The peer of an opened rumor: its author, or the first `p` tag of a copy of this user's own message. -/
def rumorPeer (mine : String) (rumor : Rumor) : Option String :=
  if rumor.pubkey = mine then (rumor.tags.find? fun tag => tag.head? == some "p").bind (·[1]?) else some rumor.pubkey

/-- The message of an opened rumor, unless it is of another kind, too long or between this user and themselves. -/
def rumorMessage (contacts : List Contact) (mine : String) (rumor : Rumor) : Option StoredMessage :=
  if rumor.kind ≠ chatMessageKind ∨ maxTextBytes < rumor.content.utf8ByteSize then none
  else
    match rumorPeer mine rumor with
    | none => none
    | some peer =>
      if peer = mine then none
      else
        let outgoing := rumor.pubkey == mine
        some {
          id := rumor.id
          conversation := "dm:" ++ peer
          peer := peer
          sender := if outgoing then "you" else displayFor p contacts peer
          text := rumor.content
          outgoing := outgoing
          delivery := if outgoing then "stored" else "received"
          createdAt := rumor.createdAt }

/-- `Actor::on_notification` up to the message that a notification brings. -/
def incoming (notification : RelayNotification) : ChatMethod (Option StoredMessage) := do
  match notification with
  | .event _ event =>
    if event.kind ≠ giftWrapKind then pure none
    else
      match ← optionalSecret p with
      | none => pure none
      | some secret =>
        match (← Method.request Call.now : Option UInt64) with
        | none => pure none
        | some now =>
          match openGiftWrap p event secret.secret now defaultLimits with
          | .error _ => pure none
          | .ok opened => do
            let actor ← Method.get
            pure (rumorMessage p actor.contacts secret.pubkey opened.rumor)
  | _ => pure none

/-- `Actor::on_notification` from the message on: one whose id is among the stored messages is dropped. -/
def storeIncoming : Option StoredMessage → ChatMethod Unit
  | none => pure ()
  | some message => do
    let actor ← Method.get
    if actor.messages.any fun stored => stored.id == message.id then pure ()
    else
      let _ ← (storeMessage message).attempt
      pure ()

def onNotification (notification : RelayNotification) : ChatMethod Unit := do
  let message ← incoming p notification
  storeIncoming message

/-! ## Requests -/

def identityValue (generated : Bool) : ChatMethod Json := do
  let secret ← requiredSecret p
  pure (.object [("npub", .str (p.npub secret.publicKey)), ("pubkey", .str secret.pubkey), ("generated", .bool generated)])

def relayValue : ChatMethod Json := do
  let actor ← Method.get
  pure (.object [("relays", .strings actor.relays)])

/-- The identity in `Actor::snapshot_value`. -/
def snapshotIdentity (secret : Option (NostrSecret p)) : Json :=
  match secret with
  | some secret =>
    .object [("present", .bool true), ("npub", .str (p.npub secret.publicKey)), ("pubkey", .str secret.pubkey)]
  | none => .object [("present", .bool false)]

def snapshotValue : ChatMethod Json := do
  let secret ← optionalSecret p
  let actor ← Method.get
  pure (.object [("messages", .arr (actor.messages.map StoredMessage.value)),
    ("contacts", .arr (actor.contacts.map Contact.value)), ("relays", .strings actor.relays),
    ("identity", snapshotIdentity p secret)])

def prepare : ChatMethod Json := do
  let (_, generated) ← ensureIdentity p
  Method.modify fun actor => { actor with subscribedFor := none }
  restartPool p
  identityValue p generated

/-- The loop of `canonical_relays`. -/
def canonicalizeRelays : (canonical : List String) → List String → ChatMethod (List String)
  | canonical, [] => pure canonical
  | canonical, relay :: rest => do
    match (← Method.request (Call.canonicalUrl relay) : Option String) with
    | none => Method.throw .invalidRelay
    | some url => if url ∈ canonical then Method.throw .invalidRelay else canonicalizeRelays (canonical ++ [url]) rest

def canonicalRelays (relays : List String) : ChatMethod (List String) :=
  if relays = [] ∨ maxRelays < relays.length then Method.throw .invalidRelay else canonicalizeRelays [] relays

def setRelays (relays : List String) : ChatMethod Json := do
  let canonical ← (if relays = [] then pure [] else canonicalRelays relays : ChatMethod (List String))
  saveRecord .relays canonical
  Method.modify fun actor => { actor with relays := canonical, subscribedFor := none }
  restartPool p
  relayValue

/-- `Actor::handle`, with the reply that it sends. -/
def handle : ChatRequest → ChatMethod Json
  | .prepare => prepare p
  | .addContact peer => addContact p peer
  | .removeContact npub => removeContact p npub
  | .listContacts => do
    let actor ← Method.get
    pure (.object [("contacts", .arr (actor.contacts.map Contact.value))])
  | .showRelays => relayValue
  | .setRelays relays => setRelays p relays
  | .send peer text => send p peer text
  | .messages => do
    let actor ← Method.get
    pure (.object [("messages", .arr (actor.messages.map StoredMessage.value))])
  | .reload => do
    Method.modify fun actor => { actor with subscribedFor := none }
    restartPool p
    identityValue p false
  | .snapshot => snapshotValue p
  | .loopback base => do
    Method.modify fun actor => { actor with loopbackNip05 := base }
    pure (.object [("ok", .bool true)])
  | .shutdown => pure .null

/-- `NostrChat::spawn` and the start of `Actor::run`: what cannot be loaded is empty, or as configured. -/
def start (configuredRelays : List String) : ChatMethod Unit := do
  let relays ← loadRecord .relays
  let contacts ← loadRecord .contacts
  let messages ← loadRecord .messages
  Method.modify fun _ =>
    { relays := relays.getD configuredRelays
      contacts := contacts.getD []
      messages := messages.getD []
      pool := false
      poolRelays := []
      poolPubkey := none
      subscribedFor := none
      loopbackNip05 := none }
  restartPool p

end Actor

end OmaChat.Daemon
