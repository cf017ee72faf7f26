import OmaChat.Lib.Json

/-!
# The records of the daemon

The daemon keeps its Nostr identity, contacts, messages and relays as four records of the sealed store. `Contact` and
`StoredMessage` are the entries of two of them, with the JSON that the daemon puts into answers and events.
-/

namespace OmaChat.Daemon
open Wire

/-- `StoreError`. The system's own error in `Io` is not kept. -/
inductive StoreError where
  | io
  | random
  | secretServiceUnavailable
  | secretServiceLocked
  | missingMasterKey
  | duplicateMasterKey
  | invalidMasterKey
  | invalidProviderMarker
  | providerConflict
  | providerStateExists
  | insecurePermissions
  | invalidRecordName
  | invalidPath
  | invalidEnvelope
  | recordNotFound
  | unsupportedVersion (version : UInt8)
  | recordTooLarge
  | encryption
  | authentication
  | unsafeEraseTarget
  | erased
  deriving DecidableEq

structure Contact where
  pubkey : String
  npub : String
  nip05 : Option String
  display : String
  deriving DecidableEq

structure StoredMessage where
  id : String
  conversation : String
  peer : String
  sender : String
  text : String
  outgoing : Bool
  delivery : String
  createdAt : UInt64
  deriving DecidableEq

/-- A contact as a JSON value; `nip05` is left out when there is none. -/
def Contact.value (contact : Contact) : Json :=
  .object ([("pubkey", .str contact.pubkey), ("npub", .str contact.npub)] ++
    (match contact.nip05 with
    | some handle => [("nip05", .str handle)]
    | none => []) ++ [("display", .str contact.display)])

def StoredMessage.value (message : StoredMessage) : Json :=
  .object [("id", .str message.id), ("conversation", .str message.conversation), ("peer", .str message.peer),
    ("sender", .str message.sender), ("text", .str message.text), ("outgoing", .bool message.outgoing),
    ("delivery", .str message.delivery), ("created_at", .num message.createdAt.toNat)]

/-- The records: `nostr-identity-v1`, `nostr-contacts-v1`, `nostr-messages-v1` and `nostr-relays-v1`. -/
inductive Record where
  | identity
  | contacts
  | messages
  | relays
  deriving DecidableEq

@[reducible] def Record.Value : Record → Type
  | .identity => Bytes 32
  | .contacts => List Contact
  | .messages => List StoredMessage
  | .relays => List String

end OmaChat.Daemon
