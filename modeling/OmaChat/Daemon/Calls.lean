import OmaChat.Lib.Method
import OmaChat.Nostr.GiftWrap
import OmaChat.Nostr.Nip05
import OmaChat.Proto.Ipc
import OmaChat.Daemon.Records

/-!
# What the daemon asks of its surroundings

The sealed store, the clock, randomness, the name service, the relay pool and the event hub, one call each. Reading and
writing a record are single calls, as the store holds its key lock over each; the number of an event and its
publication are two, as the source takes the number from an atomic counter and then calls the hub.
-/

namespace OmaChat.Daemon
open Wire Effects Nostr Proto

/-- `RelayPoolError`; the connection's own error is not kept. -/
inductive RelayPoolError where
  | invalidConfig
  | connection
  | acknowledgementThreshold (accepted required attempted : Nat)
  deriving DecidableEq

inductive Call where
  /-- `SealedStore::read` and the JSON parser. -/
  | read (record : Record)
  /-- The JSON serializer and `SealedStore::write`. -/
  | write (record : Record) (value : record.Value)
  /-- `SystemTime::now` since the epoch. -/
  | now
  /-- `getrandom::fill` -/
  | random (length : Nat)
  /-- `nip05::resolve_handle` -/
  | resolveHandle (handle : String) (loopback : Option String)
  /-- `canonical_publication_url` -/
  | canonicalUrl (url : String)
  /-- `create_dm_relay_list` -/
  | createDmRelayList (secret : Bytes 32) (now : UInt64) (relays : List String)
  /-- `RelayPool::spawn` -/
  | spawnPool (relays : List String)
  /-- `RelayPool::shutdown` -/
  | shutdownPool
  /-- `RelayPool::subscribe` with the filter of the daemon. -/
  | subscribePool (pubkey : String) (since : UInt64)
  /-- `wait_connected` -/
  | waitConnected
  /-- `RelayPool::publish` -/
  | publishPool (event : SignedEvent)
  /-- `AtomicU64::fetch_add` on the shared sequence. -/
  | nextSequence
  /-- `EventHub::publish` -/
  | publishHub (event : Event)

/-- The answers. A record that was read and does not parse is `ok none`. -/
@[reducible] def Call.Answer : Call → Type
  | .read record => Except StoreError (Option record.Value)
  | .write _ _ => Except StoreError Unit
  | .now => Option UInt64
  | .random length => Option (Bytes length)
  | .resolveHandle _ _ => Except Nip05Error ResolvedNip05
  | .canonicalUrl _ => Option String
  | .createDmRelayList _ _ _ => Option SignedEvent
  | .spawnPool _ => Bool
  | .waitConnected => Bool
  | .publishPool _ => Except RelayPoolError Unit
  | .nextSequence => UInt64
  | .shutdownPool | .subscribePool _ _ | .publishHub _ => Unit

end OmaChat.Daemon
