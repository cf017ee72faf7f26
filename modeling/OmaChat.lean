import OmaChat.Proto.Transcripts
import OmaChat.Nostr.Segments
import OmaChat.Nostr.Gate
import OmaChat.Nostr.Backoff
import OmaChat.Nostr.Closed
import OmaChat.Nostr.Once
import OmaChat.Nostr.Convergence
import OmaChat.Nostr.Routing
import OmaChat.Proto.Decoder
import OmaChat.Desktop.Late
import OmaChat.Daemon.Contacts
import OmaChat.Daemon.Authorship
import OmaChat.Daemon.Delivery
import OmaChat.Daemon.Vault
import OmaChat.Daemon.HostedCore
import OmaChat.Desktop.Display
import OmaChat.Server.Refusal
import OmaChat.Server.Registration
import OmaChat.Server.Preface
import OmaChat.Server.Answered
import OmaChat.Server.Published
import OmaChat.Server.Queries
import OmaChat.Server.RateLimit
import OmaChat.Server.Host
