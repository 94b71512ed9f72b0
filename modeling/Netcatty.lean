import Netcatty.Library.Feed
import Netcatty.Telnet.Codec
import Netcatty.Telnet.Fragmentation
import Netcatty.Library.Runs
import Netcatty.Telnet.Negotiation
import Netcatty.Serial.Zmodem.Codec
import Netcatty.Serial.Zmodem.Wire
import Netcatty.Library.Framing
import Netcatty.Serial.Zmodem.RoundTrip
import Netcatty.Library.Scan
import Netcatty.Serial.Zmodem.Sentry
import Netcatty.Serial.FileName
import Netcatty.Serial.Zmodem.Metadata
import Netcatty.Serial.Zmodem.Sender
import Netcatty.Library.Driver
import Netcatty.Serial.Zmodem.Receiver
import Netcatty.Serial.Zmodem.SenderSteps
import Netcatty.Serial.Zmodem.ReceiverSteps
import Netcatty.Serial.Zmodem.ReceiverFailure
import Netcatty.Serial.Zmodem.SenderFailure
import Netcatty.Serial.Zmodem.Failure
import Netcatty.Library.Monitor
import Netcatty.Serial.Zmodem.Delivery
import Netcatty.Serial.Zmodem.SenderRetries
import Netcatty.Serial.Zmodem.ReceiverRetries
import Netcatty.Serial.Zmodem.Retries
import Netcatty.Telnet.Consistency
import Netcatty.Vault.Model
import Netcatty.Vault.Records
import Netcatty.Library.Catalog
import Netcatty.Vault.Catalogs
import Netcatty.Vault.Graph
import Netcatty.Vault.Checked
import Netcatty.Library.Crash
import Netcatty.Library.FileSystem
import Netcatty.Vault.Snapshot
import Netcatty.Vault.Commitment
import Netcatty.Vault.Import
import Netcatty.Vault.Names
import Netcatty.Vault.Store
import Netcatty.Vault.Operations
import Netcatty.Vault.Publication
import Netcatty.Vault.Loading
import Netcatty.Vault.ReadBack
import Netcatty.Vault.Recovery
import Netcatty.Vault.Damage
import Netcatty.Vault.Revisions
import Netcatty.Vault.Retention
import Netcatty.Vault.Closure
import Netcatty.Library.Uptake
import Netcatty.Vault.ImportLaws
import Netcatty.Vault.Assessment
import Netcatty.Ai.Blocklist
import Netcatty.Ai.Turn
import Netcatty.Ai.History
import Netcatty.Ai.Safety
import Netcatty.Ai.Approvals
import Netcatty.Vault.GroupDefaults
import Netcatty.Vault.Provenance
import Netcatty.Vault.EffectiveHost
import Netcatty.Vault.Owners
import Netcatty.Ai.Anthropic
import Netcatty.Library.BigEndian
import Netcatty.Secret.Bundle
import Netcatty.Secret.Envelope
import Netcatty.Credentials.Ephemeral
import Netcatty.Credentials.OneShot
import Netcatty.Credentials.Accounts
import Netcatty.LogExport.Bounds
import Netcatty.LogExport.Render
import Netcatty.LogExport.Markup
import Netcatty.LogExport.Agreement
import Netcatty.Serial.Publish
import Netcatty.Serial.PublishSafety
import Netcatty.Library.Words
import Netcatty.SysManager.Inventory
import Netcatty.SysManager.Listing
import Netcatty.Ai.Conversation
import Netcatty.Ai.ConversationBounds
import Netcatty.Ai.ConversationRuns
import Netcatty.Ai.ConversationWrites
import Netcatty.Library.Duplex
import Netcatty.Ssh.Socks5
import Netcatty.Library.Fueled
import Netcatty.Ssh.DirectoryTransfer
import Netcatty.Ssh.ListingOrder
import Netcatty.Ssh.RemoteContainment
import Netcatty.Ssh.RemoteWalk
import Netcatty.Serial.Zmodem.Subpackets
import Netcatty.Vault.AuthGuard
import Netcatty.Library.SortedMap
import Netcatty.LogExport.FileNames
import Netcatty.ReplayStore.Bundles
import Netcatty.ReplayStore.Canonical
import Netcatty.Library.Cursor
import Netcatty.Library.Rect
import Netcatty.Terminal.PaneLaws
import Netcatty.Serial.Zmodem.Noise
import Netcatty.Serial.Zmodem.ReceiverRemainder
import Netcatty.Serial.Zmodem.Remainder
import Netcatty.Telnet.AutoLogin
import Netcatty.Telnet.AutoLoginRuns
import Netcatty.Serial.FileMetadata
import Netcatty.Ai.BlocklistLaws
import Netcatty.Ssh.PortForward
import Netcatty.Ssh.PortForwardRegistry
import Netcatty.Ssh.PortForwardRuns
import Netcatty.Library.Boundary
import Netcatty.ReplayStore.Replay
import Netcatty.Secret.Canonical
import Netcatty.Serial.DestinationNames
import Netcatty.Library.PosixShell
import Netcatty.Library.ShiftRegister
import Netcatty.Serial.Checksums
import Netcatty.SysManager.Quoting
import Netcatty.SysManager.TmuxListing
import Netcatty.Library.ShellInsertion
import Netcatty.Ssh.ProxyCommand
import Netcatty.Library.UriHost
import Netcatty.Ssh.HttpConnect
import Netcatty.Library.HashChain
import Netcatty.Ssh.Checkpoints
import Netcatty.Library.Comparator
import Netcatty.Terminal.Navigation
import Netcatty.Terminal.Restoring
import Netcatty.Library.Rendezvous
import Netcatty.Ssh.HostKey
import Netcatty.Ssh.PromptBrokers
import Netcatty.Library.Attempt
import Netcatty.Desktop.ImportJournal
import Netcatty.Desktop.JournalLaws
import Netcatty.Desktop.JournalText
import Netcatty.Desktop.JournalRuns
