import Dormouse.Lib.InsertionMap
import Dormouse.Lath.Layout
import Dormouse.Lath.Canonical
import Dormouse.Lath.Ops
import Dormouse.Lath.Paths
import Dormouse.Lath.OpsValid
import Dormouse.Lath.Runs
import Dormouse.Lath.Spans
import Dormouse.Lib.Tiling
import Dormouse.Lath.LayoutSound
import Dormouse.Lath.HitTest
import Dormouse.Lath.Relabel
import Dormouse.Lath.HitTestSound
import Dormouse.Lib.Framing
import Dormouse.Noise.Stream
import Dormouse.Noise.StreamSound
import Dormouse.Noise.Transport
import Dormouse.Noise.TransportSound
import Dormouse.Lib.JsString
import Dormouse.Terminal.CommandLine
import Dormouse.Alert.Detector
import Dormouse.Alert.Model
import Dormouse.Alert.Effects
import Dormouse.Alert.Operations
import Dormouse.Alert.Sound
import Dormouse.Lib.Json
import Dormouse.Noise.Handshake
import Dormouse.Security.Acl
import Dormouse.Security.Ceremony
import Dormouse.Burrow.Invitation
import Dormouse.Security.Challenge
import Dormouse.Burrow.Model
import Dormouse.Burrow.Pairing
import Dormouse.Burrow.Connection
import Dormouse.Burrow.Runtime
import Dormouse.Burrow.Sheds
import Dormouse.Lib.History
import Dormouse.Burrow.PairingSound
import Dormouse.Lib.Async
import Dormouse.Noise.Calls
import Dormouse.Noise.CallsSound
import Dormouse.Noise.Transcript
import Dormouse.Noise.Agreement
import Dormouse.Burrow.InvitationLink
import Dormouse.Alert.Awaits
import Dormouse.Alert.AwaitContract
import Dormouse.Lath.Persistence
import Dormouse.Lath.PersistenceSound
import Dormouse.Lath.WallStore
import Dormouse.Lath.WallStoreCoherent
import Dormouse.Lib.Transducer
import Dormouse.Terminal.StringControl
import Dormouse.Terminal.TextFilter
import Dormouse.Terminal.OscContent
import Dormouse.Terminal.Protocol
import Dormouse.Terminal.Reading
import Dormouse.Terminal.GroundText
import Dormouse.Terminal.Disposition
import Dormouse.Terminal.ScanSound
import Dormouse.Terminal.ScanText
import Dormouse.Terminal.ChunkReads
import Dormouse.Terminal.Chunking
import Dormouse.Terminal.ModeMachine
import Dormouse.Terminal.Resync
import Dormouse.Terminal.ChunkInvariance
import Dormouse.Alert.RingCount
import Dormouse.Alert.DetectorSound
import Dormouse.Alert.Subscribers
import Dormouse.Security.Encoding
import Dormouse.Security.Presence
import Dormouse.Security.PresenceSound
import Dormouse.Relay.Hub
import Dormouse.Relay.HubSafe
import Dormouse.Relay.SetupTokens
import Dormouse.Relay.SetupTokensSound
import Dormouse.Relay.PushStore
import Dormouse.Relay.PushStoreSound
import Dormouse.Pocket.Client
import Dormouse.Pocket.ClientSound
import Dormouse.Relay.EnrollOffer
import Dormouse.Relay.EnrollOfferSound
import Dormouse.Pocket.Deliveries
import Dormouse.Pocket.DeliveriesSound
import Dormouse.Lib.Directories
import Dormouse.Notepad.ArchiveFile
import Dormouse.Notepad.ArchiveFileSound
import Dormouse.Host.Service
import Dormouse.Host.ServiceSound
import Dormouse.Host.ServiceStatus
import Dormouse.Lib.ChunkBuffer
import Dormouse.Pty.Core
import Dormouse.Pty.Manager
import Dormouse.Pty.Generations
import Dormouse.Pty.LedgerSound
import Dormouse.Pty.SidecarSound
import Dormouse.Pty.Recovery
import Dormouse.Pty.RecoverySound
import Dormouse.Notepad.ArchiveMutation
import Dormouse.Relay.PushCaps
import Dormouse.Alert.CommandAgreement
import Dormouse.Control.Protocol
import Dormouse.Control.Server
import Dormouse.Control.ServerSound
import Dormouse.Control.Accounting
import Dormouse.Control.Channel
import Dormouse.Terminal.HelperTerminal
import Dormouse.Terminal.HelperTerminalSound
import Dormouse.Lib.Desk
import Dormouse.Window.BurrowCommands
import Dormouse.Window.BurrowCommandsSound
import Dormouse.Window.Ownership
import Dormouse.Lib.Holdings
import Dormouse.Window.OwnershipSound
import Dormouse.Pty.Attachments
import Dormouse.Pty.AttachmentsSound
import Dormouse.Pty.Helpers
import Dormouse.Pty.Repaint
import Dormouse.Pty.Transcripts
import Dormouse.Lib.JsonText
import Dormouse.PeerLink.FrameDecoder
import Dormouse.Security.Decoding
import Dormouse.Security.PushSeal
import Dormouse.Security.PushText
import Dormouse.Burrow.PushDelivery
import Dormouse.Relay.PresenceNonces
import Dormouse.Relay.PresenceNoncesSound
import Dormouse.Notepad.Volatile
import Dormouse.Notepad.VolatileSound
import Dormouse.Lib.Matches
import Dormouse.Terminal.Controls
import Dormouse.Terminal.ShellEscape
import Dormouse.Terminal.ResumePatterns
import Dormouse.Terminal.ResumePatternsSound
import Dormouse.Terminal.DirectoryLabels
import Dormouse.Lib.MapFolds
import Dormouse.Terminal.DirectoryLabelsSound
import Dormouse.Host.AddressGuard
import Dormouse.Host.AddressText
import Dormouse.Host.AddressGuardIPv4
import Dormouse.Host.AddressGuardIPv6
import Dormouse.Host.AddressGuardSound
import Dormouse.Terminal.PromptScanners
import Dormouse.Terminal.PromptScannersSound
import Dormouse.Terminal.PromptSubmitSound
import Dormouse.Lath.Fractional
import Dormouse.Lath.Neighbors
import Dormouse.Lath.Waterfill
import Dormouse.Lib.Cuts
import Dormouse.Lath.NeighborsSound
import Dormouse.Lath.Before
import Dormouse.Lath.MoveSound
import Dormouse.Lath.Animator
import Dormouse.Lath.AnimatorSound
import Dormouse.Security.Base64Url
import Dormouse.Burrow.Guards
import Dormouse.Security.AclSound
import Dormouse.Security.TokenBucketSound
import Dormouse.Burrow.Transcripts
import Dormouse.Noise.PlaintextSound
import Dormouse.Lath.ValidateSound
