import Skattr.Core.Attachment.Filename
import Skattr.Core.Attachment.Strip
import Skattr.Core.Daemon.AddRace
import Skattr.Core.Daemon.CardReads
import Skattr.Core.Daemon.CardVersions
import Skattr.Core.Daemon.Config
import Skattr.Core.Daemon.FirstContact
import Skattr.Core.Daemon.HardRemoval
import Skattr.Core.Daemon.Interleaving
import Skattr.Core.Daemon.Janitor
import Skattr.Core.Daemon.JoinRace
import Skattr.Core.Daemon.LogTail
import Skattr.Core.Daemon.Migrate
import Skattr.Core.Daemon.Replies
import Skattr.Core.Daemon.SelfCard
import Skattr.Core.Daemon.WelcomeLifecycle
import Skattr.Core.Daemon.Wipe
import Skattr.Core.Delivery.Bookkeeping
import Skattr.Core.Delivery.ChunkProgress
import Skattr.Core.Delivery.ChunkSweep
import Skattr.Core.Delivery.OutboxSweep
import Skattr.Core.Delivery.Receiver
import Skattr.Core.Delivery.SavedFiles
import Skattr.Core.Delivery.SendOrder
import Skattr.Core.Delivery.ServeChunks
import Skattr.Core.Delivery.Status
import Skattr.Core.Identity.Vault
import Skattr.Core.Invite.RoundTrip
import Skattr.Core.Mailbox.Codec
import Skattr.Core.Mailbox.Removal
import Skattr.Core.Storage.AtRest
import Skattr.Core.Storage.Backup
import Skattr.Core.Storage.Messages
import Skattr.Core.Storage.Snapshot
import Skattr.Core.Transport.Connection
import Skattr.Mailbox.RateLimit
import Skattr.Mailbox.Refusal
import Skattr.Ui.Conversation
import Skattr.Ui.MarkRead
import Skattr.Ui.Stores
