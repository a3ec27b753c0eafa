import Replica.Address
import Replica.Bytes
import Replica.Command
import Replica.Command.Codec
import Replica.Config
import Replica.Decimal
import Replica.Failure
import Replica.Gateway
import Replica.Http.Message
import Replica.Http.Query
import Replica.Http.Router
import Replica.Machine
import Replica.Main
import Replica.Msgpack
import Replica.Node
import Replica.Program
import Replica.Shutdown
import Replica.Site
import Replica.Snapshot
import Replica.Storage
import Replica.Storage.Disk
import Replica.Storage.StateFile
import Replica.Store
import Replica.Table
import Replica.Text.Cut
import Replica.Text.Lines
import Replica.Text.Quoted
import Replica.Text.Utf8
import Replica.Proofs.Change
import Replica.Proofs.Durability
import Replica.Proofs.Entries
import Replica.Proofs.Grammar
import Replica.Proofs.LawfulStorage
import Replica.Proofs.Restart
import Replica.Proofs.RoundTrip
import Replica.Proofs.Saves
import Replica.Proofs.Spelling
import Replica.Proofs.StrictText
import Replica.Proofs.Value
import Replica.Proofs.Visibility
import Replica.Proofs.Written
import Replica.Proofs.Verdict
import Replica.Proofs.ExtraEntries
import Replica.Proofs.Rewriting
import Replica.Proofs.Replay
import Replica.Proofs.Reordering
import Replica.Proofs.SingleEntry
import Replica.Proofs.Repair
import Replica.Proofs.Damage
import Replica.Proofs.Paths
import Replica.Proofs.Saving
import Replica.Proofs.Interruption
import Replica.Proofs.Obstruction
import Replica.Proofs.FileStore
import Replica.Proofs.History
import Replica.Proofs.Routing
import Replica.Proofs.MediaType
import Replica.Proofs.Deadline
import Replica.Proofs.FirstReason
import Replica.Proofs.KeyQuery
import Replica.Proofs.Deletion
import Replica.Proofs.Arrangement
