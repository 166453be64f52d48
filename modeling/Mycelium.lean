import Mycelium.Logic.Run
import Mycelium.Logic.Log
import Mycelium.Logic.Ranking
import Mycelium.Logic.Retention
import Mycelium.Logic.Table
import Mycelium.Logic.Join
import Mycelium.Logic.Unwinding
import Mycelium.Logic.Refinement
import Mycelium.Logic.HighWater
import Mycelium.Logic.Msgpack
import Mycelium.Logic.Configuration
import Mycelium.Logic.Text
import Mycelium.Shared.Datetime
import Mycelium.Shared.Subscriptions
import Mycelium.Shared.Streams
import Mycelium.Shared.Models
import Mycelium.Shared.BackupCodec
import Mycelium.Shared.Settings
import Mycelium.Shared.Store
import Mycelium.Shared.Keyspace
import Mycelium.Api.Startup
import Mycelium.Api.Deps
import Mycelium.Api.Routers
import Mycelium.Api.Resurrection
import Mycelium.Api.Requests
import Mycelium.Api.Changes
import Mycelium.Api.Ownership
import Mycelium.Api.Accounts
import Mycelium.Api.AfterCommit
import Mycelium.Api.Forks
import Mycelium.Api.Lockout
import Mycelium.Api.Observability
import Mycelium.Api.Tokens
import Mycelium.Api.Sessions
import Mycelium.Worker.Pipeline
import Mycelium.Worker.Rollup
import Mycelium.Worker.Prune
import Mycelium.Worker.Due
import Mycelium.Worker.Downgrade
import Mycelium.Worker.Locality
import Mycelium.Worker.SharedSession
import Mycelium.Worker.Interleaving
import Mycelium.Worker.Flush
import Mycelium.Worker.FlushAll
import Mycelium.Worker.Blobs
import Mycelium.Worker.Steps
import Mycelium.Worker.Alone
import Mycelium.Worker.Invariants
import Mycelium.Worker.Effects
import Mycelium.Worker.Loss
import Mycelium.Worker.Duplicates
import Mycelium.Worker.ArchivedOnce
import Mycelium.Worker.Serial
import Mycelium.Worker.TrimResidue
import Mycelium.Worker.World
import Mycelium.Worker.Metadata
import Mycelium.Worker.Uploads
import Mycelium.Worker.Prunes
import Mycelium.Worker.Orphans
import Mycelium.Worker.Drain
import Mycelium.Worker.Lanes
import Mycelium.Worker.Atomic
import Mycelium.Worker.Periods
import Mycelium.System.Events
import Mycelium.System.Retention
import Mycelium.System.Restorable
import Mycelium.System.Postponed
import Mycelium.System.Accepted
import Mycelium.System.Cadence
import Mycelium.System.Passes
import Mycelium.System.Timed
import Mycelium.System.Periods
import Mycelium.System.SafetyValve
