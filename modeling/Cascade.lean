import Cascade.Lib.HashMap
import Cascade.Lib.KeySet
import Cascade.Lib.Chunks
import Cascade.Lib.Runs
import Cascade.Lib.Router
import Cascade.Lib.Heap
import Cascade.Lib.Channel
import Cascade.Base
import Cascade.Policy
import Cascade.Config
import Cascade.Center
import Cascade.Link
import Cascade.StateFile
import Cascade.Startup
import Cascade.Tsig
import Cascade.LightWeightZone
import Cascade.Signing
import Cascade.Comms
import Cascade.ZoneServer
import Cascade.Pipeline
import Cascade.Steps
import Cascade.Publication
import Cascade.Snapshot
import Cascade.Registration
import Cascade.Maintainer
import Cascade.MaintainerSteps
import Cascade.Notify
import Cascade.Deadlock
import Cascade.Promotion
import Cascade.FirstLoad
import Cascade.PolicyFile
import Cascade.Live
import Cascade.Reload
import Cascade.Review
import Cascade.ConfigFile
import Cascade.SignedReview
import Cascade.Persistence
import Cascade.Lib.Saver
import Cascade.Saves
import Cascade.Restart
import Cascade.Insertion
import Cascade.InsertOnce
import Cascade.Scheduling
import Cascade.SignedTree
import Cascade.ServedSerial
import Cascade.Expiry
import Cascade.XfrAccess
import Cascade.XfrAcl
import Cascade.SecondaryZone
import Cascade.ZoneLoader
import Cascade.ZoneDiffs
import Cascade.Lib.Serde
import Cascade.StateCodec
import Cascade.SavedState
import Cascade.Admin
import Cascade.Lib.Dedup
import Cascade.Resigning
import Cascade.Primaries
import Cascade.RefreshAttempt
import Cascade.ZoneReport
import Cascade.InsertFailure
import Cascade.RefreshTimers
import Cascade.ReviewOnce
import Cascade.PolicyEncodings
import Cascade.StateChanges
import Cascade.ZoneHistory
import Cascade.DenialCount
import Cascade.SigningConfig
import Cascade.NameDisplay
import Cascade.ZoneStatePath
import Cascade.KeyManager
import Cascade.Lib.VecDeque
import Cascade.SigningHistory
import Cascade.ZoneDiffKeys
import Cascade.ZoneDiffOrder
import Cascade.SigningLifeCycle
import Cascade.Lib.Traces
import Cascade.Lib.Register
import Cascade.Lib.FileSystem
import Cascade.Lib.Survey
import Cascade.Lib.Tasks
import Cascade.WriteFile
import Cascade.SavedFiles
import Cascade.SigningRun
import Cascade.Settling
import Cascade.Handover
import Cascade.ConfigSources
import Cascade.Logging
import Cascade.ZonesList
import Cascade.NotifyPath
import Cascade.RefreshTask
import Cascade.ReviewApi
import Cascade.ReviewAnswers
