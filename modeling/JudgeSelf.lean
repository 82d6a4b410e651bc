import JudgeSelf.Machine.Run
import JudgeSelf.Machine.Inbox
import JudgeSelf.Soundness.ExactlyOnce
import JudgeSelf.Machine.Publish
import JudgeSelf.Model.Leaderboard.Board
import JudgeSelf.Model.Leaderboard.Handlers
import JudgeSelf.Soundness.CompositeScore
import JudgeSelf.Soundness.DeliveryOrder
import JudgeSelf.Soundness.FrozenBoard
import JudgeSelf.Soundness.LostUpdate
import JudgeSelf.Soundness.Recalculation
import JudgeSelf.Machine.Broker
import JudgeSelf.Model.Engine.Formatter
import JudgeSelf.Model.Engine.Logged
import JudgeSelf.Model.Engine.Pool
import JudgeSelf.Soundness.Judging
import JudgeSelf.Soundness.JudgingLoop
import JudgeSelf.Soundness.SubmissionQueue
import JudgeSelf.Soundness.Submitting
import JudgeSelf.Soundness.VerdictVocabulary
import JudgeSelf.Soundness.FreezeCoverage
import JudgeSelf.Soundness.FreezeScores
import JudgeSelf.Soundness.CheckerLock
import JudgeSelf.Soundness.StoreLock
import JudgeSelf.Soundness.CacheCoherence
import JudgeSelf.Soundness.SingleDownload
import JudgeSelf.Soundness.CacheInUse
import JudgeSelf.Soundness.Tampering
import JudgeSelf.Soundness.Limits
import JudgeSelf.Soundness.PackageLayout
import JudgeSelf.Soundness.EngineSteps
import JudgeSelf.Soundness.LiveStatus
import JudgeSelf.Soundness.ActiveStatus
import JudgeSelf.Soundness.IcpcScoring
import JudgeSelf.Soundness.LiveIndependence
import JudgeSelf.Soundness.PracticeTraffic
import JudgeSelf.Soundness.Registration
import JudgeSelf.Soundness.Sessions
import JudgeSelf.Soundness.Shutdown
import JudgeSelf.Soundness.Messages
import JudgeSelf.Soundness.Uploads
import JudgeSelf.Soundness.ProblemIndex
import JudgeSelf.Soundness.ScoreChanges
import JudgeSelf.Soundness.FreezeAtomicity
import JudgeSelf.Soundness.UserRows
import JudgeSelf.Soundness.Rebuild
import JudgeSelf.Soundness.FailedRecalculation
import JudgeSelf.Soundness.LiveReads
import JudgeSelf.Soundness.SweepFailures
import JudgeSelf.Soundness.WorkerLoop
import JudgeSelf.Soundness.StoredVerdicts
import JudgeSelf.Soundness.CleanedCache
import JudgeSelf.Soundness.RowLifetime
import JudgeSelf.Soundness.Unpacking
import JudgeSelf.Soundness.TestNames
import JudgeSelf.Soundness.IsolateArguments
import JudgeSelf.Soundness.LivePages
import JudgeSelf.Soundness.StatusPages
import JudgeSelf.Soundness.HiddenWork
import JudgeSelf.Soundness.Prefetch
import JudgeSelf.Soundness.Draining
import JudgeSelf.Soundness.Credentials
import JudgeSelf.Model.Submission.Auth
import JudgeSelf.Soundness.SignedIn
import JudgeSelf.Soundness.CountedResults
import JudgeSelf.Json.Tree
import JudgeSelf.Json.Printed
import JudgeSelf.Json.Printers
import JudgeSelf.Json.Tables
import JudgeSelf.Model.Leaderboard.Script
import JudgeSelf.Soundness.StoredTexts
import JudgeSelf.Icpc.Scoreboard
import JudgeSelf.Soundness.Scoreboard
import JudgeSelf.Machine.Program
import JudgeSelf.Model.Engine.Calls
import JudgeSelf.Soundness.Isolation
import JudgeSelf.Soundness.Stopping
