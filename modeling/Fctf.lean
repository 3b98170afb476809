import Fctf.Lib.Run
import Fctf.Lib.Traverse
import Fctf.Lib.Word
import Fctf.Lib.Expiring
import Fctf.Lib.Lease
import Fctf.Lib.FixedWindow
import Fctf.Lib.Memoize
import Fctf.Lib.Unlocking
import Fctf.Lib.SortedSet
import Fctf.Lib.Slots
import Fctf.Lib.Double
import Fctf.Lib.Erasure
import Fctf.Lib.Query
import Fctf.Lib.Ranking
import Fctf.Lib.Base64
import Fctf.Lib.Json
import Fctf.Lib.Dict
import Fctf.Lib.Table
import Fctf.Lib.Transaction
import Fctf.Text
import Fctf.JsonText
import Fctf.Deploy.Data
import Fctf.Deploy.Scripts
import Fctf.Deploy.SlotLimit
import Fctf.Deploy.Session
import Fctf.Deploy.World
import Fctf.Deploy.Effects
import Fctf.Deploy.Gateway
import Fctf.Deploy.Revival
import Fctf.Deploy.Release
import Fctf.Deploy.Submission
import Fctf.Deploy.Worker
import Fctf.Deploy.WorkflowLimit
import Fctf.Deploy.Readiness
import Fctf.Deploy.Tracking
import Fctf.Deploy.Reconcile
import Fctf.Scoring.Database
import Fctf.Scoring.Dynamic
import Fctf.Scoring.Decay
import Fctf.Scoring.TopStandings
import Fctf.Scoring.Writers
import Fctf.Scoring.Consistency
import Fctf.Scoring.Pairing
import Fctf.Scoring.SolveCounts
import Fctf.Scoring.Solves
import Fctf.Scoring.Attempts
import Fctf.Scoring.AttemptRows
import Fctf.Scoring.Atomicity
import Fctf.Scoring.AttemptLimit
import Fctf.Scoring.AttemptCounter
import Fctf.Scoring.ScoreHelper
import Fctf.Scoring.Scoreboard
import Fctf.Scoring.Place
import Fctf.Scoring.Freeze
import Fctf.Kypo.Api
import Fctf.Kypo.Lock
import Fctf.Kypo.Completion
import Fctf.Kypo.Session
import Fctf.Kypo.Retry
import Fctf.Kypo.Matching
import Fctf.Kypo.Agreement
import Fctf.Contest.Data
import Fctf.Contest.Hint
import Fctf.Contest.HintUnlock
import Fctf.Contest.Catalog
import Fctf.Contest.Endpoints
import Fctf.Contest.Hidden
import Fctf.Contest.Secrecy
import Fctf.Contest.Gate
import Fctf.Contest.Unrequired
import Fctf.Contest.Topics
import Fctf.Contest.Progress
import Fctf.Access.CachedSession
import Fctf.Access.Captaincy
import Fctf.Access.Cooldown
import Fctf.Access.LoginBudget
import Fctf.Access.LoginLimit
import Fctf.Access.Tokens
import Fctf.Gateway.Connections
import Fctf.Gateway.Token
import Fctf.Migration.RoundTrip
import Fctf.Access.AuthorRespect
import Fctf.Access.Prerequisites
import Fctf.Deploy.AppName
import Fctf.Gateway.Route
import Fctf.Deploy.Lifetime
import Fctf.Deploy.Cleanup
import Fctf.Deploy.Callbacks
import Fctf.Deploy.Versions
import Fctf.Deploy.VersionIntegrity
import Fctf.Deploy.Paired
import Fctf.Deploy.SecretKey
import Fctf.Gateway.RateLimit
import Fctf.Gateway.ProtocolMux
import Fctf.Gateway.ProxyCopy
import Fctf.Access.SignedValue
import Fctf.Access.InviteCode
import Fctf.Access.CascadeHide
import Fctf.Access.UserDeletion
import Fctf.Migration.Upsert
import Fctf.Kypo.Caches
import Fctf.Scoring.Flags
import Fctf.Scoring.Awards
import Fctf.Scoring.AttemptReplies
import Fctf.Rewards.MultiCriteria
import Fctf.Rewards.Parameters
import Fctf.Rewards.Scope
import Fctf.Rewards.Aggregates
import Fctf.Rewards.Evaluate
import Fctf.Rewards.Conjunction
import Fctf.Kypo.Password
import Fctf.Contest.Window
import Fctf.Gateway.TcpSession
import Fctf.Deploy.Upload
import Fctf.Contest.StoredFiles
import Fctf.Gateway.HttpSession
import Fctf.Contest.Download
import Fctf.Contest.RedisLock
import Fctf.Contest.Settings
import Fctf.Contest.ConfigCache
import Fctf.Contest.Ticket
import Fctf.Contest.TicketDesk
import Fctf.Access.Registration
