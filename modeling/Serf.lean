import Serf.Library.Machine
import Serf.Library.LastWriter
import Serf.Library.Window
import Serf.Library.Collections
import Serf.Types
import Serf.LamportClock
import Serf.MemberTable
import Serf.TableInvariant
import Serf.Library.Slots
import Serf.EventHandler
import Serf.EventDelivery
import Serf.QueryHandler
import Serf.QueryDedup
import Serf.IntentOrder
import Serf.Core
import Serf.HeldTime
import Serf.ClockDominance
import Serf.MergeIdempotence
import Serf.AntiEntropy
import Serf.Rebroadcast
import Serf.ClockArithmetic
import Serf.MemberLog
import Serf.Sections
import Serf.PushPull
import Serf.Library.Encoding
import Serf.Library.LittleEndian
import Serf.Library.RecordLog
import Serf.SnapshotFile
import Serf.Snapshotter
import Serf.SnapshotReplay
import Serf.SnapshotSession
import Serf.Stores
import Serf.Restart
import Serf.SnapshotTable
import Serf.Library.Spelling
import Serf.Library.Fields
import Serf.Wire.Basic
import Serf.Wire.Gossip
import Serf.Wire.Key
import Serf.Wire.Member
import Serf.Wire.Message
import Serf.EventTimes
import Serf.PushPullDominance
import Serf.JoinIgnore
import Serf.IntentBuffer
import Serf.Refutation
import Serf.Library.Tasks
import Serf.ConcurrentEvents
import Serf.Library.Delivery
import Serf.QueryResponses
import Serf.AnswerDelivery
import Serf.QuerySlots
import Serf.Coalesce
import Serf.Wire.Relay
import Serf.QueryAnswers
import Serf.RelayDestination
import Serf.LifeCycle
import Serf.LocalMember
import Serf.GossipBudget
import Serf.SnapshotPanic
import Serf.Library.FileSwap
import Serf.CompactCrash
import Serf.MemberCoalescer
import Serf.UserCoalescer
import Serf.PushPullFidelity
import Serf.Wire.QueryRef
import Serf.Filtering
import Serf.Wire.BufferContract
import Serf.Wire.Ambiguity
import Serf.AnswerOnce
import Serf.JoinScope
import Serf.RelayPeers
import Serf.Wire.Sizes
import Serf.KeyList
import Serf.KeyHandlers
import Serf.Wire.KeyRef
import Serf.KeyTotals
import Serf.Library.Recent
import Serf.Library.FloatingPoint
import Serf.Coordinates
import Serf.CoordinateRuns
import Serf.CoordinateSamples
import Serf.Wire.Coordinate
import Serf.Ping
import Serf.InternalQueries
import Serf.ConflictVote
import Serf.KeyRotation
import Serf.TagGossip
