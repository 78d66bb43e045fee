import Kairo.Actor.Cleanup
import Kairo.Actor.PanicContainment
import Kairo.Actor.WatchPeriods
import Kairo.Actor.WatchDelivery
import Kairo.Actor.StopWaits
import Kairo.Actor.Stash
import Kairo.Actor.Timers
import Kairo.Cluster.SplitBrain
import Kairo.Cluster.DowningProvider
import Kairo.Cluster.GossipAgreement
import Kairo.Cluster.SeedJoin
import Kairo.Cluster.TombstoneHygiene
import Kairo.Cluster.EventReplay
import Kairo.Cluster.HeartbeatUndo
import Kairo.Singleton.AtMostOne
import Kairo.DistributedData.NoResurrection
import Kairo.DistributedData.ORMapLaws
import Kairo.DistributedData.ORMapCoherence
import Kairo.DistributedData.PruningPreserves
import Kairo.DistributedData.ReadPruning
import Kairo.DistributedData.SinglePruner
import Kairo.DistributedData.QuorumIntersection
import Kairo.DistributedData.DeltaRepair
import Kairo.DistributedData.DeltaEqualsState
import Kairo.DistributedData.CounterReplicas
import Kairo.Remote.AcknowledgedAfterDelivery
import Kairo.Remote.SequenceNumbers
import Kairo.Remote.StreamWriter
import Kairo.Sharding.HandoffHistory
import Kairo.Sharding.HandoffResidue
import Kairo.Sharding.HandoffRestart
import Kairo.Sharding.BufferedReplies
import Kairo.Sharding.CoordinatorInvariants
import Kairo.Remote.StreamChunks
import Kairo.Cluster.QuietCommands
import Kairo.Cluster.GossipComm
import Kairo.Remote.ExactlyOnce
import Kairo.Sharding.RememberKeys
import Kairo.Remote.AssociationAddress
