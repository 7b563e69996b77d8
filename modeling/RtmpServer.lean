import RtmpServer.Cluster.CrashInstall
import RtmpServer.Cluster.SnapshotBuild
import RtmpServer.Cluster.NodeRelease
import RtmpServer.Cluster.Recovery
import RtmpServer.Cluster.SinglePublisher
import RtmpServer.Cluster.PlayConvergence
import RtmpServer.Db.StatsFlush
import RtmpServer.Http.DeleteIdentity
import RtmpServer.Bridge.OwnershipEpochs
import RtmpServer.Bridge.GroupCommit
import RtmpServer.Bridge.GroupRuns
import RtmpServer.Media.Eviction
import RtmpServer.Media.Reconnect
import RtmpServer.Media.WireCanonical
import RtmpServer.Cluster.Coordinators
import RtmpServer.Poll.RelayRoutes
import RtmpServer.Media.Timeline
import RtmpServer.Cluster.TrackerEpochs
import RtmpServer.Poll.ExportedRoutes
import RtmpServer.Media.FrameEviction
import RtmpServer.Media.InitResend
import RtmpServer.Poll.ConnCap
import RtmpServer.Cluster.StreamSlots
import RtmpServer.Cluster.Health
import RtmpServer.Http.BearerToken
import RtmpServer.Cluster.InflightBudget
