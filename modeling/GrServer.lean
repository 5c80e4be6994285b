import GrServer.GuardedRun
import GrServer.SortedMap
import GrServer.Json
import GrServer.SessionTicket
import GrServer.TicketLifetime
import GrServer.LexicalPath
import GrServer.StaticFiles
import GrServer.StaticContainment
import GrServer.AnalyzeJobs
import GrServer.BatchStore
import GrServer.BatchMaterial
import GrServer.SealLedger
import GrServer.IpAddress
import GrServer.WeightedChoice
import GrServer.LoadBalancer
import GrServer.WebhookOutbox
import GrServer.WebhookDurability
import GrServer.Idempotency
import GrServer.IdempotencyRuns
import GrServer.EvidenceMerge
import GrServer.MainAuthority
import GrServer.RankedChoice
import GrServer.SourceConflicts
import GrServer.SourceAuth
import GrServer.SourceAgreement
import GrServer.CycleReconcile
import GrServer.HotProbeCache
import GrServer.InternalAddress
import GrServer.Delimited
import GrServer.SealEnvelope
import GrServer.SealSignature
import GrServer.SealRoundTrip
import GrServer.PlanEpoch
import GrServer.PlanEpochRuns
import GrServer.ResultAuth
import GrServer.EdgeFingerprint
import GrServer.FingerprintOrigin
import GrServer.CycleOpen
import GrServer.CycleWrites
import GrServer.CycleRuns
import GrServer.CoolDown
import GrServer.LiveCycle
import GrServer.AlgoGroups
import GrServer.AnalyzeMask
import GrServer.ClusterHub
import GrServer.ClusterRuns
import GrServer.MintGate
import GrServer.ProbeStatus
import GrServer.ReleaseSignature
import GrServer.ServerMint
import GrServer.SideJoin
import GrServer.OtaHistoryRuns
import GrServer.Disk
import GrServer.OtaEngine
import GrServer.OtaHistory
import GrServer.RoundRobin
import GrServer.HotCap
import GrServer.WebhookAcks
import GrServer.SkipProbe
import GrServer.ResidualPaths
import GrServer.EnvelopeForgery
import GrServer.WithheldIdentity
import GrServer.SharedRuns
import GrServer.HelloCapture
import GrServer.SpotcheckSums
import GrServer.EdgeDepth
import GrServer.ClientIp
import GrServer.IpPolicy
import GrServer.StorageBind
import GrServer.RealmAgreement
import GrServer.AnalyzeArming
import GrServer.StoredAnalysis
import GrServer.HashedAssets
import GrServer.SubjectHonesty
import GrServer.FuzzyEcc
import GrServer.SourceOrder
import GrServer.MintAgreement
import GrServer.LinkBans
import GrServer.WebhookBounds
import GrServer.SiliconFingerprint
import GrServer.DeviceIndexRuns
import GrServer.QuicDatagrams
import GrServer.HnswEviction
import GrServer.HnswShared
import GrServer.Ja4Laws
import GrServer.VersionGate
import GrServer.ModuleActivation
import GrServer.ReleaseUrl
import GrServer.DataTree
import GrServer.StunMessage
import GrServer.ProxyStore
import GrServer.SynFraming
import GrServer.BundleRuns
import GrServer.MonthKey
import GrServer.GateHistory
import GrServer.SiliconPacks
import GrServer.PublishedCfg
import GrServer.LshClusters
import GrServer.SharedL2Law
import GrServer.H2Fingerprint
import GrServer.RateLimitRuns
import GrServer.AdminLoginRuns
import GrServer.SiteCopies
import GrServer.ModuleLifetimes
