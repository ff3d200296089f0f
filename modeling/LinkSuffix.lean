import LinkSuffix.Queue.Newest
import LinkSuffix.Queue.Attempts
import LinkSuffix.Queue.Spacing
import LinkSuffix.Queue.Pause
import LinkSuffix.Control.Leadership
import LinkSuffix.Proxy.Acquire
import LinkSuffix.Shards.Authenticate
import LinkSuffix.Shards.Retire
import LinkSuffix.Proxy.Exclusion
import LinkSuffix.Control.Admission
import LinkSuffix.Proxy.Reports
import LinkSuffix.Worker.FallbackCache
import LinkSuffix.Worker.Process
import LinkSuffix.Proxy.Consistency
import LinkSuffix.Control.CrashSafe
import LinkSuffix.Store.Accepted
import LinkSuffix.Worker.JourneyEvidence
import LinkSuffix.Web.LockExclusion
import LinkSuffix.Web.LockOnce
import LinkSuffix.Web.StateRoundTrip
import LinkSuffix.Proxy.VerifiedRoute
import LinkSuffix.Web.AdsConfigure
import LinkSuffix.Web.AdsPush
import LinkSuffix.Health.HostAlerts
import LinkSuffix.Health.BlindEvaluation
import LinkSuffix.Worker.BrowserPool
import LinkSuffix.Worker.BrowserPermit
import LinkSuffix.Worker.RedirectConfinement
import LinkSuffix.Worker.BrowserCapture
import LinkSuffix.Health.Recovery
import LinkSuffix.Orchestrator.Deadline
import LinkSuffix.Worker.Intervention
import LinkSuffix.Proxy.EgressCoherence
import LinkSuffix.Shards.Schedule
import LinkSuffix.Control.PoolTables
import LinkSuffix.Queue.AckBatch
import LinkSuffix.Control.CaptureHistory
import LinkSuffix.Queue.FleetBatch
import LinkSuffix.Queue.LeaseBatch
import LinkSuffix.Worker.InertMarkup
import LinkSuffix.Web.AddressVerdicts
import LinkSuffix.Web.FleetReconcile
import LinkSuffix.Web.IssueJobs
import LinkSuffix.Orchestrator.Burst
import LinkSuffix.Web.CapacityPlanner
import LinkSuffix.Control.StateWriter
import LinkSuffix.Ads.UpdateSuffix
import LinkSuffix.Proxy.SessionCapacity
import LinkSuffix.Control.ScheduleWindow
import LinkSuffix.Legacy.Repeat
import LinkSuffix.Orchestrator.ProxySessions
import LinkSuffix.Proxy.EndpointKeys
import LinkSuffix.Proxy.SocksAddress
import LinkSuffix.Web.RateLimit
import LinkSuffix.Shards.Relay
