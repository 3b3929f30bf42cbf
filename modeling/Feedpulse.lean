import Feedpulse.Transition
import Feedpulse.Program
import Feedpulse.DeliveryFlags
import Feedpulse.Footprints
import Feedpulse.QueuedAnswer
import Feedpulse.FeedDispatch
import Feedpulse.DeliveryAttempt
import Feedpulse.DeliveryOutcome
import Feedpulse.SharedBot
import Feedpulse.HttpAuth
import Feedpulse.AlertDedupe
import Feedpulse.ClaimSafety
import Feedpulse.FeedJob
import Feedpulse.FetchExclusion
import Feedpulse.Allowance
import Feedpulse.EmailQuota
import Feedpulse.DeliveryReach
import Feedpulse.DeliveryOnce
import Feedpulse.OpmlTimely
import Feedpulse.OpmlPreview
import Feedpulse.FeedCap
import Feedpulse.DeliveryForward
import Feedpulse.DigestHealing
import Feedpulse.DigestComplete
import Feedpulse.RelinkSurvivors
import Feedpulse.RelinkDigests
import Feedpulse.RelinkDelivered
import Feedpulse.MergedArticles
import Feedpulse.CanonicalParity
import Feedpulse.KeywordMemo
import Feedpulse.SafeFetch
import Feedpulse.InternalHosts
import Feedpulse.BackoffLaw
import Feedpulse.RouteGuards
import Feedpulse.KeyVersionUpgrade
import Feedpulse.MigrationProtocol
import Feedpulse.MigrationRuns
import Feedpulse.DnsFailures
import Feedpulse.RuleSetExtension
import Feedpulse.EntryIdentity
import Feedpulse.FeedPatch
import Feedpulse.RuleEdits
import Feedpulse.ListQueries
import Feedpulse.Pagination
import Feedpulse.QuotaRefusal
import Feedpulse.OpmlReadback
import Feedpulse.ContentHashBackfill
import Feedpulse.SearchParity
import Feedpulse.DigestText
import Feedpulse.ApiKeyLifecycle
import Feedpulse.InboundRateLimit
import Feedpulse.DeadLetters
import Feedpulse.RuleBatch
import Feedpulse.DigestProgress
import Feedpulse.SentCounter
import Feedpulse.ClaimJitter
import Feedpulse.FeedUpsert
import Feedpulse.ApplyIsolation
import Feedpulse.ImportProgress
import Feedpulse.TenantPause
import Feedpulse.DeliveryJobs
import Feedpulse.ConditionalFetch
import Feedpulse.TenantIsolation
import Feedpulse.AlertsExact
import Feedpulse.TenantRequests
import Feedpulse.WorkerFailures
import Feedpulse.SettingsRequests
import Feedpulse.DerivedKeys
import Feedpulse.SchedulerRunner
import Feedpulse.ClaimFairness
