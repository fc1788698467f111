import MailCue.Lib.Codec
import MailCue.Tunnel.Proto.Frame
import MailCue.Tunnel.Proto.PostcardFrame
import MailCue.Lib.Transition
import MailCue.Tunnel.Proto.Channel
import MailCue.Tunnel.Proto.Chunking
import MailCue.Tunnel.Proto.RoundTrip
import MailCue.Tunnel.Proto.Reassembly
import MailCue.Tunnel.Edge.Relay
import MailCue.Tunnel.Edge.Connection
import MailCue.Tunnel.Edge.Lifecycle
import MailCue.Tunnel.Edge.Chunked
import MailCue.Tunnel.Sidecar.Relay
import MailCue.Tunnel.Sidecar.Delivery
import MailCue.Tunnel.Sidecar.SmtpServer
import MailCue.Tunnel.Sidecar.DataSeparation
import MailCue.Backend.Emails.Canary
import MailCue.Backend.Emails.CanaryRuns
import MailCue.Backend.Emails.CanaryOnce
import MailCue.Backend.Emails.CanaryCancel
import MailCue.Backend.Warmup.Campaign
import MailCue.Backend.Warmup.Blocked
import MailCue.Lib.Text
import MailCue.Backend.Emails.ImapMove
import MailCue.Backend.Emails.Dsn
import MailCue.Backend.Emails.BounceScanner
import MailCue.Backend.Emails.BounceOnce
import MailCue.Backend.Emails.BounceFeedback
import MailCue.Backend.Emails.TenantIsolation
import MailCue.Backend.Emails.Syntax
import MailCue.Backend.Emails.CanarySuppression
import MailCue.Backend.Emails.MxProviders
import MailCue.Backend.Emails.SmtpReply
import MailCue.Backend.Emails.RcptParity
import MailCue.Tunnel.Sidecar.Probe
import MailCue.Backend.Emails.MailboxProbe
import MailCue.Backend.Emails.EdgeProbe
import MailCue.Backend.Emails.ProbeParity
import MailCue.Tunnel.Sidecar.Pool
import MailCue.Tunnel.Sidecar.PoolSteps
import MailCue.Tunnel.Sidecar.PoolAccounting
import MailCue.Tunnel.Sidecar.PoolFreshness
import MailCue.Tunnel.Sidecar.PoolHealth
import MailCue.Backend.Warmup.Pacing
import MailCue.Backend.Mailboxes.Service
import MailCue.Backend.Mailboxes.Ownership
import MailCue.Lib.Lines
import MailCue.Lib.SharedCell
import MailCue.Backend.Mailboxes.UsersFile
import MailCue.Tunnel.Edge.ReceiveErrors
import MailCue.Lib.Percent
import MailCue.Backend.Mailboxes.Access
import MailCue.Backend.Mailboxes.AccountStore
import MailCue.Lib.Imap
import MailCue.Backend.Emails.ImapConfinement
import MailCue.Backend.Gpg.Service
import MailCue.Backend.Gpg.Messages
import MailCue.Lib.Keyring
import MailCue.Backend.Gpg.SharedKeyring
import MailCue.Backend.Gpg.Rebinding
import MailCue.Backend.Gpg.Decryption
import MailCue.Backend.Gpg.KeyringAgreement
import MailCue.Lib.Retry
import MailCue.Sdk.Transport
import MailCue.Lib.Base64
import MailCue.Lib.Json
import MailCue.Tunnel.Sidecar.TunnelsFile
import MailCue.Backend.Tunnels.HandOver
import MailCue.Backend.Tunnels.Service
import MailCue.Lib.Table
import MailCue.Backend.Auth.Scopes
import MailCue.Backend.Auth.Models
import MailCue.Backend.Auth.ApiKeys
import MailCue.Backend.Auth.KeyDelegation
import MailCue.Backend.Auth.Router
import MailCue.Backend.Auth.RestrictedKeys
import MailCue.Backend.Auth.Sessions
import MailCue.Backend.Auth.SessionVersions
import MailCue.Backend.Auth.SecondFactor
import MailCue.Backend.Sandbox.Models
import MailCue.Lib.Unwinding
import MailCue.Backend.Sandbox.Service
import MailCue.Backend.Sandbox.Isolation
import MailCue.Backend.Emails.AuthenticationResults
import MailCue.Backend.Emails.ForgedHeaders
import MailCue.Backend.Warmup.DeliveryFeedback
import MailCue.Backend.Warmup.FeedbackOnce
import MailCue.Lib.MailData
import MailCue.Lib.Talk
import MailCue.Tunnel.Edge.SmtpClient
import MailCue.Tunnel.Edge.BodyTransparency
import MailCue.Lib.Utf8
import MailCue.Tunnel.Sidecar.ReadData
import MailCue.Tunnel.Sidecar.EightBitMime
import MailCue.Tunnel.Edge.SmtpDialogue
import MailCue.Tunnel.Sidecar.Discipline
import MailCue.Tunnel.Edge.Alignment
import MailCue.Tunnel.Edge.Failover
import MailCue.Backend.Addressing
import MailCue.Backend.Aliases.Service
import MailCue.Backend.Aliases.Convergence
import MailCue.Backend.Deliverability.Scheduler
import MailCue.Backend.Warmup.OneSlot
import MailCue.Backend.Warmup.Ticks
import MailCue.Backend.Warmup.Wedge
import MailCue.Tunnel.Edge.ProbeConsistency
import MailCue.Tunnel.Edge.EmbeddedCodes
import MailCue.Backend.Emails.StatusParity
import MailCue.Backend.Emails.ProbeFields
import MailCue.Tunnel.Sidecar.PoolOpen
import MailCue.Tunnel.Sidecar.Selector
import MailCue.Lib.DomainName
import MailCue.Tunnel.Edge.Dns
import MailCue.Backend.Emails.DnsValidation
import MailCue.Tunnel.Edge.CommandLines
import MailCue.Tunnel.Edge.ReplyParsing
import MailCue.Tunnel.Edge.ReplyExact
import MailCue.Backend.Emails.Budget
import MailCue.Backend.Emails.CanaryDecision
import MailCue.Backend.Emails.CanaryRetry
import MailCue.Backend.Emails.RiskModel
import MailCue.Backend.Emails.Attachments
import MailCue.Backend.Emails.FetchPage
import MailCue.Backend.Emails.SyntaxSoundness
import MailCue.Backend.Emails.Threading
import MailCue.Tunnel.Proto.Authorized
import MailCue.Backend.Deliverability.Comparison
import MailCue.Backend.Deliverability.ComparisonLaws
import MailCue.Backend.Domains.Spf
import MailCue.Backend.Domains.SpfMatching
import MailCue.Backend.Emails.EncryptedSend
import MailCue.Backend.Emails.SearchCriteria
import MailCue.Backend.Events.Bus
import MailCue.Backend.Events.Delivery
import MailCue.Backend.Mailboxes.Compensation
import MailCue.Backend.Mailboxes.UsersMap
import MailCue.Backend.Sandbox.VoiceInterpreter
import MailCue.Backend.Sandbox.VoiceWorker
import MailCue.Backend.Warmup.DailyCap
import MailCue.Backend.Emails.ContentInspector
import MailCue.Backend.Emails.InspectorCounts
import MailCue.Backend.Forwarding.Incoming
import MailCue.Backend.Forwarding.RuleTypes
import MailCue.Backend.Forwarding.Webhooks
import MailCue.Backend.Sandbox.Credentials
import MailCue.Backend.Sandbox.Paging
import MailCue.Backend.Domains.SpfSyntax
import MailCue.Backend.Domains.Verification
import MailCue.Backend.Sandbox.TwilioSignature
import MailCue.Backend.Deliverability.LookupCount
import MailCue.Backend.Deliverability.LinkConditions
import MailCue.Backend.Sandbox.WebhookWorker
import MailCue.Backend.Sandbox.ProviderSeeding
import MailCue.Backend.Sandbox.SeedingRuns
import MailCue.Backend.Sandbox.NumberPool
import MailCue.Backend.System.TlsDeployment
import MailCue.Backend.Emails.DomainSignals
import MailCue.Backend.Emails.BatchValidation
import MailCue.Sdk.CaseConversion
import MailCue.Backend.Tunnels.SidecarMetrics
import MailCue.Backend.Emails.PlainText
import MailCue.Sdk.LiveEvents
import MailCue.Tunnel.EndToEnd
import MailCue.Backend.DbMigrate
