import AegisShield.Common.PrefixCode
import AegisShield.Gateway.Authentication
import AegisShield.Gateway.Authority
import AegisShield.Gateway.Channels
import AegisShield.Gateway.Console
import AegisShield.Gateway.Cookies
import AegisShield.Gateway.DateRanges
import AegisShield.Gateway.RateBuckets
import AegisShield.Gateway.RateLimit
import AegisShield.Identity.Counters
import AegisShield.Identity.Lockout
import AegisShield.Identity.Onboarding
import AegisShield.Identity.Passkey
import AegisShield.Identity.Spent
import AegisShield.Identity.StepUp
import AegisShield.Infra.Environment
import AegisShield.Ledger.AgentDirection
import AegisShield.Ledger.CanonicalJson
import AegisShield.Ledger.ExactlyOnce
import AegisShield.Ledger.Isolation
import AegisShield.Ledger.Locking
import AegisShield.Ledger.PostOutcome
import AegisShield.Ledger.Reconciliation
import AegisShield.Ledger.RequestIdentity
import AegisShield.Ledger.RunningBalance
import AegisShield.Ledger.TransactionPages
import AegisShield.Ledger.TransferReplay
import AegisShield.Payments.AgentLimit
import AegisShield.Payments.Availability
import AegisShield.Payments.Binding
import AegisShield.Payments.Command
import AegisShield.Payments.DailyLimit
import AegisShield.Payments.IssueCounts
import AegisShield.Payments.Lifecycle
import AegisShield.Payments.MoneyText
import AegisShield.Payments.OneToOne
import AegisShield.Payments.QrAmount
import AegisShield.Payments.QrAtomicity
import AegisShield.Payments.QrSigning
import AegisShield.Payments.RecipientLookup
import AegisShield.Payments.Recovery
import AegisShield.Payments.Settlement
import AegisShield.Payments.TransferPages
import AegisShield.Payments.UssdAmount
import AegisShield.Payments.UssdIsolation
import AegisShield.Payments.UssdPayment
import AegisShield.Resilience.Backup
import AegisShield.Resilience.BackupCrypto
import AegisShield.Resilience.BackupSet
import AegisShield.Resilience.Evidence
import AegisShield.Resilience.History
import AegisShield.Resilience.HistoryPages
import AegisShield.Resilience.Reconciliation
import AegisShield.Resilience.Redaction
import AegisShield.Resilience.RestoreVerify
import AegisShield.Resilience.Selection
import AegisShield.Risk.Apply
import AegisShield.Risk.Assessment
import AegisShield.Risk.Events
import AegisShield.Risk.Gates
import AegisShield.Risk.Incidents
import AegisShield.Risk.Monotone
import AegisShield.Risk.OperatorSessions
import AegisShield.Risk.Outgoing
import AegisShield.Risk.Reconciliation
import AegisShield.Sabcl.Authenticity
import AegisShield.Sabcl.Confinement
import AegisShield.Sabcl.Domains
import AegisShield.Sabcl.Padding
import AegisShield.Sabcl.Refusal
import AegisShield.Sabcl.Replay
import AegisShield.Sabcl.Rotation
import AegisShield.Sabcl.Routing
