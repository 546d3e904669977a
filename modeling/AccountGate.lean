import AccountGate.Account.Access
import AccountGate.Account.Call
import AccountGate.Account.Claims
import AccountGate.Account.Config
import AccountGate.Account.Credentials
import AccountGate.Account.Error
import AccountGate.Account.LicenseFile
import AccountGate.Account.Loopback
import AccountGate.Account.Opener
import AccountGate.Account.Redirect
import AccountGate.Account.Refresh
import AccountGate.Account.Settings
import AccountGate.Account.SettingsFile
import AccountGate.Account.Shared
import AccountGate.Account.Support
import AccountGate.Account.SupportClaim
import AccountGate.Account.User
import AccountGate.Agent.Args
import AccountGate.Agent.Config
import AccountGate.Agent.Launch
import AccountGate.Agent.Report
import AccountGate.Agent.Run
import AccountGate.Assoc
import AccountGate.Auth.Authorization
import AccountGate.Auth.AuthorizationUrl
import AccountGate.Auth.Call
import AccountGate.Auth.Error
import AccountGate.Auth.Fetch
import AccountGate.Auth.Grant
import AccountGate.Auth.Pkce
import AccountGate.Auth.Registry
import AccountGate.Auth.Renewal
import AccountGate.Auth.Secret
import AccountGate.Auth.Session
import AccountGate.Auth.Store
import AccountGate.Auth.Strategy
import AccountGate.Auth.TokenResponse
import AccountGate.Auth.Vault
import AccountGate.Calendar.Date
import AccountGate.Codec.Base64
import AccountGate.Codec.Hex
import AccountGate.Decimal.Shortest
import AccountGate.Decimal.Signed
import AccountGate.Digest.Sha256
import AccountGate.Disk.Fault
import AccountGate.Disk.Path
import AccountGate.Disk.Tree
import AccountGate.Flow.Basic
import AccountGate.Json.Numeral
import AccountGate.Json.Printer
import AccountGate.Json.Reader
import AccountGate.Json.Record
import AccountGate.Json.Value
import AccountGate.License.Entitlement
import AccountGate.License.KeyCache
import AccountGate.License.Verdict
import AccountGate.Main
import AccountGate.Metrics.Counter
import AccountGate.Proofs.Account.Agreement
import AccountGate.Proofs.Account.Alternatives
import AccountGate.Proofs.Account.Authorized
import AccountGate.Proofs.Account.Availability
import AccountGate.Proofs.Account.Balance
import AccountGate.Proofs.Account.ClaimHistory
import AccountGate.Proofs.Account.Claims
import AccountGate.Proofs.Account.CodeGrant
import AccountGate.Proofs.Account.Confluence
import AccountGate.Proofs.Account.Counting
import AccountGate.Proofs.Account.Course
import AccountGate.Proofs.Account.Credentials
import AccountGate.Proofs.Account.Enlisted
import AccountGate.Proofs.Account.FailedSignIn
import AccountGate.Proofs.Account.Filing
import AccountGate.Proofs.Account.Guard
import AccountGate.Proofs.Account.Keyring
import AccountGate.Proofs.Account.Leaving
import AccountGate.Proofs.Account.Leftovers
import AccountGate.Proofs.Account.Listener
import AccountGate.Proofs.Account.Merge
import AccountGate.Proofs.Account.Moves
import AccountGate.Proofs.Account.Naming
import AccountGate.Proofs.Account.NewTokens
import AccountGate.Proofs.Account.OwnSessions
import AccountGate.Proofs.Account.Parting
import AccountGate.Proofs.Account.Parts
import AccountGate.Proofs.Account.Persisted
import AccountGate.Proofs.Account.Programs
import AccountGate.Proofs.Account.Redirects
import AccountGate.Proofs.Account.Requests
import AccountGate.Proofs.Account.Restart
import AccountGate.Proofs.Account.Roles
import AccountGate.Proofs.Account.Saving
import AccountGate.Proofs.Account.Settled
import AccountGate.Proofs.Account.SignIn
import AccountGate.Proofs.Account.SignOut
import AccountGate.Proofs.Account.Solo
import AccountGate.Proofs.Account.SoundTokens
import AccountGate.Proofs.Account.Stored
import AccountGate.Proofs.Account.Tally
import AccountGate.Proofs.Account.Vouching
import AccountGate.Proofs.Agent.Addresses
import AccountGate.Proofs.Agent.Args
import AccountGate.Proofs.Auth.Asking
import AccountGate.Proofs.Auth.CodeUse
import AccountGate.Proofs.Auth.Counting
import AccountGate.Proofs.Auth.Discretion
import AccountGate.Proofs.Auth.Enrolment
import AccountGate.Proofs.Auth.Exchange
import AccountGate.Proofs.Auth.FirstHeader
import AccountGate.Proofs.Auth.Freshness
import AccountGate.Proofs.Auth.Header
import AccountGate.Proofs.Auth.Interleaving
import AccountGate.Proofs.Auth.Ledger
import AccountGate.Proofs.Auth.Lifetimes
import AccountGate.Proofs.Auth.Progress
import AccountGate.Proofs.Auth.Protocol
import AccountGate.Proofs.Auth.Redacted
import AccountGate.Proofs.Auth.Registry
import AccountGate.Proofs.Auth.Renewal
import AccountGate.Proofs.Auth.Requests
import AccountGate.Proofs.Auth.Shared
import AccountGate.Proofs.Auth.SignInAddress
import AccountGate.Proofs.Auth.Tending
import AccountGate.Proofs.Auth.TokenBodies
import AccountGate.Proofs.Auth.Turn
import AccountGate.Proofs.Calendar.Date
import AccountGate.Proofs.Codec.Base64
import AccountGate.Proofs.Decimal.Signed
import AccountGate.Proofs.Disk.Alike
import AccountGate.Proofs.Disk.BreakingOff
import AccountGate.Proofs.Disk.Children
import AccountGate.Proofs.Disk.Growth
import AccountGate.Proofs.Disk.Named
import AccountGate.Proofs.Disk.Sparing
import AccountGate.Proofs.Flow.Alone
import AccountGate.Proofs.Flow.Calls
import AccountGate.Proofs.Flow.Conduct
import AccountGate.Proofs.Flow.Solo
import AccountGate.Proofs.Flow.World
import AccountGate.Proofs.Json.Extent
import AccountGate.Proofs.Json.Form
import AccountGate.Proofs.Json.Fuel
import AccountGate.Proofs.Json.Inserted
import AccountGate.Proofs.Json.Members
import AccountGate.Proofs.Json.Numbers
import AccountGate.Proofs.Json.Printed
import AccountGate.Proofs.Json.Records
import AccountGate.Proofs.Json.Texts
import AccountGate.Proofs.License.Binding
import AccountGate.Proofs.License.KeyForms
import AccountGate.Proofs.License.Outcome
import AccountGate.Proofs.Rsa.Der
import AccountGate.Proofs.Rsa.Pem
import AccountGate.Proofs.Rsa.PublicKey
import AccountGate.Proofs.Rsa.Verification
import AccountGate.Proofs.Text.Pieces
import AccountGate.Proofs.Text.Trimmed
import AccountGate.Proofs.Text.Utf8
import AccountGate.Proofs.Transport.Client
import AccountGate.Proofs.Transport.Headers
import AccountGate.Proofs.Url.Form
import AccountGate.Proofs.Url.Marks
import AccountGate.Proofs.Url.Parts
import AccountGate.Proofs.Url.Query
import AccountGate.Rehearsal.Machine
import AccountGate.Rehearsal.Offline
import AccountGate.Rehearsal.Play
import AccountGate.Rehearsal.Stage
import AccountGate.Rsa.Der
import AccountGate.Rsa.Pem
import AccountGate.Rsa.PublicKey
import AccountGate.Rsa.Signature
import AccountGate.Text.Ascii
import AccountGate.Text.Blank
import AccountGate.Text.Composed
import AccountGate.Text.Mark
import AccountGate.Text.Printable
import AccountGate.Text.Quoted
import AccountGate.Text.Runs
import AccountGate.Text.Utf8
import AccountGate.Toml.Document
import AccountGate.Toml.Scalar
import AccountGate.Toml.Value
import AccountGate.Transport.Client
import AccountGate.Transport.Delivery
import AccountGate.Transport.Headers
import AccountGate.Transport.Message
import AccountGate.Transport.Policy
import AccountGate.Url.Address
import AccountGate.Url.Basic
import AccountGate.Url.Domain
import AccountGate.Url.Domain.Direction
import AccountGate.Url.Domain.Joiner
import AccountGate.Url.Domain.Mapping
import AccountGate.Url.Error
import AccountGate.Url.Form
import AccountGate.Url.Host
import AccountGate.Url.Percent
import AccountGate.Url.Punycode
