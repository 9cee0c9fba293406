import Nip05d.Concurrent.Program
import Nip05d.Concurrent.Pool
import Nip05d.Concurrent.Emits
import Nip05d.Concurrent.Footprint
import Nip05d.Concurrent.Lives
import Nip05d.Sql.Table
import Nip05d.Text.Chars
import Nip05d.Text.Case
import Nip05d.Text.Hex
import Nip05d.Text.Number
import Nip05d.Text.Split
import Nip05d.Text.Escape
import Nip05d.Bech32.Bits
import Nip05d.Bech32.Code
import Nip05d.Json
import Nip05d.Config
import Nip05d.Names
import Nip05d.Crates
import Nip05d.Proof
import Nip05d.Auth
import Nip05d.Db
import Nip05d.Dict
import Nip05d.Retention
import Nip05d.RateLimit
import Nip05d.Node
import Nip05d.World
import Nip05d.Handlers.Http
import Nip05d.Handlers.Registry
import Nip05d.Handlers.Transfer
import Nip05d.Routes
import Nip05d.Views
import Nip05d.Grounds
import Nip05d.Handled
import Nip05d.Effects
import Nip05d.Scripted
import Nip05d.Lodged
import Nip05d.Ownership
import Nip05d.Ledger
import Nip05d.DeathWindow
import Nip05d.Expiry
import Nip05d.Replay
import Nip05d.Swap
import Nip05d.LiveOffers
import Nip05d.Payees
import Nip05d.Churn
import Nip05d.Limiter
import Nip05d.Addresses
import Nip05d.Prices
import Nip05d.Directory
import Nip05d.Availability
import Nip05d.Binding
import Nip05d.Lookalikes
import Nip05d.Messages
import Nip05d.BaseUrl
import Nip05d.Timing
import Nip05d.NodeClient
import Nip05d.Successes
import Nip05d.Retries
import Nip05d.Lives
import Nip05d.Registry
import Nip05d.Custody
import Nip05d.Atomicity
import Nip05d.Persistence
import Nip05d.Startup
import Nip05d.Reports
import Nip05d.Unmounted
import Nip05d.Decisions
import Nip05d.Reads
import Nip05d.Budgets
import Nip05d.Landing
import Nip05d.Duties
