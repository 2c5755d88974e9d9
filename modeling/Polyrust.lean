import Polyrust.Lib.HashMap
import Polyrust.Lib.Arith
import Polyrust.Lib.Run
import Polyrust.Lib.Refine
import Polyrust.Lib.Float
import Polyrust.Lib.Digits
import Polyrust.Lib.Rounding
import Polyrust.Lib.Refusal
import Polyrust.Lib.Mean
import Polyrust.Lib.Ranked
import Polyrust.Lib.Tail
import Polyrust.Lib.FirstPast
import Polyrust.Lib.Median
import Polyrust.Lib.DepthFirst
import Polyrust.Lib.Calendar
import Polyrust.Lib.Bytes
import Polyrust.Lib.TypedData
import Polyrust.Lib.Ecdsa
import Polyrust.Lib.Hex
import Polyrust.Lib.Base64
import Polyrust.Lib.Utf8
import Polyrust.Types
import Polyrust.Text
import Polyrust.Lib.Lines
import Polyrust.Logline
import Polyrust.Decimal
import Polyrust.Decimal.Exact
import Polyrust.Decimal.Total
import Polyrust.Decimal.Cents
import Polyrust.Decimal.Written
import Polyrust.Json
import Polyrust.Inventory
import Polyrust.Submit
import Polyrust.Submit.Classify
import Polyrust.Inventory.Machine
import Polyrust.Inventory.Lifecycle
import Polyrust.Inventory.Pending
import Polyrust.Inventory.Matching
import Polyrust.Inventory.Entry
import Polyrust.User
import Polyrust.State.Coherent
import Polyrust.State.Depth
import Polyrust.State.Cutoff
import Polyrust.State.History
import Polyrust.Market
import Polyrust.Market.Prices
import Polyrust.Market.Best
import Polyrust.User.Aliases
import Polyrust.Signal
import Polyrust.Signal.Agreement
import Polyrust.Signal.Window
import Polyrust.Signal.Reflect
import Polyrust.Anchor
import Polyrust.Anchor.Buffer
import Polyrust.Binance
import Polyrust.Binance.Timestamps
import Polyrust.Binance.Sbe
import Polyrust.Gamma
import Polyrust.Gamma.Time
import Polyrust.Gamma.Discover
import Polyrust.Gamma.Listed
import Polyrust.Config
import Polyrust.Config.Malformed
import Polyrust.Config.Valid
import Polyrust.Config.EnvFile
import Polyrust.Config.Given
import Polyrust.Config.Launch
import Polyrust.Orders
import Polyrust.Orders.Lattice
import Polyrust.Orders.Overshoot
import Polyrust.Orders.Returns
import Polyrust.Signing
import Polyrust.Signing.Order
import Polyrust.Auth
import Polyrust.Auth.Agreement
import Polyrust.Auth.Headers
import Polyrust.Submit.Http
import Polyrust.Signing.Preimage
import Polyrust.Signing.Venue
import Polyrust.Auth.Derive
import Polyrust.Runtime
import Polyrust.Runtime.Rounds
import Polyrust.Runtime.Machine
import Polyrust.Runtime.Exits
import Polyrust.Runtime.Batch
import Polyrust.Runtime.Packed
import Polyrust.Runtime.Latency
import Polyrust.Runtime.RoundTrip
import Polyrust.Runtime.Settings
import Polyrust.Runtime.Drift
import Polyrust.Runtime.Ledger
import Polyrust.Runtime.Sell
import Polyrust.Runtime.Decisions
import Polyrust.Runtime.Peak
import Polyrust.Runtime.Slippage
import Polyrust.Runtime.Frame
import Polyrust.Runtime.Prepare
import Polyrust.Runtime.Claims
import Polyrust.Tasks
import Polyrust.Tasks.Strike
import Polyrust.Tasks.Scope
import Polyrust.Tasks.Deadline
import Polyrust.Tasks.Rotation
import Polyrust.Tasks.MarketFeed
import Polyrust.Program
import Polyrust.Program.Refines
import Polyrust.Program.Posted
import Polyrust.Program.Terms
import Polyrust.Program.Requests
import Polyrust.Program.Launch
