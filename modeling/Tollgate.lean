import Tollgate.Decimal.Dyadic
import Tollgate.Decimal.Fixed
import Tollgate.Decimal.Reading
import Tollgate.Decimal.Shortest
import Tollgate.Difficulty.Controller
import Tollgate.Difficulty.Level
import Tollgate.Difficulty.Load
import Tollgate.Difficulty.Profile
import Tollgate.Difficulty.Series
import Tollgate.Digest.Hmac
import Tollgate.Digest.Sha256
import Tollgate.Failure
import Tollgate.Http.Form
import Tollgate.Http.MediaType
import Tollgate.Http.Message
import Tollgate.Json.Reader
import Tollgate.Json.Value
import Tollgate.Main
import Tollgate.Net.Address
import Tollgate.Net.Caller
import Tollgate.Net.Network
import Tollgate.Octets
import Tollgate.Owner
import Tollgate.Proofs.Checks
import Tollgate.Proofs.Difficulty.Hysteresis
import Tollgate.Proofs.Difficulty.Published
import Tollgate.Proofs.Difficulty.Series
import Tollgate.Proofs.Difficulty.Span
import Tollgate.Proofs.Net.Hops
import Tollgate.Proofs.Octets
import Tollgate.Proofs.Puzzle.Expiry
import Tollgate.Proofs.Puzzle.Grammar
import Tollgate.Proofs.Puzzle.Solved
import Tollgate.Proofs.Puzzle.Spelling
import Tollgate.Proofs.Puzzle.Submitted
import Tollgate.Proofs.Rate.Bound
import Tollgate.Proofs.Rate.Credit
import Tollgate.Proofs.Rate.Decisions
import Tollgate.Proofs.Rate.Isolation
import Tollgate.Proofs.Rate.LeastRecent
import Tollgate.Proofs.Rate.Occupancy
import Tollgate.Proofs.Rate.Runs
import Tollgate.Proofs.Rate.Seats
import Tollgate.Proofs.Rate.Shards
import Tollgate.Proofs.Rate.Waiting
import Tollgate.Proofs.Recency
import Tollgate.Proofs.Server.Accounting
import Tollgate.Proofs.Server.Admission
import Tollgate.Proofs.Server.Binding
import Tollgate.Proofs.Server.Denial
import Tollgate.Proofs.Server.HandOut
import Tollgate.Proofs.Server.Limiting
import Tollgate.Proofs.Server.Posted
import Tollgate.Proofs.Server.Runs
import Tollgate.Proofs.Server.Sites
import Tollgate.Proofs.Solver.Parallel
import Tollgate.Proofs.Store
import Tollgate.Proofs.Text.Base64
import Tollgate.Proofs.Text.Digits
import Tollgate.Proofs.Text.Plain
import Tollgate.Proofs.Text.Split
import Tollgate.Proofs.Verify.Calls
import Tollgate.Proofs.Verify.Completeness
import Tollgate.Proofs.Verify.Counting
import Tollgate.Proofs.Verify.Ledger
import Tollgate.Proofs.Verify.ReplayBudget
import Tollgate.Proofs.Verify.Retention
import Tollgate.Proofs.Verify.Ruling
import Tollgate.Proofs.Verify.Uses
import Tollgate.Proofs.Verify.Verdicts
import Tollgate.Puzzle.Basic
import Tollgate.Puzzle.Issue
import Tollgate.Puzzle.Key
import Tollgate.Puzzle.Submission
import Tollgate.Puzzle.Token
import Tollgate.Puzzle.Work
import Tollgate.Rate.Bucket
import Tollgate.Rate.Interval
import Tollgate.Rate.Limiter
import Tollgate.Recency
import Tollgate.Schema
import Tollgate.Server.Administration
import Tollgate.Server.ApiFault
import Tollgate.Server.Basic
import Tollgate.Server.Challenge
import Tollgate.Server.Routes
import Tollgate.Server.Status
import Tollgate.Settings.Basic
import Tollgate.Settings.Consistency
import Tollgate.Sites
import Tollgate.Solver.Options
import Tollgate.Solver.Program
import Tollgate.Solver.Quantity
import Tollgate.Solver.Search
import Tollgate.Store
import Tollgate.Text.Base64
import Tollgate.Text.Blank
import Tollgate.Text.Digits
import Tollgate.Text.Hex
import Tollgate.Text.Split
import Tollgate.Text.Utf8
import Tollgate.Time.Calendar
import Tollgate.Time.Duration
import Tollgate.Time.Moment
import Tollgate.Time.Ticker
import Tollgate.Toml.Date
import Tollgate.Toml.Document
import Tollgate.Toml.Number
import Tollgate.Toml.Path
import Tollgate.Toml.Reader
import Tollgate.Toml.Value
import Tollgate.Verify.Outcome
import Tollgate.Verify.Replay
import Tollgate.Verify.SharedReplay
import Tollgate.Verify.Verifier
import Tollgate.Proofs.Rate.Rescaling
import Tollgate.Proofs.Rate.Polling
import Tollgate.Proofs.Rate.Layout
import Tollgate.Proofs.Rate.Adoption
import Tollgate.Proofs.Rate.Updates
import Tollgate.Proofs.Net.Canonical
import Tollgate.Proofs.Net.Attribution
import Tollgate.Proofs.Rate.Burst
import Tollgate.Proofs.Rate.Purging
import Tollgate.Proofs.Settings.Consistency
import Tollgate.Proofs.Verify.ClockEnd
import Tollgate.Proofs.Puzzle.Body
import Tollgate.Proofs.Puzzle.Issuing
import Tollgate.Proofs.Verify.Sweeping
import Tollgate.Proofs.Json.Literal
import Tollgate.Proofs.Text.Hex
import Tollgate.Proofs.Owner
import Tollgate.Proofs.Puzzle.Key
import Tollgate.Proofs.Rate.Tiers
import Tollgate.Proofs.Server.Administration
import Tollgate.Proofs.Server.Tiers
import Tollgate.Proofs.Words
import Tollgate.Proofs.Rate.Words
import Tollgate.Proofs.Puzzle.Target
import Tollgate.Proofs.Solver.Least
