import Brokerage.Client.Accounts
import Brokerage.Client.Money
import Brokerage.Client.Orders
import Brokerage.Client.Registry
import Brokerage.Client.Terminal
import Brokerage.Command.Run
import Brokerage.Http.Target
import Brokerage.Main
import Brokerage.Proofs.Client.Coverage
import Brokerage.Proofs.Expression.Canonical
import Brokerage.Proofs.Predicate.WhereList
import Brokerage.Proofs.Builder.Parts
import Brokerage.Proofs.Client.FailFast
import Brokerage.Proofs.Client.Loading
import Brokerage.Proofs.Registry.Clients
import Brokerage.Proofs.Registry.Connecting
import Brokerage.Proofs.Registry.Runs
import Brokerage.Proofs.Http.ServerErrors
import Brokerage.Proofs.Settings.Resolution
import Brokerage.Proofs.Command.SearchDocument
import Brokerage.Proofs.Record.Reread
import Brokerage.Proofs.Builder.Execution
import Brokerage.Proofs.Command.SearchRun
import Brokerage.Proofs.Predicate.Accumulator
import Brokerage.Proofs.Predicate.Grouping
import Brokerage.Proofs.Expression.Offsets
import Brokerage.Proofs.Expression.Groups
import Brokerage.Proofs.Builder.Compilation
import Brokerage.Proofs.Text.Numeral
import Brokerage.Proofs.Text.Trimming
import Brokerage.Proofs.Json.Words
import Brokerage.Proofs.Json.Compact
import Brokerage.Proofs.Command.ClauseText
import Brokerage.Proofs.Command.SymbolRun
import Brokerage.Proofs.Command.ClauseRoundTrip
import Brokerage.Proofs.Binary64.Nearest
import Brokerage.Proofs.Binary64.Shortest
import Brokerage.Proofs.Binary64.Decimal
import Brokerage.Proofs.Binary64.Text
import Brokerage.Proofs.Scaling
import Brokerage.Proofs.Predicate.Irrelevance
import Brokerage.Proofs.Record.KeptMembers
import Brokerage.Proofs.Remote.ErrorPayloads
import Brokerage.Proofs.Command.ClauseSpacing
import Brokerage.Proofs.Condition
import Brokerage.Proofs.Rows
import Brokerage.Proofs.Client.Conversions
import Brokerage.Proofs.Client.Balance
import Brokerage.Proofs.Binary64.Written
import Brokerage.Proofs.Binary64.Power
import Brokerage.Proofs.Scaling.Order
import Brokerage.Proofs.Scaling.Infinity
import Brokerage.Proofs.Text.Base64
import Brokerage.Proofs.Http.Credentials
import Brokerage.Proofs.Json.RecordText
import Brokerage.Proofs.Client.Login
