import Brokerage.Proofs.Json.Parsed
import Brokerage.Proofs.Record.FreeForm
import Brokerage.Proofs.Record.SearchDocument

namespace Brokerage

/-- The types of the records that are read and written, and of the parts that
    have a form of their own. -/
inductive WireType : Type → Type where
  | document : WireType Document
  | projection : WireType Projection
  | expression : WireType Expression
  | expressionNode : WireType Expression.Node
  | sortDirection : WireType SortDirection
  | tradeCommand : WireType TradeCommand
  | accountNumberKind : WireType AccountNumberKind
  | symbolInfo : WireType SymbolInfo
  | currencyInfo : WireType CurrencyInfo
  | moneyInfo : WireType MoneyInfo
  | settings : WireType Settings
  | requestEnvelope : WireType RequestEnvelope
  | errorPayload : WireType ErrorPayload
  | traderAuthResult : WireType TraderAuthResult
  | traderAuthParams : WireType TraderAuthParams
  | idParams : WireType IdParams
  | quotesParams : WireType QuotesParams
  | newAccount : WireType NewAccount
  | newAccountNumber : WireType NewAccountNumber
  | passwordSetParams : WireType PasswordSetParams
  | passwordCheckParams : WireType PasswordCheckParams
  | moneyInfoParams : WireType MoneyInfoParams
  | balanceParams : WireType BalanceParams
  | orderOpen : WireType OrderOpen

namespace WireType

variable {α : Type}

def read : WireType α → Json → Option α
  | document => Document.ofJson?
  | projection => Projection.ofJson?
  | expression => Expression.ofJson?
  | expressionNode => Expression.Node.ofJson?
  | sortDirection => SortDirection.ofJson?
  | tradeCommand => TradeCommand.ofJson?
  | accountNumberKind => AccountNumberKind.ofJson?
  | symbolInfo => SymbolInfo.ofJson?
  | currencyInfo => CurrencyInfo.ofJson?
  | moneyInfo => MoneyInfo.ofJson?
  | settings => Settings.ofJson?
  | requestEnvelope => RequestEnvelope.ofJson?
  | errorPayload => ErrorPayload.ofJson?
  | traderAuthResult => TraderAuthResult.ofJson?
  | traderAuthParams => TraderAuthParams.ofJson?
  | idParams => IdParams.ofJson?
  | quotesParams => QuotesParams.ofJson?
  | newAccount => NewAccount.ofJson?
  | newAccountNumber => NewAccountNumber.ofJson?
  | passwordSetParams => PasswordSetParams.ofJson?
  | passwordCheckParams => PasswordCheckParams.ofJson?
  | moneyInfoParams => MoneyInfoParams.ofJson?
  | balanceParams => BalanceParams.ofJson?
  | orderOpen => OrderOpen.ofJson?

def write : WireType α → α → Json
  | document => Document.toJson
  | projection => Projection.toJson
  | expression => Expression.toJson
  | expressionNode => Expression.Node.toJson
  | sortDirection => SortDirection.toJson
  | tradeCommand => TradeCommand.toJson
  | accountNumberKind => AccountNumberKind.toJson
  | symbolInfo => SymbolInfo.toJson
  | currencyInfo => CurrencyInfo.toJson
  | moneyInfo => MoneyInfo.toJson
  | settings => Settings.toJson
  | requestEnvelope => RequestEnvelope.toJson
  | errorPayload => ErrorPayload.toJson
  | traderAuthResult => TraderAuthResult.toJson
  | traderAuthParams => TraderAuthParams.toJson
  | idParams => IdParams.toJson
  | quotesParams => QuotesParams.toJson
  | newAccount => NewAccount.toJson
  | newAccountNumber => NewAccountNumber.toJson
  | passwordSetParams => PasswordSetParams.toJson
  | passwordCheckParams => PasswordCheckParams.toJson
  | moneyInfoParams => MoneyInfoParams.toJson
  | balanceParams => BalanceParams.toJson
  | orderOpen => OrderOpen.toJson

/-- The record that a text writes. Settings and replies of the terminal are read
    straight from the text, all else from the value that it writes. -/
def parse? : WireType α → String → Option α
  | settings => Settings.parse?
  | traderAuthResult => TraderAuthResult.parse?
  | t => fun s => (Json.parse? s).bind t.read

/-- A record read from a sorted value is read back from what it is written as.
    For the records of fixed form this holds of every record; those with parts
    of any form need the parts to be sorted and not null, which having been read
    from a sorted value gives. -/
theorem read_sorted_write (t : WireType α) {v : Json} {a : α} (hv : v.IsSorted) (h : t.read v = some a) :
    t.read (t.write a).sorted = some a := by
  cases t with
  | document => exact Document.ofJson?_sorted (Document.isSorted_whereClause hv h)
  | projection => exact Projection.inverts a
  | expression => exact Expression.inverts a
  | expressionNode => exact Expression.Node.inverts a
  | sortDirection => exact SortDirection.inverts a
  | tradeCommand => exact TradeCommand.inverts a
  | accountNumberKind => exact AccountNumberKind.inverts a
  | symbolInfo =>
    obtain ⟨row, hrow, rfl⟩ := Option.map_eq_some_iff.mp h
    have hread := Record.RowForm.read?_sorted_write SymbolInfo.lawful_form (Record.RowForm.outside_others hv hrow)
    exact congrArg (Option.map SymbolInfo.ofRow) hread
  | currencyInfo =>
    obtain ⟨row, hrow, rfl⟩ := Option.map_eq_some_iff.mp h
    have hread := Record.RowForm.read?_sorted_write CurrencyInfo.lawful_form (Record.RowForm.outside_others hv hrow)
    exact congrArg (Option.map CurrencyInfo.ofRow) hread
  | moneyInfo =>
    obtain ⟨hfree, hcredit, hothers⟩ := MoneyInfo.outside_others hv h
    exact MoneyInfo.ofJson?_sorted hfree hcredit hothers
  | settings => exact Settings.inverts a
  | requestEnvelope => exact RequestEnvelope.ofJson?_sorted (RequestEnvelope.freeForm_params hv h)
  | errorPayload =>
    obtain ⟨hdata, herror⟩ := ErrorPayload.freeForm_data_error hv h
    exact ErrorPayload.ofJson?_sorted hdata herror
  | traderAuthResult =>
    obtain ⟨known, hread, h⟩ := Option.bind_eq_some_iff.mp h
    exact TraderAuthResult.ofJson?_sorted (TraderAuthResult.freeForm_error (Record.isSorted_of_read? hv hread) h)
  | traderAuthParams => exact TraderAuthParams.inverts a
  | idParams => exact IdParams.inverts a
  | quotesParams => exact QuotesParams.inverts a
  | newAccount => exact NewAccount.inverts a
  | newAccountNumber => exact NewAccountNumber.inverts a
  | passwordSetParams => exact PasswordSetParams.ofJson?_sorted (PasswordSetParams.isSorted_login hv h)
  | passwordCheckParams => exact PasswordCheckParams.ofJson?_sorted (PasswordCheckParams.isSorted_login hv h)
  | moneyInfoParams => exact MoneyInfoParams.inverts a
  | balanceParams => exact BalanceParams.inverts a
  | orderOpen => exact OrderOpen.inverts a

/-- A record read from text is read back from what it is written as, since all
    values in it are read sorted. -/
theorem read_sorted_write_of_parse? (t : WireType α) {s : String} {a : α} (h : t.parse? s = some a) :
    t.read (t.write a).sorted = some a := by
  cases t with
  | settings => exact Settings.inverts a
  | traderAuthResult =>
    obtain ⟨known, hread, h⟩ := Option.bind_eq_some_iff.mp h
    exact TraderAuthResult.ofJson?_sorted (TraderAuthResult.freeForm_error (Record.isSorted_of_parse? hread) h)
  | _ =>
    obtain ⟨v, hv, h⟩ := Option.bind_eq_some_iff.mp h
    exact read_sorted_write _ (Json.isSorted_of_parse? hv) h

/-- Reading a record and writing it back comes to rest after one round: what is
    written is a sorted value and is read as the same record, for every type of
    records and in whatever form the record was given, as a sorted value or as
    text. Every value that is read from text is sorted. A compiled search is
    recovered from what is sent to the server, which is never null. -/
theorem reread_fixedPoint :
    (∀ {α : Type} (t : WireType α) (v : Json) (a : α), v.IsSorted → t.read v = some a →
      (t.write a).sorted.IsSorted ∧ t.read (t.write a).sorted = some a) ∧
    (∀ {α : Type} (t : WireType α) (s : String) (a : α), t.parse? s = some a →
      t.read (t.write a).sorted = some a) ∧
    (∀ s v, Json.parse? s = some v → v.IsSorted) ∧
    ∀ (b : Builder) (d : Document), Predicate.SortedValues b.entries → b.compile = .ok d →
      Document.ofJson? d.toParams = some d ∧ d.toParams ≠ .null := by
  refine ⟨?_, fun t _ _ => t.read_sorted_write_of_parse?, fun _ _ => Json.isSorted_of_parse?, ?_⟩
  · intro α t v a hv h
    exact ⟨Json.isSorted_sorted _, t.read_sorted_write hv h⟩
  · intro b d hvalues hcompile
    exact ⟨Builder.ofJson?_toParams_of_compile hvalues hcompile, nofun⟩

/-- Settings with an alias, an unknown member, a null and defaults. -/
def aliasedSettings : Json :=
  .object [("brokerId", .ofUInt64 7), ("extra", .bool true), ("host", .string "h"), ("terminalURL", .null)]

/-- A document as a list, with a computed column that has a member too many and
    a null in the place of the grouping. -/
def listedDocument : Json :=
  .array [.string "Orders", .array [.string "Ticket", .object [("As", .string "Net"),
    ("Expr", .array [.string "Profit", .array []]), ("Note", .null)]], .array [], .null]

/-- A search for the orders of one login. -/
def ordersOfLogin : Builder :=
  (Builder.new.inContext "Orders").andWhere "Login" "=" (.ofInt64 5)

theorem reread_fixedPoint_awkward :
    (settings.read aliasedSettings = some { host := "h", brokerId := 7 } ∧
      settings.read (settings.write { host := "h", brokerId := 7 }).sorted = some { host := "h", brokerId := 7 }) ∧
    (∃ d, document.read listedDocument = some d ∧ document.read (document.write d).sorted = some d) ∧
    ∃ d, ordersOfLogin.compile = .ok d ∧ Document.ofJson? d.toParams = some d := by
  have hvalues : Predicate.SortedValues ordersOfLogin.entries := List.forall_mem_singleton.mpr rfl
  exact ⟨⟨rfl, (reread_fixedPoint.1 settings aliasedSettings _ rfl rfl).2⟩,
    ⟨_, rfl, (reread_fixedPoint.1 document listedDocument _ rfl rfl).2⟩,
    ⟨_, rfl, (reread_fixedPoint.2.2.2 ordersOfLogin _ hvalues rfl).1⟩⟩

end WireType

end Brokerage
