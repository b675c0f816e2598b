import Brokerage.Client.Accounts
import Brokerage.Client.Money
import Brokerage.Client.Orders
import Brokerage.Proofs.Remote.Sequence

namespace Brokerage.Client

/-- An operation that goes through the channel, with its arguments. -/
inductive RemoteOperation (τ : Type) : Type → Type where
  | init : RemoteOperation τ (Client τ)
  | call (method : String) (params : Json) : RemoteOperation τ Json
  | quotes (symbols : List String) : RemoteOperation τ Json
  | account (id : Int64) : RemoteOperation τ Json
  | accountNumber (id : Int64) : RemoteOperation τ Json
  | accountNumbers (accountId : Int64) : RemoteOperation τ (List Json)
  | accountBalance (accountId : Int64) (currency : String) : RemoteOperation τ Binary64
  | createAccount (details : NewAccount) : RemoteOperation τ Json
  | createAccountNumber (details : NewAccountNumber) : RemoteOperation τ Json
  | passwordSet (accountId : Int64) (login password : String) : RemoteOperation τ Json
  | passwordCheck (login password : String) : RemoteOperation τ Json
  | withdrawPasswordSet (accountId : Int64) (password : String) : RemoteOperation τ Json
  | withdrawPasswordCheck (accountId : Int64) (password : String) : RemoteOperation τ Json
  | moneyInfo (numbers : List Int64) (currency : Option String) : RemoteOperation τ (List (String × MoneyInfo))
  | moneyInfoOne (number : Int64) : RemoteOperation τ MoneyInfo
  | balanceAdd (number amount : Int64) (comment : String) : RemoteOperation τ (Option Int64)
  | bonusAdd (number amount : Int64) (comment : String) : RemoteOperation τ (Option Int64)
  | creditAdd (number amount : Int64) (comment : String) : RemoteOperation τ (Option Int64)
  | fundsDeposit (currency : LookupKey) (number amount : Int64) (paySystem purse : String) :
    RemoteOperation τ (Option Int64)
  | fundsWithdraw (currency : LookupKey) (number amount : Int64) (paySystem purse : String) :
    RemoteOperation τ (Option Int64)
  | orderOpen (order : OrderOpen) : RemoteOperation τ Json
  | orderModify (ticket : Int64) (changes : List (String × Json)) : RemoteOperation τ Json
  | orderClose (ticket : Int64) (changes : List (String × Json)) : RemoteOperation τ Json
  | orderDelete (ticket : Int64) : RemoteOperation τ Json
  | executeBuilder (search : Builder) : RemoteOperation τ ResultSet
  | executeDocument (search : Document) : RemoteOperation τ ResultSet

namespace RemoteOperation

variable {τ α : Type}

def dialogue (c : Client τ) : RemoteOperation τ α → Operation α
  | init => c.init
  | call method params => Dialogue.call method params
  | quotes symbols => c.quotes symbols
  | account id => c.account id
  | accountNumber id => c.accountNumber id
  | accountNumbers accountId => c.accountNumbers accountId
  | accountBalance accountId currency => c.accountBalance accountId currency
  | createAccount details => c.createAccount details
  | createAccountNumber details => c.createAccountNumber details
  | passwordSet accountId login password => c.passwordSet accountId login password
  | passwordCheck login password => c.passwordCheck login password
  | withdrawPasswordSet accountId password => c.withdrawPasswordSet accountId password
  | withdrawPasswordCheck accountId password => c.withdrawPasswordCheck accountId password
  | moneyInfo numbers currency => c.moneyInfo numbers currency
  | moneyInfoOne number => c.moneyInfoOne number
  | balanceAdd number amount comment => c.balanceAdd number amount comment
  | bonusAdd number amount comment => c.bonusAdd number amount comment
  | creditAdd number amount comment => c.creditAdd number amount comment
  | fundsDeposit currency number amount paySystem purse => c.fundsDeposit currency number amount paySystem purse
  | fundsWithdraw currency number amount paySystem purse => c.fundsWithdraw currency number amount paySystem purse
  | orderOpen order => c.orderOpen order
  | orderModify ticket changes => c.orderModify ticket changes
  | orderClose ticket changes => c.orderClose ticket changes
  | orderDelete ticket => c.orderDelete ticket
  | executeBuilder search => search.execute ClientError.search
  | executeDocument search => search.execute

/-- The methods that the operation calls when it goes well, in order. Tables
    that are loaded are not loaded again. -/
def methods (c : Client τ) : RemoteOperation τ α → List String
  | init => if c.loaded then [] else ["SymbolsGet", "CurrenciesGet"]
  | call method _ => [method]
  | quotes _ => ["SymbolQuotesGet"]
  | account _ => ["AccountGet"]
  | accountNumber _ => ["AccountNumberGet"]
  | accountNumbers _ => ["AccountNumbersGet"]
  | accountBalance .. => ["AccountNumbersGet", "MoneyInfo"]
  | createAccount _ => ["AccountCreate"]
  | createAccountNumber _ => ["AccountNumberCreate"]
  | passwordSet .. | withdrawPasswordSet .. => ["PasswordSet"]
  | passwordCheck .. | withdrawPasswordCheck .. => ["PasswordCheck"]
  | moneyInfo .. | moneyInfoOne _ => ["MoneyInfo"]
  | balanceAdd .. | fundsDeposit .. => ["BalanceAdd"]
  | bonusAdd .. => ["BonusAdd"]
  | creditAdd .. => ["CreditAdd"]
  | fundsWithdraw .. => ["MoneyInfo", "BalanceAdd"]
  | orderOpen _ => ["AdminOpenOrder"]
  | orderModify .. => ["AdminModifyOrder"]
  | orderClose .. => ["AdminCloseOrder"]
  | orderDelete _ => ["AdminDeleteOrder"]
  | executeBuilder _ | executeDocument _ => ["Search"]

end RemoteOperation

open Dialogue

variable {τ α : Type}

/-- A call for a record follows its one method, and a reply that does not write
    such a record is no call that failed. -/
theorem follows_callAs (read : Json → Option α) (method : String) (params : Json) :
    Follows [method] (Operation.callAs read method params) := by
  refine (Follows.call method params).bind fun v => ?_
  rw [Operation.decoded]
  cases read v with
  | some a => exact .result a
  | none => exact .fail [] ClientError.undecodable

private theorem follows_callWith (method : String) (params : Json) : Follows [method] (Operation.callWith method params) :=
  Follows.call method params.sorted

section

variable (c : Client τ)

private theorem follows_init : Follows (RemoteOperation.methods c .init) c.init := by
  rw [RemoteOperation.methods, init]
  by_cases hloaded : c.loaded
  · rw [if_pos hloaded, if_pos hloaded]
    exact .result c
  · rw [if_neg hloaded, if_neg hloaded]
    refine (follows_callAs _ "SymbolsGet" _).bind fun symbols => ?_
    refine (follows_callAs _ "CurrenciesGet" _).bind fun currencies => ?_
    exact .result _

private theorem follows_accountNumbers (accountId : Int64) : Follows ["AccountNumbersGet"] (c.accountNumbers accountId) :=
  follows_callAs _ _ _

private theorem follows_moneyInfo (numbers : List Int64) (currency : Option String) :
    Follows ["MoneyInfo"] (c.moneyInfo numbers currency) :=
  follows_callAs _ _ _

private theorem follows_moneyInfoOne (number : Int64) : Follows ["MoneyInfo"] (c.moneyInfoOne number) :=
  (follows_moneyInfo c [number] none).bind fun _ => .ofExcept _

private theorem follows_accountBalance (accountId : Int64) (currency : String) :
    Follows ["AccountNumbersGet", "MoneyInfo"] (c.accountBalance accountId currency) := by
  refine (follows_accountNumbers c accountId).bind fun numbers => ?_
  refine (follows_moneyInfo c _ _).bind fun money => ?_
  exact .ofExcept _

private theorem follows_ticketOperation (method : String) (number amount : Int64) (comment : String) :
    Follows [method] (ticketOperation method number amount comment) :=
  (follows_callWith _ _).bind fun _ => .result _

private theorem follows_fundsDeposit (currency : LookupKey) (number amount : Int64) (paySystem purse : String) :
    Follows ["BalanceAdd"] (c.fundsDeposit currency number amount paySystem purse) :=
  (Follows.ofExcept _).bind fun _ => follows_ticketOperation _ _ _ _

private theorem follows_fundsWithdraw (currency : LookupKey) (number amount : Int64) (paySystem purse : String) :
    Follows ["MoneyInfo", "BalanceAdd"] (c.fundsWithdraw currency number amount paySystem purse) := by
  refine (Follows.ofExcept _).bind fun comment => ?_
  refine (follows_moneyInfoOne c number).bind fun money => ?_
  split
  · exact .fail _ _
  · exact follows_ticketOperation _ _ _ _

private theorem follows_executeDocument (d : Document) : Follows ["Search"] (d.execute : Operation ResultSet) :=
  (Follows.call _ _).bind fun _ => .result _

private theorem follows_executeBuilder (b : Builder) : Follows ["Search"] (b.execute ClientError.search) := by
  rw [Builder.execute]
  cases b.compile with
  | ok d => exact follows_executeDocument d
  | error e => exact .fail _ _

/-- Every operation follows its methods. Each is put together from single calls,
    and what stops one of them stops the whole. -/
theorem follows_dialogue (op : RemoteOperation τ α) : Follows (op.methods c) (op.dialogue c) := by
  cases op with
  | init => exact follows_init c
  | accountNumbers => exact follows_accountNumbers c _
  | accountBalance => exact follows_accountBalance c _ _
  | moneyInfo => exact follows_moneyInfo c _ _
  | moneyInfoOne => exact follows_moneyInfoOne c _
  | balanceAdd | bonusAdd | creditAdd => exact follows_ticketOperation _ _ _ _
  | fundsDeposit => exact follows_fundsDeposit c _ _ _ _ _
  | fundsWithdraw => exact follows_fundsWithdraw c _ _ _ _ _
  | executeBuilder => exact follows_executeBuilder _
  | executeDocument => exact follows_executeDocument _
  | _ => exact Follows.call _ _

/-- No operation calls a method twice. -/
theorem RemoteOperation.nodup_methods (op : RemoteOperation τ α) : (op.methods c).Nodup := by
  cases op with
  | init => cases h : c.loaded <;> simp [methods, h]
  | _ => simp [methods]

end

/-- Whatever an operation is asked for and whatever the server answers, the
    operation calls its methods in order and no further than it has to: a call
    that fails is the last one, with its error as the outcome, and no call is
    made twice. An operation that succeeds has made all of its calls. Failures
    that are not of a call, such as an unknown currency, may end it earlier. -/
theorem remoteOperation_failsFast (c : Client τ) (op : RemoteOperation τ α) (answers : Answers ClientError)
    (made : List Call) :
    ∃ outcome sent, (op.dialogue c).run answers made = (outcome, made ++ sent) ∧
      StopsAtFailure answers made sent outcome ∧ sent.Nodup ∧ sent.map Call.method <+: op.methods c ∧
      ((∃ a, outcome = .ok a) → sent.map Call.method = op.methods c) := by
  obtain ⟨outcome, sent, hrun, hstops, hsent, hall⟩ := (follows_dialogue c op).run answers made
  have hmethods : (sent.map Call.method).Nodup := hsent.sublist.nodup (op.nodup_methods c)
  have hnodup : sent.Nodup :=
    List.Pairwise.of_map Call.method (fun _ _ hne heq => hne (congrArg Call.method heq)) hmethods
  exact ⟨outcome, sent, hrun, hstops, hnodup, hsent, hall⟩

end Brokerage.Client
