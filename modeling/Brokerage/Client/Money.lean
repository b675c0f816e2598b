import Brokerage.Account.Money
import Brokerage.Client.Accounts

namespace Brokerage.Client

variable {τ : Type}

/-- The name under which the money of an account number is sent: its decimal
    text. -/
def moneyName (accountNumber : Int64) : String :=
  toString accountNumber.toInt

/-- The money of account numbers by name, ascending, in a currency or in each
    one's own. -/
def moneyInfo (_ : Client τ) (accountNumbers : List Int64) (currency : Option String) :
    Operation (List (String × MoneyInfo)) :=
  Operation.callAs MoneyInfo.tableOfJson? "MoneyInfo" (MoneyInfoParams.toJson ⟨accountNumbers, currency⟩).sorted

/-- The money of an account number among the money sent. -/
def moneyOf (money : List (String × MoneyInfo)) (accountNumber : Int64) : Except ClientError MoneyInfo :=
  found (.unexpectedReply (.noMoney accountNumber)) (money.lookup (moneyName accountNumber))

/-- The money of one account number. -/
def moneyInfoOne (c : Client τ) (accountNumber : Int64) : Operation MoneyInfo := do
  let money ← c.moneyInfo [accountNumber] none
  Dialogue.ofExcept (moneyOf money accountNumber)

/-- The id of a real account number, if the value describes one. -/
def realNumber? (v : Json) : Option Int64 :=
  if (v.get? "Type").bind Json.asInt64? = some AccountNumberKind.real.code then (v.get? "Id").bind Json.asInt64?
  else none

/-- The withdrawable money of account numbers, summed from the left on. -/
def sumWithdrawable (money : List (String × MoneyInfo)) (accountNumbers : List Int64) :
    Except ClientError Binary64 :=
  accountNumbers.foldlM (fun sum id => do return sum.add (← moneyOf money id).withdrawable) .zero

/-- The withdrawable money of all real account numbers of an account, in a
    currency. -/
def accountBalance (c : Client τ) (accountId : Int64) (currency : String) : Operation Binary64 := do
  let numbers ← c.accountNumbers accountId
  let ids := numbers.filterMap realNumber?
  let money ← c.moneyInfo ids (some currency)
  Dialogue.ofExcept (sumWithdrawable money ids)

/-- A money operation, and the ticket it created, if it did. -/
def ticketOperation (method : String) (accountNumberId amount : Int64) (comment : String) :
    Operation (Option Int64) := do
  let answer ← Operation.callWith method (BalanceParams.toJson ⟨accountNumberId, amount, comment⟩)
  return ticket? answer

/-- Adds to the balance. -/
def balanceAdd (_ : Client τ) (accountNumberId amount : Int64) (comment : String) : Operation (Option Int64) :=
  ticketOperation "BalanceAdd" accountNumberId amount comment

/-- Adds to the bonus. -/
def bonusAdd (_ : Client τ) (accountNumberId amount : Int64) (comment : String) : Operation (Option Int64) :=
  ticketOperation "BonusAdd" accountNumberId amount comment

/-- Adds to the credit. -/
def creditAdd (_ : Client τ) (accountNumberId amount : Int64) (comment : String) : Operation (Option Int64) :=
  ticketOperation "CreditAdd" accountNumberId amount comment

/-- The comment of a deposit or a withdrawal: its kind, the payment system, the
    amount and the purse. -/
def fundsComment (c : Client τ) (kind : String) (currency : LookupKey) (amount : Int64) (paySystem purse : String) :
    Except ClientError String := do
  let display ← c.depositFromInt currency amount
  return Text.trimmed (kind ++ " " ++ paySystem ++ " " ++ display.plainText ++ " " ++ purse)

/-- Credits a deposit, the amount in the currency's integer units. -/
def fundsDeposit (c : Client τ) (currency : LookupKey) (accountNumberId amount : Int64) (paySystem purse : String) :
    Operation (Option Int64) := do
  let comment ← Dialogue.ofExcept (c.fundsComment "DP" currency amount paySystem purse)
  c.balanceAdd accountNumberId amount comment

/-- Debits a withdrawal after checking that the account can cover it. The debit
    is not sent before the money of the account has been asked for. -/
def fundsWithdraw (c : Client τ) (currency : LookupKey) (accountNumberId amount : Int64) (paySystem purse : String) :
    Operation (Option Int64) := do
  let comment ← Dialogue.ofExcept (c.fundsComment "WD" currency amount paySystem purse)
  let money ← c.moneyInfoOne accountNumberId
  if money.withdrawable.lt (Binary64.ofInt amount.toInt) then
    Dialogue.fail (.notEnoughMoney money.withdrawable amount)
  else c.balanceAdd accountNumberId (-amount) comment

end Brokerage.Client
