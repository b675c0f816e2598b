import Brokerage.Account.Record
import Brokerage.Client.Basic

namespace Brokerage.Client

variable {τ : Type}

/-- The quotes of symbols. This and the operations below are one call each. -/
def quotes (_ : Client τ) (symbols : List String) : Operation Json :=
  Operation.callWith "SymbolQuotesGet" (QuotesParams.toJson ⟨symbols⟩)

/-- An account. -/
def account (_ : Client τ) (id : Int64) : Operation Json :=
  Operation.callWith "AccountGet" (IdParams.toJson ⟨id⟩)

/-- An account number. -/
def accountNumber (_ : Client τ) (id : Int64) : Operation Json :=
  Operation.callWith "AccountNumberGet" (IdParams.toJson ⟨id⟩)

/-- The account numbers of an account. -/
def accountNumbers (_ : Client τ) (accountId : Int64) : Operation (List Json) :=
  Operation.callAs (Json.asList? some) "AccountNumbersGet" (IdParams.toJson ⟨accountId⟩).sorted

/-- Opens an account. -/
def createAccount (_ : Client τ) (account : NewAccount) : Operation Json :=
  Operation.callWith "AccountCreate" account.toJson

/-- Opens an account number. -/
def createAccountNumber (_ : Client τ) (number : NewAccountNumber) : Operation Json :=
  Operation.callWith "AccountNumberCreate" number.toJson

/-- Sets the trading password of a login. -/
def passwordSet (_ : Client τ) (accountId : Int64) (login password : String) : Operation Json :=
  Operation.callWith "PasswordSet" (PasswordSetParams.toJson ⟨accountId, .string login, password, traderSession⟩)

/-- Checks the trading password of a login. -/
def passwordCheck (_ : Client τ) (login password : String) : Operation Json :=
  Operation.callWith "PasswordCheck" (PasswordCheckParams.toJson ⟨.string login, password, traderSession⟩)

/-- Sets the withdrawal password of an account, whose id is the login. -/
def withdrawPasswordSet (_ : Client τ) (accountId : Int64) (password : String) : Operation Json :=
  Operation.callWith "PasswordSet"
    (PasswordSetParams.toJson ⟨accountId, .ofInt64 accountId, password, withdrawSession⟩)

/-- Checks the withdrawal password of an account. -/
def withdrawPasswordCheck (_ : Client τ) (accountId : Int64) (password : String) : Operation Json :=
  Operation.callWith "PasswordCheck"
    (PasswordCheckParams.toJson ⟨.ofInt64 accountId, password, withdrawSession⟩)

end Brokerage.Client
