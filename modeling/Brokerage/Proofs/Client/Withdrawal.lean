import Brokerage.Client.Money
import Brokerage.Proofs.Account.Money
import Brokerage.Proofs.Remote.Run

namespace Brokerage

/-- Every integer of 64 bits but the smallest has its negative among them. The
    smallest is its own negative in 64 bits. -/
theorem toInt_neg_of_ne_minValue {n : Int64} (h : n ≠ Int64.minValue) : (-n).toInt = -n.toInt := by
  have hlower := Int64.le_toInt n
  have hupper := Int64.toInt_lt n
  have hne : n.toInt ≠ Int64.minValue.toInt := fun heq => h (Int64.toInt_inj.mp heq)
  rw [Int64.toInt_minValue] at hne
  rw [Int64.toInt_neg]
  exact Int.bmod_eq_of_le (by omega) (by omega)

namespace Client

variable {τ : Type}

/-- The question for the money of one account number, in its own currency. -/
def moneyQuestion (account : Int64) : Call :=
  ⟨"MoneyInfo", .object [("AccountNumbers", .array [.ofInt64 account])]⟩

def balanceCall (account amount : Int64) (comment : String) : Call :=
  ⟨"BalanceAdd", .object [("AccountNumberId", .ofInt64 account), ("Amount", .ofInt64 amount),
    ("Comment", .string comment)]⟩

def withdrawalComment (info : CurrencyInfo) (amount : Int64) (paySystem purse : String) : String :=
  Text.trimmed ("WD " ++ paySystem ++ " " ++ (Scaling.toFloat amount info.depositFractionalDigits).plainText ++ " " ++
    purse)

/-- A reply to the money question holds this money for an account number. -/
def ShowsMoney (reply : Except ClientError Json) (account : Int64) (money : MoneyInfo) : Prop :=
  ∃ v table, reply = .ok v ∧ MoneyInfo.tableOfJson? v = some table ∧ table.lookup (moneyName account) = some money

/-- What the reply to the money question comes to. -/
def moneyAnswer (account : Int64) (reply : Except ClientError Json) : Except ClientError MoneyInfo :=
  Operation.decodedAnswer MoneyInfo.tableOfJson? reply >>= fun table => moneyOf table account

/-- The answer to the money question is money exactly if the reply shows it for
    the account number. -/
theorem moneyAnswer_eq_ok_iff {account : Int64} {reply : Except ClientError Json} {money : MoneyInfo} :
    moneyAnswer account reply = .ok money ↔ ShowsMoney reply account money := by
  rw [moneyAnswer, bind_eq_ok_iff]
  constructor
  · rintro ⟨table, htable, hmoney⟩
    obtain ⟨v, rfl, hv⟩ := Operation.decodedAnswer_eq_ok_iff.mp htable
    exact ⟨v, table, rfl, hv, found_eq_ok_iff.mp hmoney⟩
  · rintro ⟨v, table, rfl, hv, hmoney⟩
    exact ⟨table, Operation.decodedAnswer_eq_ok_iff.mpr ⟨v, rfl, hv⟩, found_eq_ok_iff.mpr hmoney⟩

/-- A reply shows at most one money for an account number. -/
theorem ShowsMoney.unique {reply : Except ClientError Json} {account : Int64} {money other : MoneyInfo}
    (h : ShowsMoney reply account money) (hother : ShowsMoney reply account other) : money = other := by
  obtain ⟨v, table, rfl, htable, hmoney⟩ := h
  obtain ⟨v, table, hv, htable', hother⟩ := hother
  cases hv
  cases htable.symm.trans htable'
  exact Option.some.inj (hmoney.symm.trans hother)

/-- The money covers an amount, as far as a comparison of the two as numbers
    shows. -/
def Covers (money : MoneyInfo) (amount : Int64) : Prop :=
  money.withdrawable.lt (.ofInt amount.toInt) = false

/-- The ways in which a withdrawal can go after the calls `made`, with the
    outcome and the calls of each. -/
inductive WithdrawalRun (c : Client τ) (currency : LookupKey) (account amount : Int64) (paySystem purse : String)
    (answers : Answers ClientError) (made : List Call) : Except ClientError (Option Int64) → List Call → Prop where
  | unknownCurrency (hcurrency : c.tables.currency? currency = none) :
    WithdrawalRun c currency account amount paySystem purse answers made (.error (.currencyNotFound currency)) []
  | unanswered {info : CurrencyInfo} {e : ClientError} (hcurrency : c.tables.currency? currency = some info)
      (hreply : answers (made ++ [moneyQuestion account]) = .error e) :
    WithdrawalRun c currency account amount paySystem purse answers made (.error e) [moneyQuestion account]
  | undecodable {info : CurrencyInfo} {v : Json} (hcurrency : c.tables.currency? currency = some info)
      (hreply : answers (made ++ [moneyQuestion account]) = .ok v) (htable : MoneyInfo.tableOfJson? v = none) :
    WithdrawalRun c currency account amount paySystem purse answers made (.error .undecodable) [moneyQuestion account]
  | noMoney {info : CurrencyInfo} {v : Json} {table : List (String × MoneyInfo)}
      (hcurrency : c.tables.currency? currency = some info)
      (hreply : answers (made ++ [moneyQuestion account]) = .ok v) (htable : MoneyInfo.tableOfJson? v = some table)
      (hmoney : table.lookup (moneyName account) = none) :
    WithdrawalRun c currency account amount paySystem purse answers made
      (.error (.unexpectedReply (.noMoney account))) [moneyQuestion account]
  | notEnough {info : CurrencyInfo} {money : MoneyInfo} (hcurrency : c.tables.currency? currency = some info)
      (hmoney : ShowsMoney (answers (made ++ [moneyQuestion account])) account money)
      (hcovers : ¬ Covers money amount) :
    WithdrawalRun c currency account amount paySystem purse answers made
      (.error (.notEnoughMoney money.withdrawable amount)) [moneyQuestion account]
  | debited {info : CurrencyInfo} {money : MoneyInfo} {debit : Call}
      (hcurrency : c.tables.currency? currency = some info)
      (hmoney : ShowsMoney (answers (made ++ [moneyQuestion account])) account money) (hcovers : Covers money amount)
      (hdebit : debit = balanceCall account (-amount) (withdrawalComment info amount paySystem purse)) :
    WithdrawalRun c currency account amount paySystem purse answers made
      ((answers (made ++ [moneyQuestion account, debit])).map ticket?) [moneyQuestion account, debit]

section

variable (c : Client τ) (currency : LookupKey) (account amount : Int64) (paySystem purse : String)
  (answers : Answers ClientError) (made : List Call)

private theorem run_moneyInfo_single :
    (c.moneyInfo [account] none).run answers made =
      (Operation.decodedAnswer MoneyInfo.tableOfJson? (answers (made ++ [moneyQuestion account])),
        made ++ [moneyQuestion account]) :=
  Operation.run_callAs _ _ _ _ _

private theorem run_balanceAdd (comment : String) :
    (c.balanceAdd account amount comment).run answers made =
      ((answers (made ++ [balanceCall account amount comment])).map ticket?,
        made ++ [balanceCall account amount comment]) := by
  rw [balanceAdd, ticketOperation, Operation.callWith, Dialogue.run_bind, Dialogue.run_call]
  have hcall : (⟨"BalanceAdd", (BalanceParams.toJson ⟨account, amount, comment⟩).sorted⟩ : Call) =
      balanceCall account amount comment := rfl
  rw [hcall]
  cases answers (made ++ [balanceCall account amount comment]) <;> rfl

private theorem run_moneyInfoOne :
    (c.moneyInfoOne account).run answers made =
      (moneyAnswer account (answers (made ++ [moneyQuestion account])), made ++ [moneyQuestion account]) := by
  rw [moneyInfoOne, Dialogue.run_bind, run_moneyInfo_single, moneyAnswer]
  cases Operation.decodedAnswer MoneyInfo.tableOfJson? (answers (made ++ [moneyQuestion account])) <;> rfl

private theorem fundsComment_eq :
    c.fundsComment "WD" currency amount paySystem purse =
      (found (.currencyNotFound currency) (c.tables.currency? currency)).map
        fun info => withdrawalComment info amount paySystem purse := by
  simp only [fundsComment, depositFromInt, Tables.depositFromInt?]
  cases c.tables.currency? currency <;> rfl

/-- A withdrawal step by step: the currency is looked up before anything is
    sent, then the money is asked for, and the debit is sent only if the money
    covers the amount. -/
theorem run_fundsWithdraw :
    (c.fundsWithdraw currency account amount paySystem purse).run answers made =
      match c.tables.currency? currency with
      | none => (.error (.currencyNotFound currency), made)
      | some info =>
        match moneyAnswer account (answers (made ++ [moneyQuestion account])) with
        | .error e => (.error e, made ++ [moneyQuestion account])
        | .ok money =>
          if money.withdrawable.lt (.ofInt amount.toInt) then
            (.error (.notEnoughMoney money.withdrawable amount), made ++ [moneyQuestion account])
          else (c.balanceAdd account (-amount) (withdrawalComment info amount paySystem purse)).run answers
            (made ++ [moneyQuestion account]) := by
  rw [fundsWithdraw, Dialogue.run_bind, Dialogue.run_ofExcept, fundsComment_eq]
  cases c.tables.currency? currency with
  | none => rfl
  | some info =>
    simp only [found, Except.map]
    rw [Dialogue.run_bind, run_moneyInfoOne]
    cases moneyAnswer account (answers (made ++ [moneyQuestion account])) with
    | error e => rfl
    | ok money => exact apply_ite (Dialogue.run answers (made ++ [moneyQuestion account])) _ _ _

/-- Every withdrawal can go in one of the ways listed. -/
theorem exists_withdrawalRun :
    ∃ outcome sent, WithdrawalRun c currency account amount paySystem purse answers made outcome sent := by
  cases hcurrency : c.tables.currency? currency with
  | none => exact ⟨_, _, .unknownCurrency hcurrency⟩
  | some info =>
    cases hreply : answers (made ++ [moneyQuestion account]) with
    | error e => exact ⟨_, _, .unanswered hcurrency hreply⟩
    | ok v =>
      cases htable : MoneyInfo.tableOfJson? v with
      | none => exact ⟨_, _, .undecodable hcurrency hreply htable⟩
      | some table =>
        cases hmoney : table.lookup (moneyName account) with
        | none => exact ⟨_, _, .noMoney hcurrency hreply htable hmoney⟩
        | some money =>
          have hshows : ShowsMoney (answers (made ++ [moneyQuestion account])) account money :=
            ⟨v, table, hreply, htable, hmoney⟩
          by_cases hcovers : Covers money amount
          · exact ⟨_, _, .debited hcurrency hshows hcovers rfl⟩
          · exact ⟨_, _, .notEnough hcurrency hshows hcovers⟩

end

variable {c : Client τ} {currency : LookupKey} {account amount : Int64} {paySystem purse : String}
  {answers : Answers ClientError} {made : List Call} {outcome : Except ClientError (Option Int64)} {sent : List Call}

/-- Each way is how the withdrawal runs. The calls made before stay in front,
    and the answers may depend on them. -/
theorem WithdrawalRun.run_eq (h : WithdrawalRun c currency account amount paySystem purse answers made outcome sent) :
    (c.fundsWithdraw currency account amount paySystem purse).run answers made = (outcome, made ++ sent) := by
  rw [run_fundsWithdraw]
  cases h with
  | unknownCurrency hcurrency => simp [hcurrency]
  | unanswered hcurrency hreply => simp only [hcurrency, hreply]; rfl
  | undecodable hcurrency hreply htable =>
    simp [hcurrency, hreply, moneyAnswer, Operation.decodedAnswer, htable, bind, Except.bind]
  | noMoney hcurrency hreply htable hmoney =>
    simp [hcurrency, hreply, moneyAnswer, Operation.decodedAnswer, htable, bind, Except.bind, moneyOf, hmoney, found]
  | notEnough hcurrency hmoney hcovers =>
    rw [Covers, Bool.not_eq_false] at hcovers
    simp [hcurrency, moneyAnswer_eq_ok_iff.mpr hmoney, hcovers]
  | debited hcurrency hmoney hcovers hdebit =>
    rw [Covers] at hcovers
    simp [hcurrency, moneyAnswer_eq_ok_iff.mpr hmoney, hcovers, run_balanceAdd, hdebit]

/-- The run goes in exactly one way. -/
theorem withdrawalRun_iff :
    WithdrawalRun c currency account amount paySystem purse answers made outcome sent ↔
      (c.fundsWithdraw currency account amount paySystem purse).run answers made = (outcome, made ++ sent) :=
  Dialogue.way_iff_run_eq (exists_withdrawalRun c currency account amount paySystem purse answers made)
    fun _ _ => WithdrawalRun.run_eq

theorem not_debit_mem_question : ¬ ∃ call ∈ [moneyQuestion account], call.method = "BalanceAdd" := by
  simp [moneyQuestion]

/-- A debit is sent exactly if the currency is known and the money shown covers
    the amount. -/
theorem WithdrawalRun.debit_mem_iff
    (h : WithdrawalRun c currency account amount paySystem purse answers made outcome sent) :
    (∃ call ∈ sent, call.method = "BalanceAdd") ↔ (c.tables.currency? currency).isSome ∧
      ∃ money, ShowsMoney (answers (made ++ [moneyQuestion account])) account money ∧ Covers money amount := by
  cases h with
  | unknownCurrency hcurrency => simp [hcurrency]
  | unanswered hcurrency hreply =>
    refine iff_of_false not_debit_mem_question ?_
    rintro ⟨-, money, ⟨v, table, hv, -⟩, -⟩
    cases hreply.symm.trans hv
  | undecodable hcurrency hreply htable =>
    refine iff_of_false not_debit_mem_question ?_
    rintro ⟨-, money, ⟨v, table, hv, htable', -⟩, -⟩
    cases hreply.symm.trans hv
    cases htable.symm.trans htable'
  | noMoney hcurrency hreply htable hmoney =>
    refine iff_of_false not_debit_mem_question ?_
    rintro ⟨-, money, ⟨v, table, hv, htable', hmoney'⟩, -⟩
    cases hreply.symm.trans hv
    cases htable.symm.trans htable'
    cases hmoney.symm.trans hmoney'
  | notEnough hcurrency hmoney hcovers =>
    refine iff_of_false not_debit_mem_question ?_
    rintro ⟨-, other, hother, hcovers'⟩
    exact hcovers (hmoney.unique hother ▸ hcovers')
  | debited hcurrency hmoney hcovers hdebit =>
    refine iff_of_true ⟨_, List.mem_cons_of_mem _ List.mem_cons_self, ?_⟩ ⟨by simp [hcurrency], _, hmoney, hcovers⟩
    rw [hdebit, balanceCall]

/-- Nothing is sent but the question and, after it, one debit of exactly the
    amount. -/
theorem WithdrawalRun.isPrefix (h : WithdrawalRun c currency account amount paySystem purse answers made outcome sent) :
    ∃ comment, sent <+: [moneyQuestion account, balanceCall account (-amount) comment] ∧
      ∀ info, c.tables.currency? currency = some info → comment = withdrawalComment info amount paySystem purse := by
  cases hcurrency : c.tables.currency? currency with
  | none =>
    refine ⟨"", ?_, nofun⟩
    cases h with
    | unknownCurrency => exact List.nil_prefix
    | _ => simp_all
  | some info =>
    refine ⟨withdrawalComment info amount paySystem purse, ?_, fun _ hinfo => by cases hinfo; rfl⟩
    cases h with
    | debited hcurrency' hmoney hcovers hdebit =>
      cases hcurrency.symm.trans hcurrency'
      subst hdebit
      exact List.prefix_rfl
    | _ => simp

/-- A withdrawal asks once for the money of the one account number and debits it
    once, by exactly the amount, but only after every check has passed. The
    checks come one after the other, each with an error of its own, and nothing
    is sent after the first that fails. The answer of the debit gives the
    ticket. The smallest integer is left out: its negative does not fit in 64
    bits, so it cannot be debited. -/
theorem fundsWithdraw_gated (c : Client τ) (currency : LookupKey) (account amount : Int64) (paySystem purse : String)
    (answers : Answers ClientError) (made : List Call) (hamount : amount ≠ Int64.minValue) :
    (-amount).toInt = -amount.toInt ∧ ∃ outcome sent,
      (c.fundsWithdraw currency account amount paySystem purse).run answers made = (outcome, made ++ sent) ∧
      (∀ outcome' sent', WithdrawalRun c currency account amount paySystem purse answers made outcome' sent' ↔
        outcome' = outcome ∧ sent' = sent) ∧
      (∃ comment, sent <+: [moneyQuestion account, balanceCall account (-amount) comment] ∧
        ∀ info, c.tables.currency? currency = some info → comment = withdrawalComment info amount paySystem purse) ∧
      ((∃ call ∈ sent, call.method = "BalanceAdd") ↔ (c.tables.currency? currency).isSome ∧
        ∃ money, ShowsMoney (answers (made ++ [moneyQuestion account])) account money ∧ Covers money amount) ∧
      ((∃ call ∈ sent, call.method = "BalanceAdd") → ∀ v, answers (made ++ sent) = .ok v →
        ∃ ticket, outcome = .ok ticket ∧ ∀ t, ticket = some t ↔ v.get? "Ticket" = some (.ofInt64 t) ∧ t ≠ 0) := by
  refine ⟨toInt_neg_of_ne_minValue hamount, ?_⟩
  obtain ⟨outcome, sent, hway⟩ := exists_withdrawalRun c currency account amount paySystem purse answers made
  have hrun := hway.run_eq
  refine ⟨outcome, sent, hrun, fun outcome' sent' => ?_, hway.isPrefix, hway.debit_mem_iff, fun hdebit v hv => ?_⟩
  · rw [withdrawalRun_iff, hrun, Prod.mk.injEq, List.append_cancel_left_eq, eq_comm, @eq_comm _ sent]
  · refine ⟨ticket? v, ?_, fun t => ticket?_eq_some_iff⟩
    cases hway with
    | debited => rw [hv, Except.map]
    | unknownCurrency => simp at hdebit
    | _ => exact absurd hdebit not_debit_mem_question

/-- A client that knows one currency. -/
def euroClient : Client Unit :=
  ⟨{}, (), ⟨[], [⟨5, "EUR", 2, 2, []⟩]⟩, true⟩

/-- A server that shows an account with 120 free, 30 of it on credit, and
    answers every debit with a ticket. -/
def euroAnswers : Answers ClientError
  | [_] => .ok (.object [("44", .object [("Credit", .ofInt64 30), ("Free", .ofInt64 120)])])
  | _ => .ok (.object [("Ticket", .ofInt64 7)])

theorem fundsWithdraw_gated_ninety :
    (90 : Int64) ≠ Int64.minValue ∧ ∃ comment,
      (euroClient.fundsWithdraw (.byName "EUR") 44 90 "CARD" "4276").run euroAnswers [] =
        (.ok (some 7), [moneyQuestion 44, balanceCall 44 (-90) comment]) := by
  have hamount : (90 : Int64) ≠ Int64.minValue := by decide
  refine ⟨hamount, ?_⟩
  obtain ⟨-, outcome, sent, hrun, hways, -, -, -⟩ :=
    fundsWithdraw_gated euroClient (.byName "EUR") 44 90 "CARD" "4276" euroAnswers [] hamount
  have hshows : ShowsMoney (euroAnswers ([] ++ [moneyQuestion 44])) 44 ⟨.ofInt 120, .ofInt 30, []⟩ :=
    ⟨_, [("44", ⟨.ofInt 120, .ofInt 30, []⟩)], rfl, by decide +kernel, by decide +kernel⟩
  have hcovers : Covers ⟨.ofInt 120, .ofInt 30, []⟩ 90 := by unfold Covers; decide +kernel
  obtain ⟨rfl, rfl⟩ := (hways _ _).mp (.debited rfl hshows hcovers rfl)
  exact ⟨_, hrun⟩

end Client

end Brokerage
