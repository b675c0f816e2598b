import Brokerage.Proofs.Client.Withdrawal

namespace Brokerage.Client

/-- The call takes money away, and no more than is available. -/
def CoveredDebit (call : Call) (available : Binary64) : Prop :=
  ∃ change : Int64, call.params.get? "Amount" = some (.ofInt64 change) ∧ change.toInt ≤ 0 ∧
    available.AtLeast change.toInt.natAbs

/-- Whatever the client and the server are, every debit of a withdrawal of this
    amount is covered by the money that the server shows for the account
    number. -/
def NeverOverdraws (amount : Int64) : Prop :=
  ∀ (τ : Type) (c : Client τ) (currency : LookupKey) (account : Int64) (paySystem purse : String)
    (answers : Answers ClientError) (made : List Call),
    ∃ sent, ((c.fundsWithdraw currency account amount paySystem purse).run answers made).2 = made ++ sent ∧
      ∀ call ∈ sent, call.method = "BalanceAdd" →
        ∃ money, ShowsMoney (answers (made ++ [moneyQuestion account])) account money ∧
          CoveredDebit call money.withdrawable

/-- What can be withdrawn of money that a server shows is a number, as a reply
    holds finite numbers only. -/
theorem ShowsMoney.withdrawable_ne_nan {reply : Except ClientError Json} {account : Int64} {money : MoneyInfo}
    (h : ShowsMoney reply account money) : money.withdrawable ≠ .nan := by
  obtain ⟨v, table, -, htable, hmoney⟩ := h
  obtain ⟨member, hmember⟩ := MoneyInfo.exists_ofJson?_of_lookup htable hmoney
  exact MoneyInfo.withdrawable_ne_nan hmember

/-- A debit is covered exactly if the amount is not negative and no more than
    what is available. The smallest integer is left out because its negative
    does not fit. -/
theorem coveredDebit_balanceCall {account amount : Int64} {comment : String} {available : Binary64}
    (hamount : amount ≠ Int64.minValue) :
    CoveredDebit (balanceCall account (-amount) comment) available ↔
      0 ≤ amount.toInt ∧ available.AtLeast amount.toInt := by
  have hneg := toInt_neg_of_ne_minValue hamount
  constructor
  · rintro ⟨change, hchange, hle, hleast⟩
    obtain rfl : -amount = change := Json.ofInt64_inj (Option.some.inj hchange)
    rw [hneg] at hle hleast
    have hnonneg : 0 ≤ amount.toInt := by omega
    rw [Int.natAbs_neg, Int.natAbs_of_nonneg hnonneg] at hleast
    exact ⟨hnonneg, hleast⟩
  · rintro ⟨hnonneg, hleast⟩
    refine ⟨-amount, rfl, by omega, ?_⟩
    rwa [hneg, Int.natAbs_neg, Int.natAbs_of_nonneg hnonneg]

/-- A covered comparison covers the amount itself if the amount was not rounded
    down for it. -/
theorem Covers.atLeast {reply : Except ClientError Json} {account amount : Int64} {money : MoneyInfo}
    (hcovers : Covers money amount) (hmoney : ShowsMoney reply account money)
    (hleast : (Binary64.ofInt amount.toInt).AtLeast amount.toInt) : money.withdrawable.AtLeast amount.toInt :=
  hleast.of_lt_eq_false hcovers hmoney.withdrawable_ne_nan

/-- Every debit is covered, provided the amount is not negative and not rounded
    down where it is compared. -/
theorem neverOverdraws_of_atLeast {amount : Int64} (hamount : amount ≠ Int64.minValue) (hnonneg : 0 ≤ amount.toInt)
    (hleast : (Binary64.ofInt amount.toInt).AtLeast amount.toInt) : NeverOverdraws amount := by
  intro τ c currency account paySystem purse answers made
  obtain ⟨outcome, sent, hway⟩ := exists_withdrawalRun c currency account amount paySystem purse answers made
  refine ⟨sent, by rw [hway.run_eq], ?_⟩
  intro call hcall hmethod
  cases hway with
  | unknownCurrency => cases hcall
  | debited hcurrency hmoney hcovers hdebit =>
    rcases List.mem_cons.mp hcall with rfl | hcall
    · simp [moneyQuestion] at hmethod
    · obtain rfl := List.mem_singleton.mp hcall
      rw [hdebit]
      exact ⟨_, hmoney, (coveredDebit_balanceCall hamount).mpr ⟨hnonneg, hcovers.atLeast hmoney hleast⟩⟩
  | _ => exact absurd ⟨call, hcall, hmethod⟩ not_debit_mem_question

/-- A server that shows the given free money and no credit for every account
    number it is asked for. -/
def freeMoneyAnswers (account : Int64) (negative : Bool) (m : Binary64.Magnitude) : Answers ClientError := fun _ =>
  .ok (.object [(moneyName account, .object [("Free", .number (.real negative m))])])

private theorem showsMoney_freeMoneyAnswers (account : Int64) (negative : Bool) (m : Binary64.Magnitude) (made : List Call) :
    ShowsMoney (freeMoneyAnswers account negative m made) account ⟨.finite negative m, .zero, []⟩ :=
  ⟨_, [(moneyName account, ⟨.finite negative m, .zero, []⟩)], rfl, rfl, List.lookup_cons_self⟩

/-- An account with exactly what the amount is rounded to is debited, so the
    amount must not have been rounded down; and a negative amount is debited
    from any account. -/
theorem atLeast_of_neverOverdraws {amount : Int64} (hamount : amount ≠ Int64.minValue) (h : NeverOverdraws amount) :
    0 ≤ amount.toInt ∧ (Binary64.ofInt amount.toInt).AtLeast amount.toInt := by
  have hlower := Int64.le_toInt amount
  have hupper := Int64.toInt_lt amount
  obtain ⟨m, hm, -⟩ := @Binary64.exists_ofInt_eq_finite amount.toInt (by omega)
  generalize decide (amount.toInt < 0) = negative at hm
  have hshows := showsMoney_freeMoneyAnswers 44 negative m [moneyQuestion 44]
  have hexact : MoneyInfo.withdrawable ⟨.finite negative m, .zero, []⟩ = .ofInt amount.toInt := by
    rw [hm]
    exact Binary64.sub_zero negative m
  have hcovers : Covers ⟨.finite negative m, .zero, []⟩ amount := by
    rw [Covers, hexact]
    exact Binary64.lt_self _
  have hrun := (WithdrawalRun.debited rfl hshows hcovers rfl :
    WithdrawalRun euroClient (.byName "EUR") 44 amount "" "" (freeMoneyAnswers 44 negative m) [] _ _).run_eq
  obtain ⟨sent, hsent, hcovered⟩ := h Unit euroClient (.byName "EUR") 44 "" "" (freeMoneyAnswers 44 negative m) []
  rw [hrun, List.append_cancel_left_eq] at hsent
  subst hsent
  obtain ⟨money, hmoney, hdebit⟩ := hcovered _ (List.mem_cons_of_mem _ List.mem_cons_self) rfl
  rw [hmoney.unique hshows, hexact] at hdebit
  exact (coveredDebit_balanceCall hamount).mp hdebit

/-- The check protects the account exactly for the amounts that are not negative
    and whose nearest binary64 number is not below them, which includes all
    amounts from 0 to 2^53. The amount is compared as that number, and nothing
    else stands between it and the debit. -/
theorem neverOverdraws_iff (amount : Int64) (hamount : amount ≠ Int64.minValue) :
    (NeverOverdraws amount ↔ 0 ≤ amount.toInt ∧ (Binary64.ofInt amount.toInt).AtLeast amount.toInt) ∧
      (0 ≤ amount.toInt → amount.toInt ≤ 0x20000000000000 → NeverOverdraws amount) :=
  ⟨⟨atLeast_of_neverOverdraws hamount, fun h => neverOverdraws_of_atLeast hamount h.1 h.2⟩,
    fun h₀ h => neverOverdraws_of_atLeast hamount h₀ (Binary64.ofInt_atLeast h₀ h)⟩

theorem neverOverdraws_ninety : (90 : Int64) ≠ Int64.minValue ∧ NeverOverdraws 90 := by
  have hamount : (90 : Int64) ≠ Int64.minValue := by decide
  exact ⟨hamount, (neverOverdraws_iff 90 hamount).2 (by decide) (by decide)⟩

/-- A negative amount is credited, and an amount just above 2^53 is debited
    though one unit of it is missing. -/
theorem not_neverOverdraws : ¬ NeverOverdraws (-6) ∧ ¬ NeverOverdraws 9007199254740993 := by
  constructor
  · intro h
    exact absurd (atLeast_of_neverOverdraws (by decide) h).1 (by decide)
  · intro h
    exact absurd (atLeast_of_neverOverdraws (by decide) h).2 (by decide +kernel)

end Brokerage.Client
