import Brokerage.Client.Money
import Brokerage.Proofs.Account.Money
import Brokerage.Proofs.Outcome.Lists
import Brokerage.Proofs.Remote.Run
import Brokerage.Proofs.Text.Numeral

namespace Brokerage

namespace Client

variable {τ : Type}

def numbersQuestion (accountId : Int64) : Call :=
  ⟨"AccountNumbersGet", .object [("Id", .ofInt64 accountId)]⟩

def balanceQuestion (ids : List Int64) (currency : String) : Call :=
  ⟨"MoneyInfo", .object [("AccountNumbers", .array (ids.map Json.ofInt64)), ("Currency", .string currency)]⟩

/-- The entry is of type 1, a real account number, and has this id. -/
def IsReal (entry : Json) (id : Int64) : Prop :=
  entry.get? "Type" = some (.ofInt64 1) ∧ entry.get? "Id" = some (.ofInt64 id)

/-- The ids of the real account numbers in a list, in the order of the list and
    with repetitions. -/
inductive RealIds : List Json → List Int64 → Prop
  | nil : RealIds [] []
  | real {entry : Json} {id : Int64} {entries : List Json} {ids : List Int64} (hreal : IsReal entry id)
      (hrest : RealIds entries ids) : RealIds (entry :: entries) (id :: ids)
  | other {entry : Json} {entries : List Json} {ids : List Int64} (hother : ∀ id, ¬IsReal entry id)
      (hrest : RealIds entries ids) : RealIds (entry :: entries) ids

/-- The reply lists account numbers, of which these are the real ones. -/
def ListsReal (reply : Except ClientError Json) (ids : List Int64) : Prop :=
  ∃ entries, reply = .ok (.array entries) ∧ RealIds entries ids

/-- The money of an account number, read from the member whose name is the
    decimal text of the id. -/
def MoneyAt (members : List (String × Json)) (id : Int64) (info : MoneyInfo) : Prop :=
  ∃ entry, members.lookup (moneyName id) = some entry ∧ MoneyInfo.ofJson? entry = some info

/-- There is no money of this account number, and of those before it there
    is. -/
def FirstMissing (members : List (String × Json)) (ids : List Int64) (id : Int64) : Prop :=
  ∃ before after, ids = before ++ id :: after ∧ (∀ other ∈ before, (members.lookup (moneyName other)).isSome) ∧
    members.lookup (moneyName id) = none

/-- The sum of the money that is free and not on credit, from the left on. -/
def total (infos : List MoneyInfo) : Binary64 :=
  infos.foldl (fun sum info => sum.add (info.free.sub info.credit)) .zero

/-- The ways in which the question for a balance can go after the calls `made`,
    with the outcome and the calls of each. -/
inductive BalanceRun (accountId : Int64) (currency : String) (answers : Answers ClientError) (made : List Call) :
    Except ClientError Binary64 → List Call → Prop where
  | noNumbers {e : ClientError} (hreply : answers (made ++ [numbersQuestion accountId]) = .error e) :
    BalanceRun accountId currency answers made (.error e) [numbersQuestion accountId]
  | notList {v : Json} (hreply : answers (made ++ [numbersQuestion accountId]) = .ok v) (hlist : v.isArray = false) :
    BalanceRun accountId currency answers made (.error .undecodable) [numbersQuestion accountId]
  | noMoney {ids : List Int64} {e : ClientError}
      (hnumbers : ListsReal (answers (made ++ [numbersQuestion accountId])) ids)
      (hreply : answers (made ++ [numbersQuestion accountId, balanceQuestion ids currency]) = .error e) :
    BalanceRun accountId currency answers made (.error e) [numbersQuestion accountId, balanceQuestion ids currency]
  | notMap {ids : List Int64} {v : Json}
      (hnumbers : ListsReal (answers (made ++ [numbersQuestion accountId])) ids)
      (hreply : answers (made ++ [numbersQuestion accountId, balanceQuestion ids currency]) = .ok v)
      (hmap : ∀ members, ¬MoneyInfo.IsMap v members) :
    BalanceRun accountId currency answers made (.error .undecodable)
      [numbersQuestion accountId, balanceQuestion ids currency]
  | missing {ids : List Int64} {v : Json} {members : List (String × Json)} {id : Int64}
      (hnumbers : ListsReal (answers (made ++ [numbersQuestion accountId])) ids)
      (hreply : answers (made ++ [numbersQuestion accountId, balanceQuestion ids currency]) = .ok v)
      (hmap : MoneyInfo.IsMap v members) (hmissing : FirstMissing members ids id) :
    BalanceRun accountId currency answers made (.error (.unexpectedReply (.noMoney id)))
      [numbersQuestion accountId, balanceQuestion ids currency]
  | summed {ids : List Int64} {v : Json} {members : List (String × Json)} {infos : List MoneyInfo}
      (hnumbers : ListsReal (answers (made ++ [numbersQuestion accountId])) ids)
      (hreply : answers (made ++ [numbersQuestion accountId, balanceQuestion ids currency]) = .ok v)
      (hmap : MoneyInfo.IsMap v members) (hinfos : List.Forall₂ (MoneyAt members) ids infos) :
    BalanceRun accountId currency answers made (.ok (total infos))
      [numbersQuestion accountId, balanceQuestion ids currency]

/-- What the reply to the question for the balance comes to. -/
def balanceAnswer (ids : List Int64) (reply : Except ClientError Json) : Except ClientError Binary64 :=
  Operation.decodedAnswer MoneyInfo.tableOfJson? reply >>= fun table => sumWithdrawable table ids

/-- An entry is taken for a real account number exactly if its type is 1 and it
    has an id of 64 bits. -/
theorem realNumber?_eq_some_iff {entry : Json} {id : Int64} : realNumber? entry = some id ↔ IsReal entry id := by
  have hcode : AccountNumberKind.real.code = 1 := rfl
  rw [realNumber?, Option.ite_none_right_eq_some, IsReal, hcode, Option.bind_eq_some_iff, Option.bind_eq_some_iff]
  simp only [Json.asInt64?_eq_some_iff, exists_eq_right]

/-- The ids taken from a list are those of its real account numbers, in order
    and with repetitions. -/
theorem realIds_iff {entries : List Json} {ids : List Int64} :
    RealIds entries ids ↔ entries.filterMap realNumber? = ids := by
  constructor
  · intro h
    induction h with
    | nil => rfl
    | real hreal _ ih => rw [List.filterMap_cons_some (realNumber?_eq_some_iff.mpr hreal), ih]
    | other hother _ ih =>
      have hnone := Option.eq_none_iff_forall_ne_some.mpr fun id h => hother id (realNumber?_eq_some_iff.mp h)
      rw [List.filterMap_cons_none hnone, ih]
  · rintro rfl
    induction entries with
    | nil => exact .nil
    | cons entry entries ih =>
      cases hentry : realNumber? entry with
      | none =>
        rw [List.filterMap_cons_none hentry]
        refine .other (fun id hreal => ?_) ih
        cases hentry.symm.trans (realNumber?_eq_some_iff.mpr hreal)
      | some id =>
        rw [List.filterMap_cons_some hentry]
        exact .real (realNumber?_eq_some_iff.mp hentry) ih

private theorem decodedList_eq_ok_iff {reply : Except ClientError Json} {entries : List Json} :
    Operation.decodedAnswer (Json.asList? some) reply = .ok entries ↔ reply = .ok (.array entries) := by
  rw [Operation.decodedAnswer_eq_ok_iff]
  constructor
  · rintro ⟨v, rfl, hv⟩
    cases v with
    | array items =>
      obtain rfl := (List.map_inj_right fun _ _ => Option.some.inj).mp (mapM_eq_some_iff.mp hv)
      rfl
    | _ => cases hv
  · rintro rfl
    exact ⟨_, rfl, mapM_eq_some_iff.mpr rfl⟩

private theorem decodedList_of_not_isArray {reply : Except ClientError Json} {v : Json} (hreply : reply = .ok v)
    (hlist : v.isArray = false) :
    Operation.decodedAnswer (Json.asList? some) reply = (.error .undecodable : Except ClientError (List Json)) := by
  subst hreply
  cases v with
  | array items => cases hlist
  | _ => rfl

/-- Different ids have different texts, so no two account numbers share a member
    of the reply. -/
theorem moneyName_inj {id other : Int64} (h : moneyName id = moneyName other) : id = other := by
  have hchars := congrArg String.toList h
  rw [moneyName, moneyName, Text.toList_toString_int, Text.toList_toString_int] at hchars
  exact Int64.toInt_inj.mp (Text.integerChars_inj hchars)

section

variable {members : List (String × Json)} {table : List (String × MoneyInfo)} {ids : List Int64} {id : Int64}

/-- The money found for an account number is the one at its member, whose name
    is the number in decimal digits. The table has to be one that was read, by
    which each of its entries comes from a member. -/
theorem moneyOf_eq_ok_iff (htable : MoneyInfo.tableOfJson? (.object members) = some table) {info : MoneyInfo} :
    moneyOf table id = .ok info ↔ MoneyAt members id info := by
  rw [moneyOf, found_eq_ok_iff, MoneyInfo.lookup_of_tableOfJson? htable, Option.bind_eq_some_iff, MoneyAt]

/-- The only failure is that there is no member for the account number, and the
    error names it. That the reply was read as a table makes every member in it
    money. -/
theorem moneyOf_eq_error_iff (htable : MoneyInfo.tableOfJson? (.object members) = some table) {e : ClientError} :
    moneyOf table id = .error e ↔
      members.lookup (moneyName id) = none ∧ e = .unexpectedReply (.noMoney id) := by
  rw [moneyOf, MoneyInfo.lookup_of_tableOfJson? htable]
  cases hentry : members.lookup (moneyName id) with
  | none => simp [found, eq_comm]
  | some entry =>
    obtain ⟨info, hinfo⟩ := MoneyInfo.exists_info_of_lookup htable hentry
    simp [found, hinfo]

private theorem exists_moneyOf_eq_ok_iff (htable : MoneyInfo.tableOfJson? (.object members) = some table) :
    (∃ info, moneyOf table id = .ok info) ↔ (members.lookup (moneyName id)).isSome := by
  simp only [moneyOf_eq_ok_iff htable, MoneyAt]
  cases hentry : members.lookup (moneyName id) with
  | none => simp
  | some entry =>
    obtain ⟨info, hinfo⟩ := MoneyInfo.exists_info_of_lookup htable hentry
    simp [hinfo]

/-- The sum reads the money of all account numbers first and then adds it up, so
    a number without money leaves no partial sum. -/
theorem sumWithdrawable_eq (table : List (String × MoneyInfo)) (ids : List Int64) :
    sumWithdrawable table ids = (ids.mapM (moneyOf table)).map total := by
  have hstep (sum : Binary64) (id : Int64) :
      (do return sum.add (← moneyOf table id).withdrawable : Except ClientError Binary64) =
        (moneyOf table id).map fun info => sum.add (info.free.sub info.credit) := by
    cases moneyOf table id <;> rfl
  simp only [sumWithdrawable, hstep]
  exact foldlM_map_eq (moneyOf table) (fun (sum : Binary64) info => sum.add (info.free.sub info.credit)) ids .zero

/-- With money at every account number the sum is that of all of it, from left
    to right. The order counts, since each addition is rounded. -/
theorem sumWithdrawable_of_forall₂ (htable : MoneyInfo.tableOfJson? (.object members) = some table)
    {infos : List MoneyInfo} (h : List.Forall₂ (MoneyAt members) ids infos) :
    sumWithdrawable table ids = .ok (total infos) := by
  have hread : ids.mapM (moneyOf table) = .ok infos :=
    mapM_eq_ok_iff.mpr (h.imp fun _ _ => (moneyOf_eq_ok_iff htable).mpr)
  rw [sumWithdrawable_eq, hread, Except.map]

/-- The first account number without money is the one that the error names. The
    money of those before it is looked up, to no effect. -/
theorem sumWithdrawable_of_firstMissing (htable : MoneyInfo.tableOfJson? (.object members) = some table)
    (h : FirstMissing members ids id) :
    sumWithdrawable table ids = .error (.unexpectedReply (.noMoney id)) := by
  obtain ⟨before, after, hids, hbefore, hmissing⟩ := h
  have hfails : FirstFails (moneyOf table) ids (.unexpectedReply (.noMoney id)) :=
    ⟨before, id, after, hids, fun other hother => (exists_moneyOf_eq_ok_iff htable).mpr (hbefore other hother),
      (moneyOf_eq_error_iff htable).mpr ⟨hmissing, rfl⟩⟩
  rw [sumWithdrawable_eq, mapM_eq_error_iff.mpr hfails, Except.map]

/-- The money of every account number is there, or one is the first without. -/
theorem exists_forall₂_or_firstMissing (hmap : MoneyInfo.IsMap (.object members) members) (ids : List Int64) :
    (∃ infos, List.Forall₂ (MoneyAt members) ids infos) ∨ ∃ id, FirstMissing members ids id := by
  obtain ⟨table, htable⟩ := hmap.exists_table
  cases hread : ids.mapM (moneyOf table) with
  | ok infos => exact .inl ⟨infos, (mapM_eq_ok_iff.mp hread).imp fun _ _ => (moneyOf_eq_ok_iff htable).mp⟩
  | error e =>
    obtain ⟨before, id, after, hids, hbefore, hid⟩ := mapM_eq_error_iff.mp hread
    exact .inr ⟨id, before, after, hids,
      fun other hother => (exists_moneyOf_eq_ok_iff htable).mp (hbefore other hother),
      ((moneyOf_eq_error_iff htable).mp hid).1⟩

end

section

variable {ids : List Int64} {v : Json} {members : List (String × Json)} {table : List (String × MoneyInfo)}

/-- A map of money records is summed up. By `h` the reply is the object whose
    members `htable` reads, and the outcome is that of the sum. -/
theorem balanceAnswer_of_isMap (h : MoneyInfo.IsMap v members)
    (htable : MoneyInfo.tableOfJson? (.object members) = some table) :
    balanceAnswer ids (.ok v) = sumWithdrawable table ids := by
  obtain rfl := h.1
  rw [balanceAnswer, Operation.decodedAnswer, htable]
  rfl

private theorem balanceAnswer_of_not_isMap (h : ∀ members, ¬MoneyInfo.IsMap v members) :
    balanceAnswer ids (.ok v) = .error .undecodable := by
  cases htable : MoneyInfo.tableOfJson? v with
  | some table =>
    obtain ⟨members, hmap⟩ := MoneyInfo.exists_isMap_of_tableOfJson? htable
    exact absurd hmap (h members)
  | none =>
    rw [balanceAnswer, Operation.decodedAnswer, htable]
    rfl

/-- There is a balance exactly if the reply is a map of money records with a
    member for every id. -/
theorem exists_balanceAnswer_eq_ok_iff {reply : Except ClientError Json} :
    (∃ x, balanceAnswer ids reply = .ok x) ↔ ∃ v members, reply = .ok v ∧ MoneyInfo.IsMap v members ∧
      ∀ id ∈ ids, (members.lookup (moneyName id)).isSome := by
  constructor
  · rintro ⟨x, hx⟩
    obtain ⟨table, hreply, hsum⟩ := bind_eq_ok_iff.mp hx
    obtain ⟨v, rfl, htable⟩ := Operation.decodedAnswer_eq_ok_iff.mp hreply
    obtain ⟨members, hmap⟩ := MoneyInfo.exists_isMap_of_tableOfJson? htable
    obtain rfl := hmap.1
    rw [sumWithdrawable_eq] at hsum
    obtain ⟨infos, hinfos, -⟩ := map_eq_ok_iff.mp hsum
    have hall := exists_mapM_eq_ok_iff.mp ⟨infos, hinfos⟩
    exact ⟨_, members, rfl, hmap, fun id hid => (exists_moneyOf_eq_ok_iff htable).mp (hall id hid)⟩
  · rintro ⟨v, members, rfl, hmap, hall⟩
    obtain ⟨table, htable⟩ := hmap.exists_table
    obtain ⟨infos, hinfos⟩ := exists_mapM_eq_ok_iff.mpr fun id hid =>
      (exists_moneyOf_eq_ok_iff htable).mpr (hall id hid)
    refine ⟨total infos, ?_⟩
    rw [balanceAnswer_of_isMap hmap htable, sumWithdrawable_eq, hinfos, Except.map]

/-- Only the members named after the ids count. Both replies have to be maps of
    money records, since one member that is none spoils a reply. -/
theorem balanceAnswer_congr {members' : List (String × Json)} (hmap : MoneyInfo.IsMap (.object members) members)
    (hmap' : MoneyInfo.IsMap (.object members') members')
    (hsame : ∀ id ∈ ids, members.lookup (moneyName id) = members'.lookup (moneyName id)) :
    balanceAnswer ids (.ok (.object members)) = balanceAnswer ids (.ok (.object members')) := by
  obtain ⟨table, htable⟩ := hmap.exists_table
  obtain ⟨table', htable'⟩ := hmap'.exists_table
  have hmoney : ∀ id ∈ ids, moneyOf table id = moneyOf table' id := fun id hid => by
    rw [moneyOf, moneyOf, MoneyInfo.lookup_of_tableOfJson? htable, MoneyInfo.lookup_of_tableOfJson? htable',
      hsame id hid]
  rw [balanceAnswer_of_isMap hmap htable, balanceAnswer_of_isMap hmap' htable', sumWithdrawable_eq,
    sumWithdrawable_eq, mapM_congr hmoney]

end

section

variable (c : Client τ) (accountId : Int64) (currency : String) (answers : Answers ClientError) (made : List Call)

private theorem run_accountNumbers :
    (c.accountNumbers accountId).run answers made =
      (Operation.decodedAnswer (Json.asList? some) (answers (made ++ [numbersQuestion accountId])),
        made ++ [numbersQuestion accountId]) :=
  Operation.run_callAs _ _ _ _ _

private theorem run_moneyInfo_in (ids : List Int64) :
    (c.moneyInfo ids (some currency)).run answers made =
      (Operation.decodedAnswer MoneyInfo.tableOfJson? (answers (made ++ [balanceQuestion ids currency])),
        made ++ [balanceQuestion ids currency]) := by
  have hsorted : (balanceQuestion ids currency).params.IsSorted := by
    have hnames : "AccountNumbers" < "Currency" := by decide
    refine Json.isSorted_object_iff.mpr ⟨List.pairwise_pair.mpr hnames, ?_⟩
    simp only [List.forall_mem_cons, List.not_mem_nil, false_imp_iff, forall_const, and_true]
    exact ⟨Json.isSorted_array_iff.mpr (List.forall_mem_map.mpr fun _ _ => rfl), rfl⟩
  have hcall : (⟨"MoneyInfo", (MoneyInfoParams.toJson ⟨ids, some currency⟩).sorted⟩ : Call) =
      balanceQuestion ids currency :=
    congrArg (Call.mk "MoneyInfo") hsorted.sorted_eq
  rw [moneyInfo, Operation.run_callAs, hcall]

/-- The two questions come one after the other, and the second is asked only
    after a list in reply to the first. -/
theorem run_accountBalance :
    (c.accountBalance accountId currency).run answers made =
      match Operation.decodedAnswer (Json.asList? some) (answers (made ++ [numbersQuestion accountId])) with
      | .error e => (.error e, made ++ [numbersQuestion accountId])
      | .ok entries =>
        let sent := made ++ [numbersQuestion accountId, balanceQuestion (entries.filterMap realNumber?) currency]
        (balanceAnswer (entries.filterMap realNumber?) (answers sent), sent) := by
  rw [accountBalance, Dialogue.run_bind, run_accountNumbers]
  cases Operation.decodedAnswer (Json.asList? some) (answers (made ++ [numbersQuestion accountId])) with
  | error e => rfl
  | ok entries =>
    simp only [Dialogue.run_bind, run_moneyInfo_in, balanceAnswer, List.append_assoc, List.cons_append,
      List.nil_append]
    cases Operation.decodedAnswer MoneyInfo.tableOfJson? (answers (made ++ [numbersQuestion accountId,
      balanceQuestion (entries.filterMap realNumber?) currency])) <;> rfl

/-- With a list of account numbers in reply to the first question, the second
    asks for the real ones among them. -/
theorem run_of_listsReal {ids : List Int64}
    (h : ListsReal (answers (made ++ [numbersQuestion accountId])) ids) :
    (c.accountBalance accountId currency).run answers made =
      (balanceAnswer ids (answers (made ++ [numbersQuestion accountId, balanceQuestion ids currency])),
        made ++ [numbersQuestion accountId, balanceQuestion ids currency]) := by
  obtain ⟨entries, hreply, hreal⟩ := h
  obtain rfl := realIds_iff.mp hreal
  rw [run_accountBalance, decodedList_eq_ok_iff.mpr hreply]

/-- Every question for a balance can go in one of the ways listed. -/
theorem exists_balanceRun : ∃ outcome sent, BalanceRun accountId currency answers made outcome sent := by
  cases hfirst : answers (made ++ [numbersQuestion accountId]) with
  | error e => exact ⟨_, _, .noNumbers hfirst⟩
  | ok v =>
    cases v with
    | array entries =>
      have hnumbers : ListsReal (answers (made ++ [numbersQuestion accountId])) (entries.filterMap realNumber?) :=
        ⟨entries, hfirst, realIds_iff.mpr rfl⟩
      cases hsecond : answers (made ++ [numbersQuestion accountId,
        balanceQuestion (entries.filterMap realNumber?) currency]) with
      | error e => exact ⟨_, _, .noMoney hnumbers hsecond⟩
      | ok v =>
        by_cases hmap : ∃ members, MoneyInfo.IsMap v members
        · obtain ⟨members, hmap⟩ := hmap
          obtain rfl := hmap.1
          obtain ⟨infos, hinfos⟩ | ⟨id, hmissing⟩ := exists_forall₂_or_firstMissing hmap (entries.filterMap realNumber?)
          · exact ⟨_, _, .summed hnumbers hsecond hmap hinfos⟩
          · exact ⟨_, _, .missing hnumbers hsecond hmap hmissing⟩
        · exact ⟨_, _, .notMap hnumbers hsecond fun members h => hmap ⟨members, h⟩⟩
    | _ => exact ⟨_, _, .notList hfirst rfl⟩

end

variable {c : Client τ} {accountId : Int64} {currency : String} {answers : Answers ClientError} {made : List Call}
  {outcome : Except ClientError Binary64} {sent : List Call}

/-- Each way is how the question for a balance runs. The calls made before stay
    in front, and the answers may depend on them. -/
theorem BalanceRun.run_eq (h : BalanceRun accountId currency answers made outcome sent) :
    (c.accountBalance accountId currency).run answers made = (outcome, made ++ sent) := by
  cases h with
  | noNumbers hreply => rw [run_accountBalance, hreply]; rfl
  | notList hreply hlist => rw [run_accountBalance, decodedList_of_not_isArray hreply hlist]
  | noMoney hnumbers hreply => rw [run_of_listsReal c _ _ _ _ hnumbers, hreply]; rfl
  | notMap hnumbers hreply hmap => rw [run_of_listsReal c _ _ _ _ hnumbers, hreply, balanceAnswer_of_not_isMap hmap]
  | missing hnumbers hreply hmap hmissing =>
    obtain ⟨table, htable⟩ := hmap.exists_table
    rw [run_of_listsReal c _ _ _ _ hnumbers, hreply, balanceAnswer_of_isMap hmap htable,
      sumWithdrawable_of_firstMissing htable hmissing]
  | summed hnumbers hreply hmap hinfos =>
    obtain ⟨table, htable⟩ := hmap.exists_table
    rw [run_of_listsReal c _ _ _ _ hnumbers, hreply, balanceAnswer_of_isMap hmap htable,
      sumWithdrawable_of_forall₂ htable hinfos]

/-- The run goes in exactly one way. -/
theorem balanceRun_iff (c : Client τ) :
    BalanceRun accountId currency answers made outcome sent ↔
      (c.accountBalance accountId currency).run answers made = (outcome, made ++ sent) :=
  Dialogue.way_iff_run_eq (exists_balanceRun accountId currency answers made) fun _ _ => BalanceRun.run_eq

/-- A balance is asked for with two questions: one for the account numbers and,
    if the reply lists them, one for the money of exactly the real ones. There
    is a balance exactly if the money of each of them is there. Then it is the
    sum of what is free and not on credit, in the order of the list, and the
    money of other account numbers does not count. If not, the error says what
    is wrong with the replies, or names the first account number without
    money. -/
theorem accountBalance_sums_realNumbers (c : Client τ) (accountId : Int64) (currency : String)
    (answers : Answers ClientError) (made : List Call) :
    ∃ outcome sent,
      (c.accountBalance accountId currency).run answers made = (outcome, made ++ sent) ∧
      (∀ outcome' sent', BalanceRun accountId currency answers made outcome' sent' ↔
        outcome' = outcome ∧ sent' = sent) ∧
      (∀ entries, answers (made ++ [numbersQuestion accountId]) = .ok (.array entries) → ∃ ids,
        RealIds entries ids ∧ sent = [numbersQuestion accountId, balanceQuestion ids currency] ∧
        ((∃ x, outcome = .ok x) ↔ ∃ v members, answers (made ++ sent) = .ok v ∧ MoneyInfo.IsMap v members ∧
          ∀ id ∈ ids, (members.lookup (moneyName id)).isSome) ∧
        ∀ (others : Answers ClientError) (members members' : List (String × Json)),
          MoneyInfo.IsMap (.object members) members → MoneyInfo.IsMap (.object members') members' →
          (∀ id ∈ ids, members.lookup (moneyName id) = members'.lookup (moneyName id)) →
          answers (made ++ sent) = .ok (.object members) → others (made ++ sent) = .ok (.object members') →
          others (made ++ [numbersQuestion accountId]) = .ok (.array entries) →
          (c.accountBalance accountId currency).run others made = (outcome, made ++ sent)) ∧
      ∀ id other, moneyName id = moneyName other → id = other := by
  obtain ⟨outcome, sent, hway⟩ := exists_balanceRun accountId currency answers made
  have hrun := hway.run_eq (c := c)
  refine ⟨outcome, sent, hrun, fun outcome' sent' => ?_, fun entries hentries => ?_, fun _ _ => moneyName_inj⟩
  · rw [balanceRun_iff c, Dialogue.run_eq_iff hrun]
  · have hreal : RealIds entries (entries.filterMap realNumber?) := realIds_iff.mpr rfl
    have hlists := run_of_listsReal c accountId currency answers made ⟨entries, hentries, hreal⟩
    obtain ⟨rfl, rfl⟩ := (Dialogue.run_eq_iff hlists).mp hrun
    refine ⟨_, hreal, rfl, ?_, fun others members members' hmap hmap' hsame hreply hreply' hentries' => ?_⟩
    · exact exists_balanceAnswer_eq_ok_iff
    · rw [run_of_listsReal c accountId currency others made ⟨entries, hentries', hreal⟩, hreply, hreply',
        balanceAnswer_congr hmap hmap' hsame]

/-- A server with a real account number that it lists twice, and a demo one
    between. -/
def twiceAnswers : Answers ClientError := fun made =>
  let five : Json := .object [("Id", .ofInt64 5), ("Type", .ofInt64 1)]
  let six : Json := .object [("Id", .ofInt64 6), ("Type", .ofInt64 2)]
  if made.length = 1 then .ok (.array [five, six, five])
  else .ok (.object [("5", .object [("Credit", .ofInt64 3), ("Free", .ofInt64 10)]), ("6", .object [])])

example : (accountBalance (create {} ()) 1 "USD").run twiceAnswers [] =
    (.ok (.ofInt 14), [numbersQuestion 1, balanceQuestion [5, 5] "USD"]) := by
  decide +kernel

end Client

end Brokerage
