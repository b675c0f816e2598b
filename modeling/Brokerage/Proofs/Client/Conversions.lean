import Brokerage.Proofs.Outcome
import Brokerage.Proofs.Remote.Run

namespace Brokerage

variable {α β : Type}

/-- The first of the rows that have a property. -/
def First (p : α → Prop) (rows : List α) (row : α) : Prop :=
  ∃ before after, rows = before ++ row :: after ∧ p row ∧ ∀ earlier ∈ before, ¬p earlier

/-- What is found by a property: a value of the first row that has it, or the
    error for what is missing. -/
inductive FirstGives (p : α → Prop) (rows : List α) (value : α → β) (missing : ClientError) :
    Except ClientError β → Prop
  | missing (hnone : ∀ row ∈ rows, ¬p row) : FirstGives p rows value missing (.error missing)
  | first {row : α} (hrow : First p rows row) : FirstGives p rows value missing (.ok (value row))

/-- The key asks for a row with this id and name: an id for any row of that id,
    and a name for any row of that name, even if it looks like a number. -/
inductive LookupKey.Means : LookupKey → Int64 → String → Prop
  | id (id : Int64) (name : String) : Means (.byId id) id name
  | name (id : Int64) (name : String) : Means (.byName name) id name

def LookupKey.MeansSymbol (key : LookupKey) (s : SymbolInfo) : Prop :=
  key.Means s.id s.name

def LookupKey.MeansCurrency (key : LookupKey) (info : CurrencyInfo) : Prop :=
  key.Means info.id info.name

/-- What the server keeps as integers. -/
inductive Quantity where
  | price
  | volume
  | deposit

/-- The test for a key selects exactly the rows that the key means. -/
theorem LookupKey.selects_iff {key : LookupKey} {id : Int64} {name : String} :
    key.selects id name = true ↔ key.Means id name := by
  constructor
  · intro h
    cases key with
    | byId i =>
      obtain rfl := of_decide_eq_true h
      exact .id id name
    | byName n =>
      obtain rfl := of_decide_eq_true h
      exact .name id name
  · rintro (_ | _) <;> exact decide_eq_true rfl

private theorem find?_eq_some_iff_first {p : α → Prop} {test : α → Bool} (htest : ∀ a, test a = true ↔ p a) {rows : List α}
    {row : α} : rows.find? test = some row ↔ First p rows row := by
  rw [List.find?_eq_some_iff_append, htest]
  constructor
  · rintro ⟨hrow, before, after, hsplit, hbefore⟩
    refine ⟨before, after, hsplit, hrow, fun earlier hearlier hp => ?_⟩
    simpa [(htest earlier).mpr hp] using hbefore earlier hearlier
  · rintro ⟨before, after, hsplit, hrow, hbefore⟩
    refine ⟨hrow, before, after, hsplit, fun earlier hearlier => ?_⟩
    rw [Bool.not_eq_true', Bool.eq_false_iff]
    exact fun hp => hbefore earlier hearlier ((htest earlier).mp hp)

private theorem find?_eq_none_iff_forall {p : α → Prop} {test : α → Bool} (htest : ∀ a, test a = true ↔ p a)
    {rows : List α} : rows.find? test = none ↔ ∀ row ∈ rows, ¬p row := by
  simp only [List.find?_eq_none, htest]

/-- Looking up by a test and turning the row found into a value gives what the
    first row with the property gives. -/
theorem firstGives_iff {p : α → Prop} {test : α → Bool} (htest : ∀ a, test a = true ↔ p a) {rows : List α}
    {value : α → β} {missing : ClientError} {outcome : Except ClientError β} :
    FirstGives p rows value missing outcome ↔ Client.found missing ((rows.find? test).map value) = outcome := by
  constructor
  · rintro (hnone | hrow)
    · rw [(find?_eq_none_iff_forall htest).mpr hnone]
      rfl
    · rw [(find?_eq_some_iff_first htest).mpr hrow]
      rfl
  · rintro rfl
    cases hfound : rows.find? test with
    | none => exact .missing ((find?_eq_none_iff_forall htest).mp hfound)
    | some row => exact .first ((find?_eq_some_iff_first htest).mp hfound)

namespace Tables

variable {t : Tables} {key : LookupKey}

/-- What a margin currency gives: a value of the first currency with the id that
    the first symbol names, or the error for the one of the two that is
    missing. -/
inductive MarginGives (t : Tables) (key : LookupKey) (value : CurrencyInfo → β) : Except ClientError β → Prop
  | noSymbol (hnone : ∀ s ∈ t.symbols, ¬key.MeansSymbol s) : MarginGives t key value (.error (.symbolNotFound key))
  | noCurrency {s : SymbolInfo} (hsymbol : First key.MeansSymbol t.symbols s)
      (hnone : ∀ info ∈ t.currencies, info.id ≠ s.marginCurrencyId) :
    MarginGives t key value (.error (.currencyNotFound (.byId s.marginCurrencyId)))
  | first {s : SymbolInfo} {info : CurrencyInfo} (hsymbol : First key.MeansSymbol t.symbols s)
      (hcurrency : First (fun info => info.id = s.marginCurrencyId) t.currencies info) :
    MarginGives t key value (.ok (value info))

/-- What a conversion gives: the number scaled by the digits of the row that the
    quantity goes by, or an error. -/
def Gives (t : Tables) (key : LookupKey) (scale : UInt32 → β) : Quantity → Except ClientError β → Prop
  | .price => FirstGives key.MeansSymbol t.symbols (fun s => scale s.fractionalDigits) (.symbolNotFound key)
  | .volume => MarginGives t key fun info => scale info.volumeFractionalDigits
  | .deposit =>
    FirstGives key.MeansCurrency t.currencies (fun info => scale info.depositFractionalDigits) (.currencyNotFound key)

def fromInt? (t : Tables) (key : LookupKey) (n : Int64) : Quantity → Option Binary64
  | .price => t.priceFromInt? key n
  | .volume => t.volumeFromInt? key n
  | .deposit => t.depositFromInt? key n

def toInt? (t : Tables) (key : LookupKey) (x : Binary64) : Quantity → Option Int64
  | .price => t.priceToInt? key x
  | .volume => t.volumeToInt? key x
  | .deposit => t.depositToInt? key x

/-- A key finds the first symbol that it means. -/
theorem symbol?_eq_some_iff {s : SymbolInfo} : t.symbol? key = some s ↔ First key.MeansSymbol t.symbols s :=
  find?_eq_some_iff_first fun _ => LookupKey.selects_iff

private theorem symbol?_eq_none_iff : t.symbol? key = none ↔ ∀ s ∈ t.symbols, ¬key.MeansSymbol s :=
  find?_eq_none_iff_forall fun _ => LookupKey.selects_iff

/-- A key finds the first currency that it means. -/
theorem currency?_eq_some_iff {info : CurrencyInfo} :
    t.currency? key = some info ↔ First key.MeansCurrency t.currencies info :=
  find?_eq_some_iff_first fun _ => LookupKey.selects_iff

/-- An id finds the first currency with that id. -/
theorem currency?_byId_eq_some_iff {id : Int64} {info : CurrencyInfo} :
    t.currency? (.byId id) = some info ↔ First (fun info => info.id = id) t.currencies info :=
  find?_eq_some_iff_first fun _ => decide_eq_true_iff

private theorem currency?_byId_eq_none_iff {id : Int64} :
    t.currency? (.byId id) = none ↔ ∀ info ∈ t.currencies, info.id ≠ id :=
  find?_eq_none_iff_forall fun _ => decide_eq_true_iff

private theorem symbolGives_iff {value : SymbolInfo → β} {missing : ClientError} {outcome : Except ClientError β} :
    FirstGives key.MeansSymbol t.symbols value missing outcome ↔
      Client.found missing ((t.symbol? key).map value) = outcome :=
  firstGives_iff fun _ => LookupKey.selects_iff

private theorem currencyGives_iff {value : CurrencyInfo → β} {missing : ClientError} {outcome : Except ClientError β} :
    FirstGives key.MeansCurrency t.currencies value missing outcome ↔
      Client.found missing ((t.currency? key).map value) = outcome :=
  firstGives_iff fun _ => LookupKey.selects_iff

/-- The margin currency is the first with the id that the first symbol names. -/
theorem marginCurrency?_eq_some_iff {info : CurrencyInfo} :
    t.marginCurrency? key = some info ↔ ∃ s, First key.MeansSymbol t.symbols s ∧
      First (fun info => info.id = s.marginCurrencyId) t.currencies info := by
  rw [marginCurrency?, Option.bind_eq_some_iff]
  simp only [symbol?_eq_some_iff, currency?_byId_eq_some_iff]

end Tables

namespace Client

variable {τ : Type} {c : Client τ} {key : LookupKey}

/-- Where the check of a margin currency passes, there is one. So the conversion
    behind the check cannot fail, and the error that it would give is never
    seen. -/
theorem exists_marginCurrency?_of_checked (h : c.checkMarginCurrency key = .ok ()) :
    ∃ info, c.tables.marginCurrency? key = some info := by
  rw [checkMarginCurrency, bind_eq_ok_iff] at h
  obtain ⟨s, hsymbol, h⟩ := h
  obtain ⟨info, hcurrency, -⟩ := bind_eq_ok_iff.mp h
  refine ⟨info, ?_⟩
  rw [Tables.marginCurrency?, found_eq_ok_iff.mp hsymbol]
  exact found_eq_ok_iff.mp hcurrency

/-- The check of a margin currency and the look-up behind it go by the same two
    rows: where the check passes, the look-up brings the currency that was
    checked. -/
theorem checkMarginCurrency_bind_eq (c : Client τ) (key : LookupKey) (value : CurrencyInfo → β) :
    (c.checkMarginCurrency key >>= fun _ =>
      found (.symbolNotFound key) ((c.tables.marginCurrency? key).map value)) =
      c.symbol key >>= fun s => (c.currency (.byId s.marginCurrencyId)).map value := by
  rw [checkMarginCurrency, symbol, Tables.marginCurrency?]
  cases c.tables.symbol? key with
  | none => rfl
  | some s =>
    simp only [found, Option.bind_some, currency]
    cases hcurrency : c.tables.currency? (.byId s.marginCurrencyId) with
    | none => simp [bind, Except.bind, Except.map, hcurrency]
    | some info => simp [bind, Except.bind, Except.map, hcurrency, pure, Except.pure]

/-- The check and the look-up behind it give what the first symbol and the first
    currency with its id give, with the error for the one of the two that is
    missing. The error behind the check is never reached. -/
theorem marginGives_iff {value : CurrencyInfo → β} {outcome : Except ClientError β} :
    c.tables.MarginGives key value outcome ↔
      (c.checkMarginCurrency key >>= fun _ =>
        found (.symbolNotFound key) ((c.tables.marginCurrency? key).map value)) = outcome := by
  rw [checkMarginCurrency_bind_eq]
  constructor
  · intro h
    cases h with
    | noSymbol hnone => rw [symbol, Tables.symbol?_eq_none_iff.mpr hnone]; rfl
    | noCurrency hsymbol hnone =>
      rw [symbol, Tables.symbol?_eq_some_iff.mpr hsymbol]
      exact congrArg (Except.map value) (congrArg (found _) (Tables.currency?_byId_eq_none_iff.mpr hnone))
    | first hsymbol hcurrency =>
      rw [symbol, Tables.symbol?_eq_some_iff.mpr hsymbol]
      exact congrArg (Except.map value) (congrArg (found _) (Tables.currency?_byId_eq_some_iff.mpr hcurrency))
  · rintro rfl
    rw [symbol]
    cases hsymbol : c.tables.symbol? key with
    | none => exact .noSymbol (Tables.symbol?_eq_none_iff.mp hsymbol)
    | some s =>
      have hfirst := Tables.symbol?_eq_some_iff.mp hsymbol
      change c.tables.MarginGives key value ((c.currency (.byId s.marginCurrencyId)).map value)
      rw [currency]
      cases hcurrency : c.tables.currency? (.byId s.marginCurrencyId) with
      | none => exact .noCurrency hfirst (Tables.currency?_byId_eq_none_iff.mp hcurrency)
      | some info => exact .first hfirst (Tables.currency?_byId_eq_some_iff.mp hcurrency)

private theorem marginGives_eq_ok_iff {value : CurrencyInfo → β} {b : β} :
    (c.checkMarginCurrency key >>= fun _ =>
      found (.symbolNotFound key) ((c.tables.marginCurrency? key).map value)) = .ok b ↔
      (c.tables.marginCurrency? key).map value = some b := by
  rw [checkMarginCurrency_bind_eq, bind_eq_ok_iff]
  simp only [map_eq_ok_iff, Option.map_eq_some_iff, Tables.marginCurrency?, Option.bind_eq_some_iff, symbol, currency,
    found_eq_ok_iff]
  constructor
  · rintro ⟨s, hsymbol, info, hcurrency, rfl⟩
    exact ⟨info, ⟨s, hsymbol, hcurrency⟩, rfl⟩
  · rintro ⟨info, ⟨s, hsymbol, hcurrency⟩, rfl⟩
    exact ⟨s, hsymbol, info, hcurrency, rfl⟩

/-- A conversion of the server's integer. -/
def fromInt (c : Client τ) (key : LookupKey) (n : Int64) : Quantity → Except ClientError Binary64
  | .price => c.priceFromInt key n
  | .volume => c.volumeFromInt key n
  | .deposit => c.depositFromInt key n

/-- A conversion to the server's integer. -/
def toInt (c : Client τ) (key : LookupKey) (x : Binary64) : Quantity → Except ClientError Int64
  | .price => c.priceToInt key x
  | .volume => c.volumeToInt key x
  | .deposit => c.depositToInt key x

/-- A conversion of the server's integer gives the number scaled by the digits
    of the row that the quantity goes by, or the error for what is missing. -/
theorem gives_fromInt_iff {quantity : Quantity} {n : Int64} {outcome : Except ClientError Binary64} :
    c.tables.Gives key (Scaling.toFloat n) quantity outcome ↔ c.fromInt key n quantity = outcome := by
  cases quantity with
  | price => exact Tables.symbolGives_iff
  | volume => exact marginGives_iff
  | deposit => exact Tables.currencyGives_iff

/-- The same of a conversion to the server's integer. -/
theorem gives_toInt_iff {quantity : Quantity} {x : Binary64} {outcome : Except ClientError Int64} :
    c.tables.Gives key (Scaling.toInt x) quantity outcome ↔ c.toInt key x quantity = outcome := by
  cases quantity with
  | price => exact Tables.symbolGives_iff
  | volume => exact marginGives_iff
  | deposit => exact Tables.currencyGives_iff

/-- A conversion of a client succeeds exactly where that of its tables does,
    with the same number. -/
theorem fromInt_eq_ok_iff {quantity : Quantity} {n : Int64} {y : Binary64} :
    c.fromInt key n quantity = .ok y ↔ c.tables.fromInt? key n quantity = some y := by
  cases quantity with
  | price => exact found_eq_ok_iff
  | volume => exact marginGives_eq_ok_iff
  | deposit => exact found_eq_ok_iff

/-- The same of a conversion to the server's integer. -/
theorem toInt_eq_ok_iff {quantity : Quantity} {x : Binary64} {n : Int64} :
    c.toInt key x quantity = .ok n ↔ c.tables.toInt? key x quantity = some n := by
  cases quantity with
  | price => exact found_eq_ok_iff
  | volume => exact marginGives_eq_ok_iff
  | deposit => exact found_eq_ok_iff

/-- Whatever the tables hold, a key finds the first row that it means, and every
    conversion goes by that row: prices by the digits of the symbol, deposits by
    those of the currency, and volumes by those of the first currency with the
    id that the first symbol gives as its margin currency. A conversion fails
    exactly if such a row is missing, with the error that names it, and
    otherwise is the conversion of the tables. Behind the check of the margin
    currency nothing is missing any more. Ids and names may stand twice. -/
theorem conversions_by_first_row (c : Client τ) (key : LookupKey) (n : Int64) (x : Binary64) :
    (∀ s, c.tables.symbol? key = some s ↔ First key.MeansSymbol c.tables.symbols s) ∧
    (∀ info, c.tables.currency? key = some info ↔ First key.MeansCurrency c.tables.currencies info) ∧
    (∀ info, c.tables.marginCurrency? key = some info ↔ ∃ s, First key.MeansSymbol c.tables.symbols s ∧
      First (fun info => info.id = s.marginCurrencyId) c.tables.currencies info) ∧
    (∀ outcome, FirstGives key.MeansSymbol c.tables.symbols id (.symbolNotFound key) outcome ↔
      c.symbol key = outcome) ∧
    (∀ outcome, FirstGives key.MeansCurrency c.tables.currencies id (.currencyNotFound key) outcome ↔
      c.currency key = outcome) ∧
    (∀ quantity outcome, c.tables.Gives key (Scaling.toFloat n) quantity outcome ↔
      c.fromInt key n quantity = outcome) ∧
    (∀ quantity outcome, c.tables.Gives key (Scaling.toInt x) quantity outcome ↔ c.toInt key x quantity = outcome) ∧
    (∀ quantity y, c.fromInt key n quantity = .ok y ↔ c.tables.fromInt? key n quantity = some y) ∧
    (∀ quantity y, c.toInt key x quantity = .ok y ↔ c.tables.toInt? key x quantity = some y) ∧
    (c.checkMarginCurrency key = .ok () →
      (c.tables.volumeFromInt? key n).isSome ∧ (c.tables.volumeToInt? key x).isSome) := by
  refine ⟨fun _ => Tables.symbol?_eq_some_iff, fun _ => Tables.currency?_eq_some_iff,
    fun _ => Tables.marginCurrency?_eq_some_iff, ?symbol, ?currency, fun _ _ => gives_fromInt_iff,
    fun _ _ => gives_toInt_iff, fun _ _ => fromInt_eq_ok_iff, fun _ _ => toInt_eq_ok_iff, ?checked⟩
  case symbol =>
    intro outcome
    rw [Tables.symbolGives_iff, Option.map_id_apply, symbol]
  case currency =>
    intro outcome
    rw [Tables.currencyGives_iff, Option.map_id_apply, currency]
  case checked =>
    intro hchecked
    obtain ⟨info, hinfo⟩ := exists_marginCurrency?_of_checked hchecked
    rw [Tables.volumeFromInt?, Tables.volumeToInt?, hinfo]
    exact ⟨rfl, rfl⟩

/-- A client with two symbols of one name, the first of a margin currency that
    it does not know, and with a currency whose name looks like an id. -/
def twinClient : Client Unit :=
  ⟨{}, (), ⟨[⟨1, "EURUSD", 5, 99, []⟩, ⟨2, "EURUSD", 3, 7, []⟩], [⟨7, "1", 2, 2, []⟩]⟩, true⟩

example : twinClient.priceFromInt (.byName "EURUSD") 112345 = .ok (Scaling.toFloat 112345 5) ∧
    twinClient.volumeFromInt (.byName "EURUSD") 100 = .error (.currencyNotFound (.byId 99)) ∧
    twinClient.depositFromInt (.byId 1) 100 = .error (.currencyNotFound (.byId 1)) ∧
    twinClient.depositFromInt (.byName "1") 100 = .ok (Scaling.toFloat 100 2) :=
  ⟨rfl, rfl, rfl, rfl⟩

end Client

end Brokerage
