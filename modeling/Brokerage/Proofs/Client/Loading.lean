import Brokerage.Proofs.Outcome
import Brokerage.Proofs.Remote.InPlace
import Brokerage.Proofs.Remote.Run

namespace Brokerage

/-- What the reply to the question for a table comes to: a row for each item of
    the list, in the same order, or a failure where the reply is one, is no
    list, or has an item that is not a row. -/
inductive TableReply {α : Type} (read : Json → Option α) :
    Except ClientError Json → Except ClientError (List α) → Prop where
  | unanswered (e : ClientError) : TableReply read (.error e) (.error e)
  | notList {v : Json} (hlist : v.isArray = false) : TableReply read (.ok v) (.error .undecodable)
  | badRow {items : List Json} {item : Json} (hmem : item ∈ items) (hitem : read item = none) :
    TableReply read (.ok (.array items)) (.error .undecodable)
  | rows {items : List Json} {rows : List α} (hrows : items.map read = rows.map some) :
    TableReply read (.ok (.array items)) (.ok rows)

/-- What the reply to the question for a table comes to, said item by item, is
    what decoding it gives. -/
theorem tableReply_iff {α : Type} {read : Json → Option α} {reply : Except ClientError Json}
    {outcome : Except ClientError (List α)} :
    TableReply read reply outcome ↔ Operation.decodedAnswer (Json.asList? read) reply = outcome := by
  constructor
  · intro h
    cases h with
    | unanswered e => rfl
    | @notList v hlist =>
      cases v with
      | array => cases hlist
      | _ => rfl
    | @badRow items item hmem hitem =>
      have hread : items.mapM read = none := mapM_eq_none_iff.mpr ⟨item, hmem, hitem⟩
      rw [Operation.decodedAnswer, Json.asList?, hread]
      rfl
    | @rows items rows hrows =>
      have hread : items.mapM read = some rows := mapM_eq_some_iff.mpr hrows
      rw [Operation.decodedAnswer, Json.asList?, hread]
      rfl
  · rintro rfl
    cases reply with
    | error e => exact .unanswered e
    | ok v =>
      cases v with
      | array items =>
        rw [Operation.decodedAnswer, Json.asList?]
        cases hread : items.mapM read with
        | none =>
          obtain ⟨item, hmem, hitem⟩ := mapM_eq_none_iff.mp hread
          exact .badRow hmem hitem
        | some rows => exact .rows (mapM_eq_some_iff.mp hread)
      | _ => exact .notList rfl

namespace Client

variable {τ : Type}

def symbolsQuestion : Call := ⟨"SymbolsGet", .object []⟩

def currenciesQuestion : Call := ⟨"CurrenciesGet", .object []⟩

/-- The ways in which an attempt to load the tables can go after the calls
    `made`. -/
inductive LoadRun (answers : Answers ClientError) (made : List Call) :
    Except ClientError Tables → List Call → Prop where
  | noSymbols {e : ClientError}
      (hsymbols : TableReply SymbolInfo.ofJson? (answers (made ++ [symbolsQuestion])) (.error e)) :
    LoadRun answers made (.error e) [symbolsQuestion]
  | noCurrencies {symbols : List SymbolInfo} {e : ClientError}
      (hsymbols : TableReply SymbolInfo.ofJson? (answers (made ++ [symbolsQuestion])) (.ok symbols))
      (hcurrencies :
        TableReply CurrencyInfo.ofJson? (answers (made ++ [symbolsQuestion, currenciesQuestion])) (.error e)) :
    LoadRun answers made (.error e) [symbolsQuestion, currenciesQuestion]
  | loaded {symbols : List SymbolInfo} {currencies : List CurrencyInfo}
      (hsymbols : TableReply SymbolInfo.ofJson? (answers (made ++ [symbolsQuestion])) (.ok symbols))
      (hcurrencies :
        TableReply CurrencyInfo.ofJson? (answers (made ++ [symbolsQuestion, currenciesQuestion])) (.ok currencies)) :
    LoadRun answers made (.ok ⟨symbols, currencies⟩) [symbolsQuestion, currenciesQuestion]

/-- An attempt can always go in one of the ways listed. -/
theorem exists_loadRun (answers : Answers ClientError) (made : List Call) :
    ∃ outcome sent, LoadRun answers made outcome sent := by
  cases hsymbols : Operation.decodedAnswer (Json.asList? SymbolInfo.ofJson?) (answers (made ++ [symbolsQuestion])) with
  | error e => exact ⟨_, _, .noSymbols (tableReply_iff.mpr hsymbols)⟩
  | ok symbols =>
    cases hcurrencies : Operation.decodedAnswer (Json.asList? CurrencyInfo.ofJson?)
        (answers (made ++ [symbolsQuestion, currenciesQuestion])) with
    | error e => exact ⟨_, _, .noCurrencies (tableReply_iff.mpr hsymbols) (tableReply_iff.mpr hcurrencies)⟩
    | ok currencies => exact ⟨_, _, .loaded (tableReply_iff.mpr hsymbols) (tableReply_iff.mpr hcurrencies)⟩

def askSymbols : Operation (List SymbolInfo) :=
  Operation.callAs (Json.asList? SymbolInfo.ofJson?) "SymbolsGet" (.object [])

def askCurrencies : Operation (List CurrencyInfo) :=
  Operation.callAs (Json.asList? CurrencyInfo.ofJson?) "CurrenciesGet" (.object [])

/-- Loading as it changes the client in place. The tables are written after both
    replies are in, and the mark that they are loaded after that. -/
def loadInPlace (answers : Answers ClientError) : InPlace (Client τ) Unit := do
  let c ← InPlace.current
  if c.loaded then
    return ()
  else
    let symbols ← InPlace.perform answers askSymbols
    let currencies ← InPlace.perform answers askCurrencies
    InPlace.change fun c => { c with tables := ⟨symbols, currencies⟩ }
    InPlace.change fun c => { c with loaded := true }

/-- The client that an attempt leaves: with the tables that it brought, or as it
    was. -/
def withTables (c : Client τ) : Except ClientError Tables → Client τ
  | .ok tables => { c with tables, loaded := true }
  | .error _ => c

section

variable {answers : Answers ClientError} {made sent : List Call} {outcome : Except ClientError Tables} {c : Client τ}

private theorem loadInPlace_of_loaded (hloaded : c.loaded = true) : loadInPlace answers c made = (.ok (), c, made) := by
  rw [loadInPlace, InPlace.bind_apply, InPlace.current_apply]
  simp only [hloaded, if_true, InPlace.pure_apply]

private theorem loadInPlace_of_not_loaded (hloaded : c.loaded = false) :
    loadInPlace answers c made =
      match askSymbols.run answers made with
      | (.ok symbols, made) =>
        match askCurrencies.run answers made with
        | (.ok currencies, made) => (.ok (), c.withTables (.ok ⟨symbols, currencies⟩), made)
        | (.error e, made) => (.error e, c, made)
      | (.error e, made) => (.error e, c, made) := by
  rw [loadInPlace, InPlace.bind_apply, InPlace.current_apply]
  simp only [hloaded, Bool.false_eq_true, if_false, InPlace.bind_apply, InPlace.perform_apply]
  obtain ⟨symbols, made⟩ := askSymbols.run answers made
  cases symbols with
  | error e => rfl
  | ok symbols =>
    simp only
    obtain ⟨currencies, made⟩ := askCurrencies.run answers made
    cases currencies <;> rfl

private theorem init_of_not_loaded (hloaded : c.loaded = false) :
    c.init = do
      let symbols ← askSymbols
      let currencies ← askCurrencies
      return c.withTables (.ok ⟨symbols, currencies⟩) := by
  rw [init, if_neg (by simp [hloaded])]
  rfl

/-- `init` results in the client that loading in place leaves, and sends the
    same. A failure in place may leave changes behind, which `init` could not
    show; that there are none is `loadInPlace_of_error`. -/
theorem run_init_eq_loadInPlace (answers : Answers ClientError) (c : Client τ) (made : List Call) :
    c.init.run answers made =
      ((loadInPlace answers c made).1.map fun _ => (loadInPlace answers c made).2.1,
        (loadInPlace answers c made).2.2) := by
  cases hloaded : c.loaded with
  | true =>
    rw [loadInPlace_of_loaded hloaded, init, if_pos hloaded]
    rfl
  | false =>
    rw [loadInPlace_of_not_loaded hloaded, init_of_not_loaded hloaded]
    simp only [Dialogue.run_bind]
    obtain ⟨symbols, made⟩ := askSymbols.run answers made
    cases symbols with
    | error e => rfl
    | ok symbols =>
      simp only
      obtain ⟨currencies, made⟩ := askCurrencies.run answers made
      cases currencies <;> rfl

private theorem run_askSymbols {symbols : Except ClientError (List SymbolInfo)}
    (h : TableReply SymbolInfo.ofJson? (answers (made ++ [symbolsQuestion])) symbols) :
    askSymbols.run answers made = (symbols, made ++ [symbolsQuestion]) := by
  rw [askSymbols, Operation.run_callAs]
  exact congrArg (·, made ++ [symbolsQuestion]) (tableReply_iff.mp h)

private theorem run_askCurrencies {currencies : Except ClientError (List CurrencyInfo)}
    (h : TableReply CurrencyInfo.ofJson? (answers (made ++ [symbolsQuestion, currenciesQuestion])) currencies) :
    askCurrencies.run answers (made ++ [symbolsQuestion]) =
      (currencies, made ++ [symbolsQuestion, currenciesQuestion]) := by
  have hcalls : made ++ [symbolsQuestion, currenciesQuestion] = made ++ [symbolsQuestion] ++ [currenciesQuestion] :=
    List.append_cons made symbolsQuestion [currenciesQuestion]
  rw [hcalls] at h ⊢
  rw [askCurrencies, Operation.run_callAs]
  exact congrArg (·, made ++ [symbolsQuestion] ++ [currenciesQuestion]) (tableReply_iff.mp h)

/-- Each way is how loading goes in place, on a client without tables. With
    tables there is nothing to ask for, hence the second premise. -/
theorem LoadRun.loadInPlace_eq (h : LoadRun answers made outcome sent) (hloaded : c.loaded = false) :
    loadInPlace answers c made = (outcome.map fun _ => (), c.withTables outcome, made ++ sent) := by
  rw [loadInPlace_of_not_loaded hloaded]
  cases h with
  | noSymbols hsymbols =>
    rw [run_askSymbols hsymbols]
    rfl
  | noCurrencies hsymbols hcurrencies | loaded hsymbols hcurrencies =>
    rw [run_askSymbols hsymbols]
    simp only [run_askCurrencies hcurrencies]
    rfl

end

section

variable (answers : Answers ClientError) (c : Client τ) (made : List Call)

/-- An attempt finds the tables there and does nothing, or it goes in one of the
    ways listed. -/
theorem loadInPlace_cases :
    (c.loaded = true ∧ loadInPlace answers c made = (.ok (), c, made)) ∨
    (c.loaded = false ∧ ∃ outcome sent, LoadRun answers made outcome sent ∧
      loadInPlace answers c made = (outcome.map fun _ => (), c.withTables outcome, made ++ sent)) := by
  cases hloaded : c.loaded with
  | true => exact .inl ⟨rfl, loadInPlace_of_loaded hloaded⟩
  | false =>
    obtain ⟨outcome, sent, hload⟩ := exists_loadRun answers made
    exact .inr ⟨rfl, outcome, sent, hload, hload.loadInPlace_eq hloaded⟩

/-- The client, and all calls made then, after a number of attempts to load the
    tables. -/
def afterLoads : Nat → Client τ × List Call
  | 0 => (c, made)
  | n + 1 => (loadInPlace answers (afterLoads n).1 (afterLoads n).2).2

/-- How an attempt ends that comes after a number of others. -/
def loadOutcome (n : Nat) : Except ClientError Unit :=
  (loadInPlace answers (afterLoads answers c made n).1 (afterLoads answers c made n).2).1

end

section

variable {answers : Answers ClientError} {c : Client τ} {made : List Call} {n : Nat}

/-- An attempt that fails leaves the client as it was, and its calls made.
    Writing happens in place, so that this is a fact about when the tables are
    written: after both of them have come. -/
theorem loadInPlace_of_error {e : ClientError} (h : (loadInPlace answers c made).1 = .error e) :
    (loadInPlace answers c made).2.1 = c ∧
    ∃ sent, LoadRun answers made (.error e) sent ∧ (loadInPlace answers c made).2.2 = made ++ sent := by
  obtain ⟨-, hrun⟩ | ⟨-, outcome, sent, hload, hrun⟩ := loadInPlace_cases answers c made
  · rw [hrun] at h
    cases h
  · rw [hrun] at h ⊢
    cases outcome with
    | error first =>
      cases h
      exact ⟨rfl, sent, hload, rfl⟩
    | ok tables => cases h

/-- An attempt that succeeds on a client without tables leaves it with both of
    those that it was sent. -/
theorem loadInPlace_of_ok (hloaded : c.loaded = false) (h : (loadInPlace answers c made).1 = .ok ()) :
    ∃ tables sent, LoadRun answers made (.ok tables) sent ∧ (loadInPlace answers c made).2.2 = made ++ sent ∧
      (loadInPlace answers c made).2.1 = { c with tables, loaded := true } := by
  obtain ⟨outcome, sent, hload⟩ := exists_loadRun answers made
  have hrun := hload.loadInPlace_eq hloaded
  rw [hrun] at h ⊢
  cases outcome with
  | error e => cases h
  | ok tables => exact ⟨tables, sent, hload, rfl, rfl⟩

private theorem loaded_of_loadInPlace (h : (loadInPlace answers c made).1 = .ok ()) :
    (loadInPlace answers c made).2.1.loaded = true := by
  cases hloaded : c.loaded with
  | true => rw [loadInPlace_of_loaded hloaded, hloaded]
  | false =>
    obtain ⟨tables, sent, -, -, hclient⟩ := loadInPlace_of_ok hloaded h
    rw [hclient]

/-- Attempts that fail leave the client as it was, however many there are. Only
    the first `n` have to fail; the one after them may load the tables. -/
theorem afterLoads_of_failed (h : ∀ k < n, ∃ e, loadOutcome answers c made k = .error e) :
    (afterLoads answers c made n).1 = c := by
  induction n with
  | zero => rfl
  | succ n ih =>
    obtain ⟨e, he⟩ := h n (Nat.lt_succ_self n)
    obtain ⟨hclient, -⟩ := loadInPlace_of_error he
    rw [afterLoads, hclient]
    exact ih fun k hk => h k (Nat.lt_succ_of_lt hk)

/-- Once an attempt has succeeded, all others find the tables there: they make
    no calls and change nothing, whatever the server would answer. -/
theorem afterLoads_of_loaded (h : loadOutcome answers c made n = .ok ()) (m : Nat) :
    afterLoads answers c made (n + 1 + m) = afterLoads answers c made (n + 1) ∧
      (afterLoads answers c made (n + 1 + m)).1.loaded = true := by
  induction m with
  | zero => exact ⟨rfl, loaded_of_loadInPlace h⟩
  | succ m ih =>
    obtain ⟨hsame, hloaded⟩ := ih
    have hnext : afterLoads answers c made (n + 1 + (m + 1)) = afterLoads answers c made (n + 1 + m) := by
      rw [← Nat.add_assoc, afterLoads, loadInPlace_of_loaded hloaded]
    exact ⟨hnext.trans hsame, by rw [hnext, hloaded]⟩

end

private theorem symbol_of_empty {c : Client τ} (h : c.tables = .empty) (key : LookupKey) :
    c.symbol key = .error (.symbolNotFound key) := by
  rw [symbol, h]
  rfl

private theorem currency_of_empty {c : Client τ} (h : c.tables = .empty) (key : LookupKey) :
    c.currency key = .error (.currencyNotFound key) := by
  rw [currency, h]
  rfl

/-- Of any series of attempts on a new client, those before the first success
    leave it new, the first success gives it the two tables that this attempt
    was sent, and those after do nothing. The client that an attempt leaves is
    the one that `init` results in. -/
theorem loads_allOrNothing (settings : Settings) (channel : τ) (answers : Answers ClientError) (made : List Call)
    (n : Nat) :
    let client := fun k => (afterLoads answers (create settings channel) made k).1
    let calls := fun k => (afterLoads answers (create settings channel) made k).2
    let outcome := loadOutcome answers (create settings channel) made
    (client n).init.run answers (calls n) = ((outcome n).map fun _ => client (n + 1), calls (n + 1)) ∧
    ((∀ k < n, ∃ e, outcome k = .error e) →
      client n = create settings channel ∧ (client n).tables = .empty ∧
      ∀ key, (client n).symbol key = .error (.symbolNotFound key) ∧
        (client n).currency key = .error (.currencyNotFound key)) ∧
    (∀ e, outcome n = .error e →
      client (n + 1) = client n ∧
      ∃ sent, LoadRun answers (calls n) (.error e) sent ∧ calls (n + 1) = calls n ++ sent) ∧
    ((∀ k < n, ∃ e, outcome k = .error e) → outcome n = .ok () →
      ∃ tables sent, LoadRun answers (calls n) (.ok tables) sent ∧ calls (n + 1) = calls n ++ sent ∧
        client (n + 1) = { create settings channel with tables, loaded := true }) ∧
    (outcome n = .ok () →
      ∀ k > n, outcome k = .ok () ∧ client k = client (n + 1) ∧ calls k = calls (n + 1)) := by
  intro client calls outcome
  refine ⟨run_init_eq_loadInPlace answers (client n) (calls n), ?new, ?failed, ?first, ?later⟩
  case new =>
    intro hfailed
    have hclient : client n = create settings channel := afterLoads_of_failed hfailed
    have htables : (client n).tables = .empty := by rw [hclient, create]
    exact ⟨hclient, htables, fun key => ⟨symbol_of_empty htables key, currency_of_empty htables key⟩⟩
  case failed =>
    intro e he
    exact loadInPlace_of_error he
  case first =>
    intro hfailed hok
    have hclient : client n = create settings channel := afterLoads_of_failed hfailed
    have hloaded : (client n).loaded = false := by rw [hclient, create]
    rw [← hclient]
    exact loadInPlace_of_ok hloaded hok
  case later =>
    intro hok k hk
    obtain ⟨m, rfl⟩ : ∃ m, k = n + 1 + m := ⟨k - (n + 1), by omega⟩
    obtain ⟨hsame, hloaded⟩ := afterLoads_of_loaded hok m
    have hoc : outcome (n + 1 + m) = .ok () := congrArg Prod.fst (loadInPlace_of_loaded hloaded)
    exact ⟨hoc, congrArg Prod.fst hsame, congrArg Prod.snd hsame⟩

-- The first attempt gets its symbols but no currencies, and the second starts anew with both questions.
example (settings : Settings) (channel : τ) :
    let answers : Answers ClientError := fun made => if made.length = 2 then .error .undecodable else .ok (.array [])
    let fresh := create settings channel
    afterLoads answers fresh [] 1 = (fresh, [symbolsQuestion, currenciesQuestion]) ∧
      afterLoads answers fresh [] 3 = ({ fresh with loaded := true },
        [symbolsQuestion, currenciesQuestion, symbolsQuestion, currenciesQuestion]) :=
  ⟨rfl, rfl⟩

end Client
end Brokerage
