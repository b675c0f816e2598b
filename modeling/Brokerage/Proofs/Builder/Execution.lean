import Brokerage.Proofs.Outcome
import Brokerage.Proofs.Remote.Run
import Mathlib.Data.List.Induction

namespace Brokerage

/-- Executing a document is one call with it, and the rows are what the call
    brings. -/
theorem Document.run_execute {ε : Type} (d : Document) (answers : Answers ε) (made : List Call) :
    d.execute.run answers made =
      ((answers (made ++ [⟨searchMethod, d.toParams⟩])).map ResultSet.mk, made ++ [⟨searchMethod, d.toParams⟩]) := by
  rw [execute, Dialogue.run_bind, Dialogue.run_call]
  cases answers (made ++ [⟨searchMethod, d.toParams⟩]) <;> rfl

namespace Builder

section

variable {ε : Type} (wrap : SearchError → ε)

/-- Executing a search that compiles is executing its document. How errors of
    compiling are wrapped has no influence then. -/
theorem execute_of_compile_ok {b : Builder} {d : Document} (h : b.compile = .ok d) : b.execute wrap = d.execute := by
  rw [execute, h]

/-- Executing a search that does not compile is its error and no call, so that
    nothing of it reaches the server. -/
theorem execute_of_compile_error {b : Builder} {e : SearchError} (h : b.compile = .error e) :
    b.execute wrap = .fail (wrap e) := by
  rw [execute, h]

/-- Compiles the search first, and then executes the document. -/
def executeCompiled (b : Builder) : Dialogue ε ResultSet := do
  let document ← Dialogue.ofExcept (b.compile.mapError wrap)
  document.execute

/-- Compiling first and then executing the document is the same dialogue. -/
theorem executeCompiled_eq (b : Builder) : b.executeCompiled wrap = b.execute wrap := by
  rw [executeCompiled, execute]
  cases b.compile <;> rfl

end

/-- What is done with a search: it is compiled and the document kept, it is
    executed, or the document that was kept is executed, one compiled now if
    none was. -/
inductive Use where
  | compile
  | execute
  | executeKept

def Use.executes : Use → Bool
  | compile => false
  | execute | executeKept => true

/-- The document kept, the outcomes so far and all calls made so far. -/
structure Session (ε : Type) where
  kept : Option Document
  outcomes : List (Except ε ResultSet)
  made : List Call

namespace Session

variable {ε : Type}

/-- Nothing is kept after the calls `made`. -/
def start (made : List Call) : Session ε :=
  ⟨none, [], made⟩

def perform (answers : Answers ε) (s : Session ε) (d : Dialogue ε ResultSet) : Session ε :=
  { s with outcomes := s.outcomes ++ [(d.run answers s.made).1], made := (d.run answers s.made).2 }

def next (wrap : SearchError → ε) (answers : Answers ε) (b : Builder) (s : Session ε) : Use → Session ε
  | .compile => { s with kept := b.compile.toOption }
  | .execute => s.perform answers (b.execute wrap)
  | .executeKept =>
    match s.kept with
    | some document => s.perform answers document.execute
    | none => { s with kept := b.compile.toOption }.perform answers (b.executeCompiled wrap)

def after (wrap : SearchError → ε) (answers : Answers ε) (b : Builder) (s : Session ε) (uses : List Use) : Session ε :=
  uses.foldl (next wrap answers b) s

/-- The same dialogue so many times over. -/
def performed (answers : Answers ε) (s : Session ε) (d : Dialogue ε ResultSet) : Nat → Session ε
  | 0 => s
  | n + 1 => (s.performed answers d n).perform answers d

/-- A failure without a call may be had any number of times. -/
theorem performed_fail (answers : Answers ε) (s : Session ε) (e : ε) (n : Nat) :
    s.performed answers (.fail e) n = { s with outcomes := s.outcomes ++ List.replicate n (.error e) } := by
  induction n with
  | zero => simp [performed]
  | succ n ih => simp [performed, ih, perform, List.replicate_succ']

/-- Each time the document is sent once more, and what comes back may differ
    from time to time. -/
theorem performed_execute (answers : Answers ε) (s : Session ε) (d : Document) (n : Nat) :
    s.performed answers d.execute n =
      { s with
        outcomes := s.outcomes ++ (List.range n).map fun k =>
          (answers (s.made ++ List.replicate (k + 1) ⟨searchMethod, d.toParams⟩)).map ResultSet.mk
        made := s.made ++ List.replicate n ⟨searchMethod, d.toParams⟩ } := by
  induction n with
  | zero => simp [performed]
  | succ n ih =>
    rw [performed, ih, perform, Document.run_execute]
    simp only [List.append_assoc, ← List.replicate_succ', List.range_succ, List.map_append, List.map_cons, List.map_nil]

/-- A document that is kept is the one the search compiles to. -/
def KeepsCompiled (b : Builder) (s : Session ε) : Prop :=
  ∀ d, s.kept = some d → b.compile = .ok d

section

variable (wrap : SearchError → ε) (answers : Answers ε) {b : Builder} {s : Session ε}

private theorem keepsCompiled_start (made : List Call) : (start made : Session ε).KeepsCompiled b := by
  intro d hd
  cases hd

private theorem eq_ok_of_toOption {d : Document} (h : b.compile.toOption = some d) : b.compile = .ok d := by
  cases hcompile : b.compile with
  | error e =>
    rw [hcompile] at h
    cases h
  | ok d' =>
    rw [hcompile] at h
    cases h
    rfl

/-- No use of a search keeps a document other than the one that it compiles
    to. -/
theorem KeepsCompiled.next (h : s.KeepsCompiled b) (use : Use) : (s.next wrap answers b use).KeepsCompiled b := by
  intro d hd
  cases use with
  | compile => exact eq_ok_of_toOption hd
  | execute => exact h d hd
  | executeKept =>
    rw [Session.next] at hd
    cases hkept : s.kept with
    | some kept =>
      rw [hkept] at hd
      exact h d hd
    | none =>
      rw [hkept] at hd
      exact eq_ok_of_toOption hd

/-- Whatever is executed, the search is: a document that was kept is the one it
    compiles to now. -/
theorem KeepsCompiled.next_executes (h : s.KeepsCompiled b) {use : Use} (huse : use.executes = true) :
    (s.next wrap answers b use).outcomes = s.outcomes ++ [((b.execute wrap).run answers s.made).1] ∧
      (s.next wrap answers b use).made = ((b.execute wrap).run answers s.made).2 := by
  cases use with
  | compile => cases huse
  | execute => exact ⟨rfl, rfl⟩
  | executeKept =>
    rw [Session.next]
    cases hkept : s.kept with
    | some kept =>
      rw [execute_of_compile_ok wrap (h kept hkept)]
      exact ⟨rfl, rfl⟩
    | none =>
      rw [executeCompiled_eq]
      exact ⟨rfl, rfl⟩

private theorem next_of_not_executes {use : Use} (huse : ¬use.executes = true) :
    (s.next wrap answers b use).outcomes = s.outcomes ∧ (s.next wrap answers b use).made = s.made := by
  cases use with
  | compile => exact ⟨rfl, rfl⟩
  | execute | executeKept => exact absurd rfl huse

private theorem after_concat (uses : List Use) (use : Use) :
    s.after wrap answers b (uses ++ [use]) = (s.after wrap answers b uses).next wrap answers b use :=
  List.foldl_append

/-- The document kept is the compiled one after any number of uses. By the
    premise it is so before them; no use changes the search, and compiling it
    again gives the same. -/
theorem KeepsCompiled.after (h : s.KeepsCompiled b) (uses : List Use) :
    (s.after wrap answers b uses).KeepsCompiled b := by
  induction uses using List.reverseRecOn with
  | nil => exact h
  | append_singleton uses use ih =>
    rw [after_concat]
    exact ih.next wrap answers use

/-- Compiling in between and keeping documents makes no difference to what is
    sent and what comes back. -/
theorem KeepsCompiled.after_eq_performed (h : s.KeepsCompiled b) (uses : List Use) :
    (s.after wrap answers b uses).outcomes =
        (s.performed answers (b.execute wrap) (uses.countP Use.executes)).outcomes ∧
      (s.after wrap answers b uses).made =
        (s.performed answers (b.execute wrap) (uses.countP Use.executes)).made := by
  induction uses using List.reverseRecOn with
  | nil => exact ⟨rfl, rfl⟩
  | append_singleton uses use ih =>
    obtain ⟨houtcomes, hmade⟩ := ih
    rw [after_concat, List.countP_append, List.countP_singleton]
    by_cases huse : use.executes = true
    · obtain ⟨houtcomes', hmade'⟩ := (h.after wrap answers uses).next_executes wrap answers huse
      rw [if_pos huse, houtcomes', hmade', houtcomes, hmade]
      exact ⟨rfl, rfl⟩
    · obtain ⟨houtcomes', hmade'⟩ := next_of_not_executes wrap answers (s := s.after wrap answers b uses) huse
      rw [if_neg huse, houtcomes', hmade', houtcomes, hmade]
      exact ⟨rfl, rfl⟩

end

end Session

/-- Executing a search sends the document that it compiles to, once, and gives
    back what the call does. A search that does not compile is not sent.
    Compiling first and executing the document is the same, and so it is each
    time, whatever is done with the search in between. The server may answer the
    same document differently each time. -/
theorem execute_sends_compiled {ε : Type} (wrap : SearchError → ε) (answers : Answers ε) (b : Builder)
    (made : List Call) :
    (∀ e, b.compile = .error e →
      (b.execute wrap).run answers made = (.error (wrap e), made) ∧
      ∀ uses : List Use,
        ((Session.start made).after wrap answers b uses).made = made ∧
        ((Session.start made).after wrap answers b uses).outcomes =
          List.replicate (uses.countP Use.executes) (.error (wrap e))) ∧
    (∀ d, b.compile = .ok d →
      ((b.execute wrap).run answers made).2 = made ++ [⟨"Search", d.toParams⟩] ∧
      (∀ e, answers (made ++ [⟨"Search", d.toParams⟩]) = .error e →
        ((b.execute wrap).run answers made).1 = .error e) ∧
      (∀ v, answers (made ++ [⟨"Search", d.toParams⟩]) = .ok v →
        ∃ rows, ((b.execute wrap).run answers made).1 = .ok rows ∧ rows.raw = v) ∧
      d.execute.run answers made = (b.execute wrap).run answers made ∧
      ∀ uses : List Use,
        ((Session.start made).after wrap answers b uses).made =
          made ++ List.replicate (uses.countP Use.executes) ⟨"Search", d.toParams⟩ ∧
        ((Session.start made).after wrap answers b uses).outcomes =
          (List.range (uses.countP Use.executes)).map fun k =>
            (answers (made ++ List.replicate (k + 1) ⟨"Search", d.toParams⟩)).map ResultSet.mk) ∧
    (b.executeCompiled wrap).run answers made = (b.execute wrap).run answers made := by
  have hkept : (Session.start made : Session ε).KeepsCompiled b := Session.keepsCompiled_start made
  refine ⟨fun e he => ⟨?_, fun uses => ?_⟩, fun d hd => ?_, ?_⟩
  · rw [execute_of_compile_error wrap he, Dialogue.run_fail]
  · obtain ⟨houtcomes, hmade⟩ := hkept.after_eq_performed wrap answers uses
    rw [houtcomes, hmade, execute_of_compile_error wrap he, Session.performed_fail]
    exact ⟨rfl, rfl⟩
  · rw [execute_of_compile_ok wrap hd, Document.run_execute]
    refine ⟨rfl, fun e he => ?_, fun v hv => ?_, rfl, fun uses => ?_⟩
    · exact map_eq_error_iff.mpr he
    · exact ⟨⟨v⟩, map_eq_ok_iff.mpr ⟨v, hv, rfl⟩, rfl⟩
    · obtain ⟨houtcomes, hmade⟩ := hkept.after_eq_performed wrap answers uses
      rw [houtcomes, hmade, execute_of_compile_ok wrap hd, Session.performed_execute]
      exact ⟨rfl, rfl⟩
  · rw [executeCompiled_eq]

/-- The tickets of all orders. -/
def tickets : Builder :=
  (new.inContext "Orders").column "Ticket"

def ticketsDocument : Document :=
  ⟨"Orders", [.column "Ticket"], Predicate.everyRow, none, none, none, none, none, false⟩

/-- The server answers the first call with something other than rows, and is
    busy after that. -/
def busyServer : Answers (SearchError ⊕ String) := fun calls =>
  if calls.length = 1 then .ok (.string "closed") else .error (.inr "busy")

theorem execute_sends_compiled_tickets :
    tickets.compile = .ok ticketsDocument ∧
    (tickets.execute Sum.inl).run busyServer [] = (.ok ⟨.string "closed"⟩, [⟨"Search", ticketsDocument.toParams⟩]) ∧
    ((Session.start []).after Sum.inl busyServer tickets [.executeKept, .compile, .execute, .executeKept]).made =
      List.replicate 3 ⟨"Search", ticketsDocument.toParams⟩ ∧
    ((Session.start []).after Sum.inl busyServer tickets [.executeKept, .compile, .execute, .executeKept]).outcomes =
      [.ok ⟨.string "closed"⟩, .error (.inr "busy"), .error (.inr "busy")] ∧
    tickets.whereClose.compile = .error (.malformedGrouping 0 .closeWithoutOpen) ∧
    ((Session.start []).after Sum.inl busyServer tickets.whereClose [.execute, .compile, .executeKept]).made = [] ∧
    ((Session.start []).after Sum.inl busyServer tickets.whereClose [.execute, .compile, .executeKept]).outcomes =
      List.replicate 2 (.error (.inl (.malformedGrouping 0 .closeWithoutOpen))) := by
  have hcompile : tickets.compile = .ok ticketsDocument := rfl
  have herror : tickets.whereClose.compile = .error (.malformedGrouping 0 .closeWithoutOpen) := rfl
  obtain ⟨-, hok, -⟩ := execute_sends_compiled Sum.inl busyServer tickets []
  obtain ⟨hcall, -, hrows, -, hall⟩ := hok ticketsDocument hcompile
  obtain ⟨⟨raw⟩, hrows, rfl⟩ := hrows (.string "closed") rfl
  obtain ⟨hmade, houtcomes⟩ := hall [.executeKept, .compile, .execute, .executeKept]
  obtain ⟨hfail, -⟩ := execute_sends_compiled Sum.inl busyServer tickets.whereClose []
  obtain ⟨-, hnone⟩ := hfail _ herror
  obtain ⟨hmade', houtcomes'⟩ := hnone [.execute, .compile, .executeKept]
  exact ⟨hcompile, Prod.ext hrows hcall, hmade, houtcomes, herror, hmade', houtcomes'⟩

end Builder

end Brokerage
