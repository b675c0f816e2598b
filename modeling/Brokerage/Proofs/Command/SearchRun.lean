import Brokerage.Command.Run
import Brokerage.Proofs.Builder.Execution
import Brokerage.Proofs.Client.Loading
import Brokerage.Proofs.Command.ClauseText
import Brokerage.Proofs.Command.SearchDocument
import Brokerage.Proofs.Json.Parsed
import Brokerage.Proofs.Record.SearchDocument

namespace Brokerage

open Client (symbolsQuestion currenciesQuestion)

private theorem SearchFlags.sortedValues_of_toBuilder {f : SearchFlags} {b : Builder} (h : f.toBuilder = .ok b) :
    Predicate.SortedValues b.entries := by
  obtain ⟨computed, clauses, hwrites, rfl⟩ := toBuilder_eq_ok_iff.mp h
  rw [after_setters_eq]
  intro c hc
  obtain ⟨entry, hentry, hcondition⟩ := List.mem_filterMap.mp hc
  obtain ⟨clause, hclause, rfl⟩ := List.mem_map.mp hentry
  obtain ⟨filter, -, hparse⟩ := exists_mem_of_forall₂ hwrites.clauses hclause
  cases clause with
  | condition connective column operator value =>
    cases hcondition
    exact Clause.isSorted_of_parse hparse
  | opening | closing => cases hcondition

namespace Builder

section

variable {b : Builder} (answers : Answers ClientError) (made : List Call)

end

end Builder

section

variable {settings : Settings} {answers : Answers ClientError} {calls : List Call}
variable (operation : Client Http.Channel → Operation Json)

end

namespace SearchFlags

/-- The document for the flags, or what is wrong with them. -/
def compile (f : SearchFlags) : Except CommandError Document := do
  let b ← f.toBuilder.mapError .clause
  b.compile.mapError .search

section

variable {f : SearchFlags}

private theorem compile_eq_ok_iff {d : Document} : f.compile = .ok d ↔ ∃ b, f.toBuilder = .ok b ∧ b.compile = .ok d := by
  simp only [compile, bind_eq_ok_iff, mapError_eq_ok_iff]

/-- The document can be read back from what is sent. What is sent is sorted by
    name, and the values of the clauses come from texts, so that their names are
    sorted already. -/
private theorem ofJson?_toParams_of_compile {d : Document} (h : f.compile = .ok d) : Document.ofJson? d.toParams = some d := by
  obtain ⟨b, hb, hcompile⟩ := compile_eq_ok_iff.mp h
  exact Builder.ofJson?_toParams_of_compile (sortedValues_of_toBuilder hb) hcompile

end

end SearchFlags

section

variable {settings : Settings} {answers : Answers ClientError} {f : SearchFlags} {outcome : Except CommandError Json}
variable {calls : List Call}

end

namespace Invocation

/-- What an invocation comes to, before it is reported, and the requests
    made. -/
def outcome (i : Invocation) (env : Settings.Environment) (files : Settings.Files) (ids : Nat → String)
    (server : Http.Server) : Except CommandError Json × List Http.Request :=
  match i.plan env files with
  | .ok plan => plan.run ids server
  | .error e => (.error e, [])

section

variable {env : Settings.Environment} {files : Settings.Files} {ids : Nat → String} {server : Http.Server}

end

end Invocation

end Brokerage
