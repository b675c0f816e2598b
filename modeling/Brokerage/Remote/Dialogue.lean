import Brokerage.Json.Basic

namespace Brokerage

/-- A call of a remote method. -/
structure Call where
  method : String
  params : Json
deriving DecidableEq

/-- A computation that has ended, or that makes a call and goes on with the
    answer or the failure. It says what is sent and in which order; the answers
    come from outside. -/
inductive Dialogue (ε α : Type) where
  | done (outcome : Except ε α)
  | ask (call : Call) (next : Except ε Json → Dialogue ε α)

/-- What answers calls: the calls made so far, the present one last, decide the
    answer. -/
abbrev Answers (ε : Type) := List Call → Except ε Json

namespace Dialogue

variable {ε α β : Type}

/-- A computation with a result and no calls. -/
def result (a : α) : Dialogue ε α := .done (.ok a)

/-- A computation that fails at once. -/
def fail (e : ε) : Dialogue ε α := .done (.error e)

/-- Goes on after a result; a failure ends the whole. -/
def bind : Dialogue ε α → (α → Dialogue ε β) → Dialogue ε β
  | done (.ok a), f => f a
  | done (.error e), _ => done (.error e)
  | ask call next, f => ask call fun answer => (next answer).bind f

instance : Monad (Dialogue ε) where
  pure := result
  bind := bind

/-- One call, with its answer as the result. -/
def call (method : String) (params : Json) : Dialogue ε Json :=
  .ask ⟨method, params⟩ .done

/-- A computation without calls. -/
def ofExcept (outcome : Except ε α) : Dialogue ε α := .done outcome

/-- Runs a dialogue after the calls `made`: its outcome, and all calls made
    then. -/
def run (answers : Answers ε) (made : List Call) : Dialogue ε α → Except ε α × List Call
  | done outcome => (outcome, made)
  | ask call next => (next (answers (made ++ [call]))).run answers (made ++ [call])

end Dialogue

end Brokerage
