import Brokerage.Client.Basic

namespace Brokerage

/-- Steps on a state, against a server: how they end, the state as they leave
    it, and all calls made then. What a step has written stays written when a
    later one fails; so whether a failure leaves the state alone can be asked of
    them, and is not settled by their form. -/
def InPlace (σ α : Type) : Type :=
  σ → List Call → Except ClientError α × σ × List Call

namespace InPlace

variable {σ ρ α β : Type}

instance : Monad (InPlace σ) where
  pure a := fun s made => (.ok a, s, made)
  bind steps next := fun s made =>
    match steps s made with
    | (.ok a, s, made) => next a s made
    | (.error e, s, made) => (.error e, s, made)

def current : InPlace σ σ := fun s made => (.ok s, s, made)

def change (f : σ → σ) : InPlace σ Unit := fun s made => (.ok (), f s, made)

/-- An operation that does not touch the state. -/
def perform (answers : Answers ClientError) (op : Operation α) : InPlace σ α := fun s made =>
  let (outcome, made) := op.run answers made
  (outcome, s, made)

/-- Steps on a state of their own, which is the result. -/
def within (start : ρ) (steps : InPlace ρ Unit) : InPlace σ ρ := fun s made =>
  let (outcome, own, made) := steps start made
  (outcome.map fun _ => own, s, made)

/-- Steps go on from the state and the calls that the first part leaves, and end
    there if it fails. -/
theorem bind_apply (steps : InPlace σ α) (next : α → InPlace σ β) (s : σ) (made : List Call) :
    (steps >>= next) s made =
      match steps s made with
      | (.ok a, s, made) => next a s made
      | (.error e, s, made) => (.error e, s, made) :=
  rfl

@[simp] theorem pure_apply (a : α) (s : σ) (made : List Call) :
    (pure a : InPlace σ α) s made = (.ok a, s, made) :=
  rfl

@[simp] theorem current_apply (s : σ) (made : List Call) : (current : InPlace σ σ) s made = (.ok s, s, made) :=
  rfl

@[simp] theorem perform_apply (answers : Answers ClientError) (op : Operation α) (s : σ) (made : List Call) :
    perform answers op s made = ((op.run answers made).1, s, (op.run answers made).2) :=
  rfl

@[simp] theorem within_apply (start : ρ) (steps : InPlace ρ Unit) (s : σ) (made : List Call) :
    (within start steps : InPlace σ ρ) s made =
      ((steps start made).1.map fun _ => (steps start made).2.1, s, (steps start made).2.2) :=
  rfl

@[simp] theorem change_apply (f : σ → σ) (s : σ) (made : List Call) : change f s made = (.ok (), f s, made) :=
  rfl

end InPlace

end Brokerage
