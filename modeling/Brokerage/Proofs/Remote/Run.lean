import Brokerage.Client.Basic

namespace Brokerage

namespace Dialogue

variable {ε α β : Type} (answers : Answers ε) (made : List Call)

@[simp] theorem run_done (outcome : Except ε α) : (done outcome).run answers made = (outcome, made) := rfl

@[simp] theorem run_result (a : α) : (result a).run answers made = (.ok a, made) := rfl

@[simp] theorem run_pure (a : α) : (pure a : Dialogue ε α).run answers made = (.ok a, made) := rfl

@[simp] theorem run_fail (e : ε) : (fail e : Dialogue ε α).run answers made = (.error e, made) := rfl

@[simp] theorem run_ofExcept (outcome : Except ε α) : (ofExcept outcome).run answers made = (outcome, made) := rfl

@[simp] theorem run_call (method : String) (params : Json) :
    (call method params).run answers made = (answers (made ++ [⟨method, params⟩]), made ++ [⟨method, params⟩]) := rfl

/-- A dialogue goes on after the calls of its first part with the result of it,
    and ends there if that part fails. -/
theorem run_bind (d : Dialogue ε α) (f : α → Dialogue ε β) :
    (d >>= f).run answers made =
      match d.run answers made with
      | (.ok a, made) => (f a).run answers made
      | (.error e, made) => (.error e, made) := by
  induction d generalizing made with
  | done outcome => cases outcome <;> rfl
  | ask call next ih => exact ih _ _

section

variable {answers made} {d : Dialogue ε α} {outcome outcome' : Except ε α} {sent sent' : List Call}

/-- A run has one outcome and one sequence of calls. With the run known it can
    be compared with any other description of it, part by part. -/
theorem run_eq_iff (h : d.run answers made = (outcome, made ++ sent)) :
    d.run answers made = (outcome', made ++ sent') ↔ outcome' = outcome ∧ sent' = sent := by
  rw [h, Prod.mk.injEq, List.append_cancel_left_eq, eq_comm, @eq_comm _ sent]

/-- A run that can go in one of several ways, each with an outcome and calls of
    its own, goes in exactly one. That some way is always open has to be shown
    for each dialogue; that the ways exclude each other then follows. -/
theorem way_iff_run_eq {Way : Except ε α → List Call → Prop} (hexists : ∃ outcome sent, Way outcome sent)
    (hrun : ∀ outcome sent, Way outcome sent → d.run answers made = (outcome, made ++ sent)) :
    Way outcome sent ↔ d.run answers made = (outcome, made ++ sent) := by
  refine ⟨hrun outcome sent, fun h => ?_⟩
  obtain ⟨_, _, hway⟩ := hexists
  obtain ⟨rfl, rfl⟩ := (run_eq_iff h).mp (hrun _ _ hway)
  exact hway

end

end Dialogue

namespace Operation

variable {α : Type}

/-- The record that an answer has to write. -/
def decodedAnswer (read : Json → Option α) : Except ClientError Json → Except ClientError α
  | .ok v => (read v).elim (.error .undecodable) .ok
  | .error e => .error e

/-- An answer has a record exactly if it is no failure and writes such a
    record. -/
theorem decodedAnswer_eq_ok_iff {read : Json → Option α} {reply : Except ClientError Json} {a : α} :
    decodedAnswer read reply = .ok a ↔ ∃ v, reply = .ok v ∧ read v = some a := by
  cases reply with
  | error e => simp [decodedAnswer]
  | ok v => cases hread : read v <;> simp [decodedAnswer, hread]

/-- A call for a record sends the call once, and fails if the answer is a
    failure or does not write such a record. -/
theorem run_callAs (read : Json → Option α) (method : String) (params : Json) (answers : Answers ClientError)
    (made : List Call) :
    (callAs read method params).run answers made =
      (decodedAnswer read (answers (made ++ [⟨method, params⟩])), made ++ [⟨method, params⟩]) := by
  rw [callAs, Dialogue.run_bind, Dialogue.run_call]
  cases answers (made ++ [⟨method, params⟩]) with
  | error e => rfl
  | ok v =>
    simp only [decoded, decodedAnswer]
    cases read v <;> rfl

end Operation

theorem Client.found_eq_ok_iff {α : Type} {e : ClientError} {row : Option α} {a : α} :
    found e row = .ok a ↔ row = some a := by
  cases row <;> simp [found]

end Brokerage
