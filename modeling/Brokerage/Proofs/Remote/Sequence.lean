import Brokerage.Proofs.Remote.Run

namespace Brokerage

/-- The first call that fails is the last one made, and its error is the
    outcome. -/
def StopsAtFailure {ε α : Type} (answers : Answers ε) (made sent : List Call) (outcome : Except ε α) : Prop :=
  ∀ before call after e, sent = before ++ call :: after → answers (made ++ before ++ [call]) = .error e →
    after = [] ∧ outcome = .error e

section

variable {ε α : Type} {answers : Answers ε} {made sent : List Call} {call : Call} {outcome : Except ε α}

private theorem stopsAtFailure_nil : StopsAtFailure answers made [] outcome := by
  intro before call after e hsent
  simp at hsent

private theorem stopsAtFailure_singleton {e : ε} (hreply : answers (made ++ [call]) = .error e) :
    StopsAtFailure answers made [call] (.error e : Except ε α) := by
  intro before other after e' hsent hother
  obtain ⟨rfl, rfl, rfl⟩ : before = [] ∧ call = other ∧ after = [] := by
    cases before with
    | nil => simpa using hsent
    | cons => simp at hsent
  rw [List.append_nil, hreply] at hother
  cases hother
  exact ⟨rfl, rfl⟩

private theorem StopsAtFailure.cons {v : Json} (hreply : answers (made ++ [call]) = .ok v)
    (h : StopsAtFailure answers (made ++ [call]) sent outcome) :
    StopsAtFailure answers made (call :: sent) outcome := by
  intro before other after e hsent hother
  cases before with
  | nil =>
    obtain ⟨rfl, -⟩ : call = other ∧ sent = after := by simpa using hsent
    rw [List.append_nil, hreply] at hother
    cases hother
  | cons first before =>
    obtain ⟨rfl, hrest⟩ : call = first ∧ sent = before ++ other :: after := by simpa using hsent
    apply h before other after e hrest
    simpa only [List.append_assoc, List.singleton_append] using hother

end

namespace Dialogue

variable {ε α β : Type}

/-- The dialogue calls these methods in this order, and has a result only after
    the last of them. It may fail at any point, and it fails with every call
    that does. -/
inductive Follows : List String → Dialogue ε α → Prop where
  | result (a : α) : Follows [] (.done (.ok a))
  | fail (methods : List String) (e : ε) : Follows methods (.done (.error e))
  | ask {call : Call} {methods : List String} {next : Except ε Json → Dialogue ε α}
      (hfail : ∀ e, next (.error e) = .done (.error e)) (hnext : ∀ v, Follows methods (next (.ok v))) :
      Follows (call.method :: methods) (.ask call next)

/-- An outcome without a call follows no method. -/
theorem Follows.ofExcept (outcome : Except ε α) : Follows [] (ofExcept outcome) := by
  cases outcome with
  | ok a => exact .result a
  | error e => exact .fail [] e

/-- A single call follows its method: it is the last one made, and fails if its
    answer does. -/
theorem Follows.call (method : String) (params : Json) :
    Follows [method] (call method params : Dialogue ε Json) :=
  @Follows.ask ε Json ⟨method, params⟩ [] .done (fun _ => rfl) .result

/-- Dialogues one after the other follow their methods one after the other,
    whatever the second does with the result of the first. -/
theorem Follows.bind {d : Dialogue ε α} {f : α → Dialogue ε β} {methods others : List String}
    (hd : Follows methods d) (hf : ∀ a, Follows others (f a)) : Follows (methods ++ others) (d >>= f) := by
  induction hd with
  | result a => exact hf a
  | fail methods e => exact .fail (methods ++ others) e
  | ask hfail _ ih =>
    refine .ask (fun e => ?_) ih
    rw [hfail]
    rfl

/-- Every run of a dialogue that follows methods calls a beginning of them, all
    of them if it has a result, and no further one once a call has failed. -/
theorem Follows.run {d : Dialogue ε α} {methods : List String} (h : Follows methods d) (answers : Answers ε)
    (made : List Call) :
    ∃ outcome sent, d.run answers made = (outcome, made ++ sent) ∧ StopsAtFailure answers made sent outcome ∧
      sent.map Call.method <+: methods ∧ ((∃ a, outcome = .ok a) → sent.map Call.method = methods) := by
  induction h generalizing made with
  | result a => exact ⟨.ok a, [], by simp, stopsAtFailure_nil, List.nil_prefix, fun _ => rfl⟩
  | fail methods e => exact ⟨.error e, [], by simp, stopsAtFailure_nil, List.nil_prefix, by simp⟩
  | @ask call methods next hfail _ ih =>
    rw [Dialogue.run]
    cases hreply : answers (made ++ [call]) with
    | error e =>
      rw [hfail]
      refine ⟨.error e, [call], rfl, stopsAtFailure_singleton hreply, ?_, by simp⟩
      exact ⟨methods, rfl⟩
    | ok v =>
      obtain ⟨outcome, sent, hrun, hstops, hsent, hall⟩ := ih v (made ++ [call])
      rw [List.append_assoc, List.singleton_append] at hrun
      refine ⟨outcome, call :: sent, hrun, hstops.cons hreply, ?_, fun hresult => ?_⟩
      · rw [List.map_cons]
        exact List.cons_prefix_cons.mpr ⟨rfl, hsent⟩
      · rw [List.map_cons, hall hresult]

end Dialogue

end Brokerage
