import Brokerage.Http.Exchange
import Brokerage.Proofs.Remote.Run

namespace Brokerage

theorem Json.isNull_eq_false_iff {v : Json} : v.isNull = false ↔ v ≠ .null := by
  cases v <;> simp [isNull]

namespace Http

/-- The reply reports the error: it is an object with a member for it, which is
    not null. -/
def ReportsError (reply error : Json) : Prop :=
  reply.get? "error" = some error ∧ error ≠ .null

/-- The reply brings the result: it is an object with a member for it, and its
    error is left out or null. -/
def BringsResult (reply v : Json) : Prop :=
  ∃ members, reply = .object members ∧ members.lookup "result" = some v ∧
    (members.lookup "error" = none ∨ members.lookup "error" = some .null)

variable {reply error v : Json}

private theorem ReportsError.unique {other : Json} (h : ReportsError reply error) (hother : ReportsError reply other) :
    other = error :=
  Option.some.inj (hother.1.symm.trans h.1)

theorem ReportsError.exists_object (h : ReportsError reply error) :
    ∃ members, reply = .object members ∧ members.lookup "error" = some error := by
  cases reply with
  | object members => exact ⟨members, rfl, h.1⟩
  | _ => cases h.1

/-- The look at a failed reply finds an error exactly where the reply reports
    one. -/
theorem carriesError_iff : Channel.carriesError reply = true ↔ ∃ error, ReportsError reply error := by
  unfold Channel.carriesError ReportsError
  cases reply.get? "error" with
  | none => simp
  | some error => simp [Json.isNull_eq_false_iff]

/-- A reply that reports an error is decoded to that error, a result beside it
    notwithstanding. -/
theorem ReportsError.decode_eq (h : ReportsError reply error) :
    ReplyEnvelope.decode reply = .error (.server (ReplyEnvelope.payload error)) := by
  obtain ⟨members, rfl, hlookup⟩ := h.exists_object
  have hne := h.2
  rw [ReplyEnvelope.decode, hlookup]
  cases error with
  | null => contradiction
  | _ => rfl

/-- Without an error a reply has its result or fails as something other than an
    error of the server. -/
theorem decode_of_not_reportsError (h : ∀ error, ¬ReportsError reply error) :
    (∃ v, BringsResult reply v ∧ ReplyEnvelope.decode reply = .ok v) ∨
      (∀ v, ¬BringsResult reply v) ∧ ∃ fault, ReplyEnvelope.decode reply = .error (.unexpectedReply fault) := by
  cases reply with
  | object members =>
    have hnone : members.lookup "error" = none ∨ members.lookup "error" = some .null := by
      cases herror : members.lookup "error" with
      | none => exact .inl rfl
      | some error =>
        by_cases hnull : error = .null
        · exact .inr (by rw [hnull])
        · exact absurd ⟨herror, hnull⟩ (h error)
    have hdecode : ReplyEnvelope.decode (.object members) =
        (members.lookup "result").elim (.error (.unexpectedReply .empty)) .ok := by
      rw [ReplyEnvelope.decode]
      rcases hnone with herror | herror <;> rw [herror] <;> cases members.lookup "result" <;> rfl
    cases hresult : members.lookup "result" with
    | some v => exact .inl ⟨v, ⟨members, rfl, hresult, hnone⟩, by rw [hdecode, hresult]; rfl⟩
    | none =>
      refine .inr ⟨?_, .empty, by rw [hdecode, hresult]; rfl⟩
      rintro v ⟨members', heq, hv, -⟩
      cases heq
      cases hresult.symm.trans hv
  | _ =>
    refine .inr ⟨?_, _, rfl⟩
    rintro v ⟨members, heq, -⟩
    cases heq

/-- A reply is decoded to an error of the server exactly if it reports one, and
    then to the payload of that one. With `carriesError_iff` the look at a
    failed reply and the reading of a successful one agree. -/
theorem decode_eq_server_iff {payload : ErrorPayload} :
    ReplyEnvelope.decode reply = .error (.server payload) ↔
      ∃ error, ReportsError reply error ∧ payload = ReplyEnvelope.payload error := by
  constructor
  · intro h
    by_cases hreports : ∃ error, ReportsError reply error
    · obtain ⟨error, hreports⟩ := hreports
      rw [hreports.decode_eq] at h
      cases h
      exact ⟨error, hreports, rfl⟩
    · rcases decode_of_not_reportsError (not_exists.mp hreports) with ⟨v, -, hdecode⟩ | ⟨-, fault, hdecode⟩
      · cases hdecode.symm.trans h
      · cases hdecode.symm.trans h
  · rintro ⟨error, hreports, rfl⟩
    exact hreports.decode_eq

/-- A reply is decoded to a result exactly if it brings one. A result that is
    null counts, and one that is missing does not. -/
theorem decode_eq_ok_iff : ReplyEnvelope.decode reply = .ok v ↔ BringsResult reply v := by
  by_cases hreports : ∃ error, ReportsError reply error
  · obtain ⟨error, hreports⟩ := hreports
    rw [hreports.decode_eq]
    refine ⟨nofun, ?_⟩
    rintro ⟨members, rfl, -, hnone | hnull⟩
    · cases hnone.symm.trans hreports.1
    · exact absurd (Option.some.inj (hreports.1.symm.trans hnull)) hreports.2
  · rcases decode_of_not_reportsError (not_exists.mp hreports) with ⟨w, hw, hdecode⟩ | ⟨hnone, fault, hdecode⟩
    · rw [hdecode]
      constructor
      · rintro ⟨⟩
        exact hw
      · rintro ⟨members, rfl, hv, -⟩
        obtain ⟨members', heq, hw, -⟩ := hw
        cases heq
        rw [Option.some.inj (hw.symm.trans hv)]
    · rw [hdecode]
      exact ⟨nofun, fun h => absurd h (hnone v)⟩

/-- The outcome is a failure of the transport, in these words. -/
def FailsInTransport (outcome : Except ClientError Json) (words : String) : Prop :=
  ∃ fault : TransportFault, outcome = .error (.transport fault) ∧ fault.text = words

namespace Channel

variable {r : Reply}

private theorem answer_of_success (hstatus : isSuccess r.status = true) :
    answer r = (Json.parse? r.text).elim (.error (.transport .invalidReply)) ReplyEnvelope.decode := by
  unfold answer
  cases Json.parse? r.text with
  | none => simp [hstatus]
  | some reply => simp [hstatus]

/-- A reply without success counts only for the error that it reports, and is a
    failure of the transport otherwise, whether its body is JSON or not. -/
theorem answer_of_failure (hstatus : isSuccess r.status = false) :
    (∃ reply error, Json.parse? r.text = some reply ∧ ReportsError reply error ∧
        answer r = .error (.server (ReplyEnvelope.payload error))) ∨
      (∀ reply error, Json.parse? r.text = some reply → ¬ReportsError reply error) ∧
        answer r = .error (.transport (.status r.status)) := by
  unfold answer
  cases Json.parse? r.text with
  | none => exact .inr ⟨nofun, by simp [hstatus]⟩
  | some reply =>
    by_cases hreports : ∃ error, ReportsError reply error
    · have hcarries := carriesError_iff.mpr hreports
      obtain ⟨error, hreports⟩ := hreports
      exact .inl ⟨reply, error, rfl, hreports, by simp [hcarries, hreports.decode_eq]⟩
    · have hcarries := mt carriesError_iff.mp hreports
      refine .inr ⟨?_, by simp [hstatus, hcarries]⟩
      rintro reply' error ⟨⟩
      exact not_exists.mp hreports error

/-- One more call is one more request, and does not change those before it. -/
theorem requests_concat (ch : Channel) (ids : Nat → String) (made : List Call) (call : Call) :
    ch.requests ids (made ++ [call]) = ch.requests ids made ++ [ch.request (ids made.length) call] := by
  simp [requests, List.zipIdx_append]

/-- A call is one request, answered by what its reply brings. -/
theorem run_call_answers (ch : Channel) (ids : Nat → String) (server : Server) (made : List Call) (call : Call) :
    (Dialogue.call call.method call.params).run (ch.answers ids server) made =
      (match server (ch.requests ids made ++ [ch.request (ids made.length) call]) with
        | .ok reply => answer reply
        | .error words => .error (.transport (.exchange words)), made ++ [call]) := by
  have hrequests := requests_concat ch ids made call
  rw [Dialogue.run_call, ← hrequests]
  rfl

/-- The two looks at an error member agree on every value. So a status without
    success lets through nothing but an error that the server reports, and with
    success a reply in JSON is what its envelope says. Each call makes exactly
    one request, under an identifier of its own. -/
theorem answer_agrees_with_decode :
    (∀ reply, (carriesError reply = true ↔ ∃ payload, ReplyEnvelope.decode reply = .error (.server payload)) ∧
      (carriesError reply = true ↔ ∃ error, ReportsError reply error)) ∧
    (∀ r, isSuccess r.status = false →
      (∀ v, answer r ≠ .ok v) ∧ (∀ fault, answer r ≠ .error (.unexpectedReply fault)) ∧
      (∀ reply error, Json.parse? r.text = some reply → ReportsError reply error →
        answer r = .error (.server (ReplyEnvelope.payload error))) ∧
      ((∀ reply error, Json.parse? r.text = some reply → ¬ReportsError reply error) →
        FailsInTransport (answer r) ("HTTP " ++ statusText r.status))) ∧
    (∀ r, isSuccess r.status = true →
      (Json.parse? r.text = none → FailsInTransport (answer r) "Invalid JSON reply") ∧
      ∀ reply, Json.parse? r.text = some reply →
        answer r = ReplyEnvelope.decode reply ∧ ∀ v, answer r = .ok v ↔ BringsResult reply v) ∧
    ∀ (ch : Channel) (ids : Nat → String) (server : Server) (made : List Call) (call : Call),
      ∃ outcome, (Dialogue.call call.method call.params).run (ch.answers ids server) made = (outcome, made ++ [call]) ∧
        ch.requests ids (made ++ [call]) = ch.requests ids made ++ [ch.request (ids made.length) call] ∧
        ∀ r, server (ch.requests ids (made ++ [call])) = .ok r → outcome = answer r := by
  refine ⟨fun reply => ⟨?_, carriesError_iff⟩, ?failure, ?success, ?exchange⟩
  · rw [carriesError_iff]
    simp only [decode_eq_server_iff]
    exact ⟨fun ⟨error, h⟩ => ⟨_, error, h, rfl⟩, fun ⟨_, error, h, _⟩ => ⟨error, h⟩⟩
  case failure =>
    intro r hstatus
    rcases answer_of_failure hstatus with ⟨reply, error, hparse, hreports, hanswer⟩ | ⟨hnone, hanswer⟩
    · refine ⟨by simp [hanswer], by simp [hanswer], ?_, fun hno => absurd hreports (hno reply error hparse)⟩
      intro reply' error' hparse' hreports'
      cases hparse.symm.trans hparse'
      rw [hanswer, hreports.unique hreports']
    · refine ⟨by simp [hanswer], by simp [hanswer], ?_, fun _ => ⟨_, hanswer, rfl⟩⟩
      intro reply error hparse hreports
      exact absurd hreports (hnone reply error hparse)
  case success =>
    intro r hstatus
    have hanswer := answer_of_success hstatus
    refine ⟨fun hparse => ⟨.invalidReply, by rw [hanswer, hparse]; rfl, rfl⟩, ?_⟩
    intro reply hparse
    rw [hparse, Option.elim_some] at hanswer
    rw [hanswer]
    exact ⟨rfl, fun v => decode_eq_ok_iff⟩
  case exchange =>
    intro ch ids server made call
    refine ⟨_, run_call_answers ch ids server made call, requests_concat ch ids made call, ?_⟩
    intro r hserver
    rw [requests_concat] at hserver
    rw [hserver]

/-- A refusal whose body holds a result too. -/
def refusal : Reply := ⟨403, "\x7b\"error\":\"AccessDenied\",\"result\":1\x7d"⟩

/-- A reply without success whose error has no payload's form is the server's
    error all the same, with its text as the message. -/
theorem answer_refusal :
    isSuccess refusal.status = false ∧
      answer refusal = .error (.server ⟨-32603, "AccessDenied", none, some (.string "AccessDenied")⟩) := by
  obtain ⟨-, hfailure, -⟩ := answer_agrees_with_decode
  obtain ⟨-, -, hserver, -⟩ := hfailure refusal rfl
  exact ⟨rfl, hserver (.object [("error", .string "AccessDenied"), ("result", _)]) (.string "AccessDenied") rfl
    ⟨rfl, nofun⟩⟩

end Channel

end Http

end Brokerage
