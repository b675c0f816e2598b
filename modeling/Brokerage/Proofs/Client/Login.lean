import Brokerage.Client.Terminal
import Brokerage.Proofs.Json.RecordText
import Brokerage.Proofs.Record.KeptMembers
import Mathlib.Data.List.DropRight

namespace Brokerage

namespace Record

variable {α : Type} {decode : Json → Option α} {name : String} {members : List (String × Json)}

/-- The field is left out or null. -/
def Withheld (name : String) (members : List (String × Json)) : Prop :=
  members.lookup name = none ∨ members.lookup name = some .null

/-- A field that may be left out is read as absent exactly if it is withheld. -/
theorem optional_eq_some_none_iff : optional decode name members = some none ↔ Withheld name members := by
  unfold optional Withheld
  generalize members.lookup name = found
  cases found with
  | none => simp
  | some v => cases v <;> simp

/-- A text that may be left out is read exactly from a string. -/
theorem optional_asString?_eq_some_iff {s : String} :
    optional Json.asString? name members = some (some s) ↔ members.lookup name = some (.string s) := by
  unfold optional
  generalize members.lookup name = found
  cases found with
  | none => simp
  | some v => cases v <;> simp [Json.asString?]

private theorem exists_lookup_of_not_withheld (h : ¬Withheld name members) :
    ∃ v, members.lookup name = some v ∧ v ≠ .null := by
  unfold Withheld at h
  generalize members.lookup name = found at h
  cases found with
  | none => exact absurd (.inl rfl) h
  | some v => exact ⟨v, rfl, fun hnull => h (.inr (congrArg some hnull))⟩

end Record

open Record (Withheld)

namespace TraderAuthResult

/-- The text writes a reply with these fields. The token is a string, if there
    is one; the error has any form. -/
def WrittenBy (text : String) (members : List (String × Json)) : Prop :=
  Record.parse? fields text = some members ∧
    (Withheld "jwt" members ∨ ∃ token, members.lookup "jwt" = some (.string token))

variable {text : String} {members : List (String × Json)}

/-- A reply is read from fields exactly if each of its two parts is. -/
theorem ofMembers?_eq_some_iff {result : TraderAuthResult} :
    ofMembers? members = some result ↔
      Record.optional Json.asString? "jwt" members = some result.token ∧
        Record.optional some "error" members = some result.error := by
  obtain ⟨token, error⟩ := result
  unfold ofMembers?
  cases Record.optional Json.asString? "jwt" members <;> cases Record.optional some "error" members <;> simp

/-- Fields make a reply unless the token is of another type than a string. The
    error is never in the way, as it may have any form. -/
theorem exists_ofMembers?_iff :
    (∃ result, ofMembers? members = some result) ↔
      Withheld "jwt" members ∨ ∃ token, members.lookup "jwt" = some (.string token) := by
  constructor
  · rintro ⟨result, hresult⟩
    have hjwt := (ofMembers?_eq_some_iff.mp hresult).1
    cases htoken : result.token with
    | none => exact .inl (Record.optional_eq_some_none_iff.mp (htoken ▸ hjwt))
    | some token => exact .inr ⟨token, Record.optional_asString?_eq_some_iff.mp (htoken ▸ hjwt)⟩
  · intro hform
    obtain ⟨error, herror⟩ := Record.exists_optional_some "error" members
    rcases hform with hjwt | ⟨token, hjwt⟩
    · exact ⟨⟨none, error⟩, ofMembers?_eq_some_iff.mpr ⟨Record.optional_eq_some_none_iff.mpr hjwt, herror⟩⟩
    · exact ⟨⟨some token, error⟩,
        ofMembers?_eq_some_iff.mpr ⟨Record.optional_asString?_eq_some_iff.mpr hjwt, herror⟩⟩

/-- A text is read as a reply exactly if it writes fields that make one. -/
theorem parse?_eq_some_iff {result : TraderAuthResult} :
    parse? text = some result ↔ ∃ members, WrittenBy text members ∧ ofMembers? members = some result := by
  rw [parse?, Option.bind_eq_some_iff]
  constructor
  · rintro ⟨members, hmembers, hresult⟩
    exact ⟨members, ⟨hmembers, exists_ofMembers?_iff.mp ⟨result, hresult⟩⟩, hresult⟩
  · rintro ⟨members, ⟨hmembers, -⟩, hresult⟩
    exact ⟨members, hmembers, hresult⟩

private theorem parse?_eq_none_iff : parse? text = none ↔ ∀ members, ¬WrittenBy text members := by
  rw [Option.eq_none_iff_forall_ne_some]
  constructor
  · intro hnone members hwritten
    obtain ⟨result, hresult⟩ := exists_ofMembers?_iff.mpr hwritten.2
    exact hnone result (parse?_eq_some_iff.mpr ⟨members, hwritten, hresult⟩)
  · intro hnone result hresult
    obtain ⟨members, hwritten, -⟩ := parse?_eq_some_iff.mp hresult
    exact hnone members hwritten

/-- An error that is not null is read, whatever the token. The members have to
    be written by a text, so that a token that is no string has been refused
    already. -/
theorem exists_ofMembers?_of_error {error : Json} (h : WrittenBy text members)
    (herror : members.lookup "error" = some error) (hnull : error ≠ .null) :
    ∃ token, ofMembers? members = some ⟨token, some error⟩ := by
  obtain ⟨result, hresult⟩ := exists_ofMembers?_iff.mpr h.2
  have hjwt := (ofMembers?_eq_some_iff.mp hresult).1
  exact ⟨result.token, ofMembers?_eq_some_iff.mpr ⟨hjwt, Record.optional_some_of_lookup herror hnull⟩⟩

/-- An error wins over a token. It must not be null, which stands for no error;
    a reply that was decoded never holds a null here. -/
theorem outcome_of_error {result : TraderAuthResult} {error : Json} (herror : result.error = some error)
    (hnull : error ≠ .null) : result.outcome = .error (.refused error.unquoted) := by
  rw [outcome, herror]
  cases error with
  | null => exact absurd rfl hnull
  | _ => rfl

/-- Without error and token the reply is empty. -/
theorem ofMembers?_of_withheld (herror : Withheld "error" members) (htoken : Withheld "jwt" members) :
    ofMembers? members = some ⟨none, none⟩ :=
  ofMembers?_eq_some_iff.mpr
    ⟨Record.optional_eq_some_none_iff.mpr htoken, Record.optional_eq_some_none_iff.mpr herror⟩

/-- A token without an error is read as it is. -/
theorem ofMembers?_of_token {token : String} (herror : Withheld "error" members)
    (htoken : members.lookup "jwt" = some (.string token)) : ofMembers? members = some ⟨some token, none⟩ :=
  ofMembers?_eq_some_iff.mpr
    ⟨Record.optional_asString?_eq_some_iff.mpr htoken, Record.optional_eq_some_none_iff.mpr herror⟩

end TraderAuthResult

namespace Terminal

/-- The address without the slashes at its end, however many there are. -/
structure Stripped (url kept : String) : Prop where
  slashes : ∃ n, url.toList = kept.toList ++ List.replicate n '/'
  last : kept.toList.getLast? ≠ some '/'

/-- The request that logs a trader in under these settings. -/
inductive Asks (settings : Settings) (credentials : TraderAuthParams) : Http.Request → Prop
  | intro {url kept : String} (hterminal : settings.terminalUrl = some url) (hkept : Stripped url kept) :
    Asks settings credentials ⟨kept ++ "/get-jwt", none, .object [("login", .string credentials.login),
      ("password", .string credentials.password), ("ip", .string credentials.ip),
      ("agent", .string credentials.agent)]⟩

/-- The request is answered with status 200 and a reply with these fields. -/
def RepliesWith (server : Http.Server) (request : Http.Request) (members : List (String × Json)) : Prop :=
  ∃ reply, server [request] = .ok reply ∧ reply.status = 200 ∧ TraderAuthResult.WrittenBy reply.text members

/-- The ways in which a login can go, with the outcome and the requests of
    each. -/
inductive LoginRun (server : Http.Server) (settings : Settings) (credentials : TraderAuthParams) :
    Except ClientError String → List Http.Request → Prop where
  | noTerminal (hterminal : settings.terminalUrl = none) :
    LoginRun server settings credentials (.error (.settings .noTerminal)) []
  | noReply {request : Http.Request} {words : String} (hasks : Asks settings credentials request)
      (hreply : server [request] = .error words) :
    LoginRun server settings credentials (.error (.transport (.exchange words))) [request]
  | otherStatus {request : Http.Request} {reply : Http.Reply} (hasks : Asks settings credentials request)
      (hreply : server [request] = .ok reply) (hstatus : reply.status ≠ 200) :
    LoginRun server settings credentials (.error (.transport (.statusFrom reply.status request.url))) [request]
  | undecodable {request : Http.Request} {reply : Http.Reply} (hasks : Asks settings credentials request)
      (hreply : server [request] = .ok reply) (hstatus : reply.status = 200)
      (htext : ∀ members, ¬TraderAuthResult.WrittenBy reply.text members) :
    LoginRun server settings credentials (.error (.transport (.exchange "error decoding response body"))) [request]
  | refusedInWords {request : Http.Request} {members : List (String × Json)} {words : String}
      (hasks : Asks settings credentials request) (hreply : RepliesWith server request members)
      (herror : members.lookup "error" = some (.string words)) :
    LoginRun server settings credentials (.error (.refused words)) [request]
  | refused {request : Http.Request} {members : List (String × Json)} {error : Json}
      (hasks : Asks settings credentials request) (hreply : RepliesWith server request members)
      (herror : members.lookup "error" = some error) (hnull : error ≠ .null) (hwords : ∀ words, error ≠ .string words) :
    LoginRun server settings credentials (.error (.refused error.compact)) [request]
  | noToken {request : Http.Request} {members : List (String × Json)}
      (hasks : Asks settings credentials request) (hreply : RepliesWith server request members)
      (herror : Withheld "error" members) (htoken : Withheld "jwt" members) :
    LoginRun server settings credentials (.error (.unexpectedReply .noToken)) [request]
  | token {request : Http.Request} {members : List (String × Json)} {token : String}
      (hasks : Asks settings credentials request) (hreply : RepliesWith server request members)
      (herror : Withheld "error" members) (htoken : members.lookup "jwt" = some (.string token)) :
    LoginRun server settings credentials (.ok token) [request]

section request

variable {url kept : String} {settings : Settings} {credentials : TraderAuthParams} {request : Http.Request}

private theorem toList_withoutSlashes (url : String) : (withoutSlashes url).toList = url.toList.rdropWhile (· = '/') :=
  String.toList_ofList

private theorem rdropWhile_slashes {cs : List Char} (h : cs.getLast? ≠ some '/') (n : Nat) :
    (cs ++ List.replicate n '/').rdropWhile (· = '/') = cs := by
  induction n with
  | zero =>
    rw [List.replicate_zero, List.append_nil, List.rdropWhile_eq_self_iff]
    intro hne hlast
    exact h ((List.getLast_eq_iff_getLast?_eq_some hne).mp (of_decide_eq_true hlast))
  | succ n ih =>
    rw [List.replicate_succ', ← List.append_assoc, List.rdropWhile_concat_pos (· = '/') _ _ (decide_eq_true rfl), ih]

/-- The address is kept up to the slashes at its end, however many there are. -/
theorem stripped_withoutSlashes (url : String) : Stripped url (withoutSlashes url) := by
  have hslashes : ∀ c ∈ url.toList.rtakeWhile (· = '/'), c = '/' := fun c hc =>
    of_decide_eq_true (List.mem_rtakeWhile_imp (p := (· = '/')) hc)
  constructor
  · refine ⟨(url.toList.rtakeWhile (· = '/')).length, ?_⟩
    rw [toList_withoutSlashes, ← List.eq_replicate_of_mem hslashes, List.rdropWhile_append_rtakeWhile]
  · intro hlast
    rw [toList_withoutSlashes] at hlast
    have hne : url.toList.rdropWhile (· = '/') ≠ [] := fun hnil => by rw [hnil] at hlast; cases hlast
    have heq := (List.getLast_eq_iff_getLast?_eq_some hne).mpr hlast
    exact List.rdropWhile_last_not _ _ hne (decide_eq_true heq)

/-- An address is stripped in one way only, since what is kept does not end with
    a slash. -/
theorem Stripped.eq_withoutSlashes (h : Stripped url kept) : kept = withoutSlashes url := by
  obtain ⟨n, hurl⟩ := h.slashes
  rw [← String.toList_inj, toList_withoutSlashes, hurl, rdropWhile_slashes h.last]

/-- The request is the one for the terminal that the settings name. -/
theorem asks_iff :
    Asks settings credentials request ↔
      ∃ url, settings.terminalUrl = some url ∧ request = Terminal.request url credentials := by
  constructor
  · rintro ⟨hterminal, hkept⟩
    exact ⟨_, hterminal, by rw [hkept.eq_withoutSlashes]; rfl⟩
  · rintro ⟨url, hterminal, rfl⟩
    exact .intro hterminal (stripped_withoutSlashes url)

end request

section outcome

variable {server : Http.Server} {settings : Settings} {credentials : TraderAuthParams} {request : Http.Request}
  {reply : Http.Reply} {members : List (String × Json)} {outcome : Except ClientError String}
  {requests : List Http.Request}

/-- A reply decides the login, after the one request. Status and body are looked
    at in `Terminal.outcome` alone. -/
theorem login_of_reply (hasks : Asks settings credentials request) (hreply : server [request] = .ok reply) :
    login server settings credentials = (Terminal.outcome request.url reply, [request]) := by
  obtain ⟨url, hterminal, rfl⟩ := asks_iff.mp hasks
  simp only [login, hterminal, hreply]

/-- With status 200 and a reply that is read, the login ends as the reply
    says. -/
theorem login_of_repliesWith {result : TraderAuthResult} (hasks : Asks settings credentials request)
    (hreply : RepliesWith server request members) (hresult : TraderAuthResult.ofMembers? members = some result) :
    login server settings credentials = (result.outcome, [request]) := by
  obtain ⟨reply, hreply, hstatus, htext⟩ := hreply
  have hparse := TraderAuthResult.parse?_eq_some_iff.mpr ⟨members, htext, hresult⟩
  rw [login_of_reply hasks hreply, Terminal.outcome, if_neg (not_not_intro hstatus), hparse]

/-- An error in the reply is passed on, whether there is a token beside it or
    not. -/
theorem login_of_error {error : Json} (hasks : Asks settings credentials request)
    (hreply : RepliesWith server request members) (herror : members.lookup "error" = some error)
    (hnull : error ≠ .null) : login server settings credentials = (.error (.refused error.unquoted), [request]) := by
  have hwritten := hreply
  obtain ⟨_, -, -, htext⟩ := hwritten
  obtain ⟨token, hresult⟩ := TraderAuthResult.exists_ofMembers?_of_error htext herror hnull
  rw [login_of_repliesWith hasks hreply hresult, TraderAuthResult.outcome_of_error rfl hnull]

/-- Each way is how the login goes, with the requests it makes: one, or none
    where the settings name no terminal. -/
theorem LoginRun.login_eq (h : LoginRun server settings credentials outcome requests) :
    login server settings credentials = (outcome, requests) := by
  cases h with
  | noTerminal hterminal => simp only [login, hterminal]
  | noReply hasks hreply =>
    obtain ⟨url, hterminal, rfl⟩ := asks_iff.mp hasks
    simp only [login, hterminal, hreply]
  | otherStatus hasks hreply hstatus => rw [login_of_reply hasks hreply, Terminal.outcome, if_pos hstatus]
  | undecodable hasks hreply hstatus htext =>
    rw [login_of_reply hasks hreply, Terminal.outcome, if_neg (not_not_intro hstatus),
      TraderAuthResult.parse?_eq_none_iff.mpr htext]
  | refusedInWords hasks hreply herror =>
    rw [login_of_error hasks hreply herror (by simp)]
    rfl
  | @refused request members error hasks hreply herror hnull hwords =>
    rw [login_of_error hasks hreply herror hnull]
    cases error with
    | string words => exact absurd rfl (hwords words)
    | _ => rfl
  | noToken hasks hreply herror htoken =>
    rw [login_of_repliesWith hasks hreply (TraderAuthResult.ofMembers?_of_withheld herror htoken)]
    rfl
  | token hasks hreply herror htoken =>
    rw [login_of_repliesWith hasks hreply (TraderAuthResult.ofMembers?_of_token herror htoken)]
    rfl

/-- Every login can go in one of the ways listed. -/
theorem exists_loginRun (server : Http.Server) (settings : Settings) (credentials : TraderAuthParams) :
    ∃ outcome requests, LoginRun server settings credentials outcome requests := by
  cases hterminal : settings.terminalUrl with
  | none => exact ⟨_, _, .noTerminal hterminal⟩
  | some url =>
    have hasks : Asks settings credentials (Terminal.request url credentials) := asks_iff.mpr ⟨url, hterminal, rfl⟩
    cases hreply : server [Terminal.request url credentials] with
    | error words => exact ⟨_, _, .noReply hasks hreply⟩
    | ok reply =>
      by_cases hstatus : reply.status = 200
      · by_cases htext : ∀ members, ¬TraderAuthResult.WrittenBy reply.text members
        · exact ⟨_, _, .undecodable hasks hreply hstatus htext⟩
        · obtain ⟨members, htext⟩ := not_forall_not.mp htext
          have hwith : RepliesWith server (Terminal.request url credentials) members := ⟨reply, hreply, hstatus, htext⟩
          by_cases herror : Withheld "error" members
          · rcases htext.2 with htoken | ⟨token, htoken⟩
            · exact ⟨_, _, .noToken hasks hwith herror htoken⟩
            · exact ⟨_, _, .token hasks hwith herror htoken⟩
          · obtain ⟨error, hlookup, hnull⟩ := Record.exists_lookup_of_not_withheld herror
            by_cases hwords : ∀ words, error ≠ .string words
            · exact ⟨_, _, .refused hasks hwith hlookup hnull hwords⟩
            · obtain ⟨words, hwords⟩ := not_forall_not.mp hwords
              exact ⟨_, _, .refusedInWords hasks hwith (hwords ▸ hlookup)⟩
      · exact ⟨_, _, .otherStatus hasks hreply hstatus⟩

/-- A login goes in exactly one way. -/
theorem loginRun_iff :
    LoginRun server settings credentials outcome requests ↔
      login server settings credentials = (outcome, requests) := by
  refine ⟨LoginRun.login_eq, fun h => ?_⟩
  obtain ⟨_, _, hrun⟩ := exists_loginRun server settings credentials
  obtain ⟨rfl, rfl⟩ := Prod.mk.inj (hrun.login_eq.symm.trans h)
  exact hrun

end outcome

/-- How every login goes, and when it gives a token. Where the text of the reply
    is JSON, the fields that decide are read from the value that it writes, so
    no error that stands beside a token is missed. Nothing is asked of the
    server, which may answer with any status and text, or not at all. -/
theorem login_gives_token_iff (server : Http.Server) (settings : Settings) (credentials : TraderAuthParams) :
    (∀ outcome requests, LoginRun server settings credentials outcome requests ↔
      login server settings credentials = (outcome, requests)) ∧
    (∀ token, (login server settings credentials).1 = .ok token ↔
      ∃ request members, Asks settings credentials request ∧ RepliesWith server request members ∧
        Withheld "error" members ∧ members.lookup "jwt" = some (.string token)) ∧
    ∀ text v, Json.parse? text = some v →
      Record.ReadFrom TraderAuthResult.fields v (Record.parse? TraderAuthResult.fields text) ∧
        ∀ members, TraderAuthResult.WrittenBy text members → Record.HeldBy ["jwt", "error"] v members := by
  refine ⟨fun _ _ => loginRun_iff, fun token => ⟨fun hok => ?given, ?giving⟩,
    fun text v hv => ⟨Record.readFrom_of_parse? hv, ?held⟩⟩
  case given =>
    obtain ⟨outcome, requests, hrun⟩ := exists_loginRun server settings credentials
    rw [hrun.login_eq] at hok
    obtain rfl : outcome = .ok token := hok
    cases hrun with
    | token hasks hreply herror htoken => exact ⟨_, _, hasks, hreply, herror, htoken⟩
  case giving =>
    rintro ⟨request, members, hasks, hreply, herror, htoken⟩
    rw [(LoginRun.token hasks hreply herror htoken).login_eq]
  case held =>
    rintro members ⟨hmembers, -⟩
    exact Record.ReadFrom.heldBy (hmembers ▸ Record.readFrom_of_parse? hv)

/-- A terminal at an address with two slashes at its end. -/
def slashedTerminal : Settings :=
  { terminalUrl := some "127.0.0.1//" }

def guest : TraderAuthParams :=
  ⟨"guest", "", "", ""⟩

/-- A reply with a token and an error beside it. -/
def tokenAndError : String :=
  "\x7b\"jwt\":\"t\",\"error\":\x7b\"code\":1\x7d\x7d"

/-- The fields of that reply, in the order in which they are given. -/
def tokenAndErrorFields : List (String × Json) :=
  [("jwt", .string "t"), ("error", .object [("code", .ofInt64 1)])]

/-- A token beside an error other than null is not given: the error refuses the
    login. -/
theorem login_gives_token_iff_refused :
    login (fun _ => .ok ⟨200, tokenAndError⟩) slashedTerminal guest =
        (.error (.refused "\x7b\"code\":1\x7d"), [⟨"127.0.0.1/get-jwt", none, guest.toJson⟩]) ∧
      TraderAuthResult.WrittenBy tokenAndError tokenAndErrorFields ∧
      Json.parse? tokenAndError = some (.object tokenAndErrorFields.reverse) ∧
      Record.HeldBy ["jwt", "error"] (.object tokenAndErrorFields.reverse) tokenAndErrorFields := by
  have hwritten : TraderAuthResult.WrittenBy tokenAndError tokenAndErrorFields := ⟨by decide +kernel, .inr ⟨"t", rfl⟩⟩
  have hvalue : Json.parse? tokenAndError = some (.object tokenAndErrorFields.reverse) := by decide +kernel
  have hstripped : Stripped "127.0.0.1//" "127.0.0.1" := ⟨⟨2, rfl⟩, by decide⟩
  have hreply (request : Http.Request) :
      RepliesWith (fun _ => .ok ⟨200, tokenAndError⟩) request tokenAndErrorFields :=
    ⟨⟨200, tokenAndError⟩, rfl, rfl, hwritten⟩
  have hcompact : (Json.object [("code", .ofInt64 1)]).compact = "\x7b\"code\":1\x7d" := by decide +kernel
  obtain ⟨hway, -, hheld⟩ := login_gives_token_iff (fun _ => .ok ⟨200, tokenAndError⟩) slashedTerminal guest
  refine ⟨?_, hwritten, hvalue, (hheld _ _ hvalue).2 _ hwritten⟩
  rw [← hcompact]
  exact (hway _ _).mp (.refused (.intro rfl hstripped) (hreply _) rfl (fun h => by cases h) fun _ h => by cases h)

end Terminal

end Brokerage
