import Brokerage.Http.Exchange
import Brokerage.Proofs.Text.Base64
import Brokerage.Proofs.Text.Numeral

namespace Brokerage.Http

open Text (Base64.Encodes Base64.decode? Base64.decode?_of_encodes Base64.encodes_encode)

/-- The bytes that encode a text in UTF-8. -/
def utf8 (s : String) : List UInt8 :=
  s.toUTF8.data.toList

/-- The text that bytes encode in UTF-8. -/
def textOfUtf8? (bytes : List UInt8) : Option String :=
  String.fromUTF8? ⟨bytes.toArray⟩

/-- What stands before the first colon of a text, and what stands behind it. -/
def splitAtColon? (s : String) : Option (String × String) :=
  match s.toList.dropWhile (· ≠ ':') with
  | _ :: behind => some (String.ofList (s.toList.takeWhile (· ≠ ':')), String.ofList behind)
  | [] => none

/-- The number of the broker, as it is written, and the password in a header
    value. -/
def readBasicAuth? (header : String) : Option (String × String) :=
  ("Basic ".toList.isPrefixOf? header.toList).bind fun token =>
    ((Base64.decode? token).bind textOfUtf8?).bind splitAtColon?

private theorem textOfUtf8?_utf8 (s : String) : textOfUtf8? (utf8 s) = some s := by
  have hbytes : (⟨(utf8 s).toArray⟩ : ByteArray) = s.toUTF8 := rfl
  rw [textOfUtf8?, hbytes, String.fromUTF8?, String.toUTF8_eq_toByteArray, dif_pos s.isValidUTF8]
  rfl

/-- The first colon is the one in the middle if there is none before it; any
    number of them may come after. -/
theorem splitAtColon?_append {before : String} (behind : String) (h : ∀ c ∈ before.toList, c ≠ ':') :
    splitAtColon? (before ++ ":" ++ behind) = some (before, behind) := by
  have hbefore : ∀ c ∈ before.toList, decide (c ≠ ':') = true := fun c hc => decide_eq_true (h c hc)
  have hchars : (before ++ ":" ++ behind).toList = before.toList ++ ':' :: behind.toList := by
    rw [String.toList_append, String.toList_append, List.append_assoc]
    rfl
  have hdrop : (before.toList ++ ':' :: behind.toList).dropWhile (· ≠ ':') = ':' :: behind.toList := by
    rw [List.dropWhile_append_of_pos hbefore]
    rfl
  have htake : (before.toList ++ ':' :: behind.toList).takeWhile (· ≠ ':') = before.toList := by
    rw [List.takeWhile_append_of_pos hbefore]
    exact List.append_nil _
  rw [splitAtColon?, hchars, hdrop, htake]
  simp only [String.ofList_toList]

private theorem toList_toString_nat (n : Nat) : (toString n).toList = Nat.toDigits 10 n :=
  String.toList_ofList

private theorem toString_nat_inj {m n : Nat} (h : toString m = toString n) : m = n := by
  have hchars := congrArg String.toList h
  rw [toList_toString_nat, toList_toString_nat] at hchars
  exact Text.toDigits_inj hchars

private theorem ne_colon_of_mem_toString {n : Nat} {c : Char} (h : c ∈ (toString n).toList) : c ≠ ':' := by
  rw [toList_toString_nat] at h
  have hdigit := Text.isDigit_of_mem_toDigits h
  intro heq
  rw [heq] at hdigit
  exact absurd hdigit (by decide)

/-- Whatever token stands for the credentials, they are read from it. The number
    of a broker has no colon, so the first colon ends it, and the password may
    hold more. -/
theorem readBasicAuth?_of_encodes {before behind : String} {token : List Char} (hbefore : ∀ c ∈ before.toList, c ≠ ':')
    (htoken : Base64.Encodes (utf8 (before ++ ":" ++ behind)) token) :
    readBasicAuth? ("Basic " ++ String.ofList token) = some (before, behind) := by
  have hchars : ("Basic " ++ String.ofList token).toList = "Basic ".toList ++ token :=
    String.toList_append.trans (congrArg ("Basic ".toList ++ ·) String.toList_ofList)
  have hscheme : "Basic ".toList.isPrefixOf? ("Basic ".toList ++ token) = some token := rfl
  rw [readBasicAuth?, hchars, hscheme, Option.bind_some, Base64.decode?_of_encodes htoken, Option.bind_some,
    textOfUtf8?_utf8, Option.bind_some, splitAtColon?_append behind hbefore]

/-- A header value is the scheme and the padded text of the number, a colon and
    the password in UTF-8. Decoded and split at the first colon it gives back
    the number and the password, so values of different credentials differ.
    Nothing is asked of the password: it may be empty, or hold colons and any
    characters. -/
theorem basicAuth_determines_credentials :
    (∀ (brokerId : UInt64) (password : String),
      (∃ token, basicAuth brokerId password = "Basic " ++ String.ofList token ∧
        Base64.Encodes (utf8 (toString brokerId.toNat ++ ":" ++ password)) token) ∧
      readBasicAuth? (basicAuth brokerId password) = some (toString brokerId.toNat, password)) ∧
    ∀ (brokerId otherId : UInt64) (password otherPassword : String),
      basicAuth brokerId password = basicAuth otherId otherPassword ↔
        brokerId = otherId ∧ password = otherPassword := by
  have hread (brokerId : UInt64) (password : String) :
      readBasicAuth? (basicAuth brokerId password) = some (toString brokerId.toNat, password) :=
    readBasicAuth?_of_encodes (fun _ => ne_colon_of_mem_toString) (Base64.encodes_encode _)
  refine ⟨fun brokerId password => ⟨⟨_, rfl, Base64.encodes_encode _⟩, hread brokerId password⟩, ?_⟩
  intro brokerId otherId password otherPassword
  constructor
  · intro heq
    have hboth := hread brokerId password
    rw [heq, hread otherId otherPassword] at hboth
    obtain ⟨hid, hpassword⟩ := Prod.mk.inj (Option.some.inj hboth)
    exact ⟨(UInt64.toNat_inj.mp (toString_nat_inj hid)).symm, hpassword.symm⟩
  · rintro ⟨rfl, rfl⟩
    rfl

example : basicAuth 7 "secret" = "Basic NzpzZWNyZXQ=" := by
  decide +kernel

end Brokerage.Http
