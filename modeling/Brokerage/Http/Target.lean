import Brokerage.Text.Numeral

namespace Brokerage.Http

/-- A character that is passed over wherever it stands in an address. -/
def isDropped (c : Char) : Bool :=
  c = '\t' || c = '\n' || c = '\r'

/-- A control character or a space, which does not count at the end of an
    address. -/
def isTrimmed (c : Char) : Bool :=
  c.toNat ≤ 0x20

/-- The upper-case hexadecimal digit of a number below 16. -/
def escapeDigit (n : Nat) : Char :=
  if n < 10 then Char.ofNat ('0'.toNat + n) else Char.ofNat ('A'.toNat + (n - 10))

/-- A character sent as it is, or as its UTF-8 bytes behind percent signs:
    control characters, characters beyond ASCII and those of `reserved` are. -/
def escaped (reserved : List Char) (c : Char) : List Char :=
  if c.toNat < 0x20 ∨ 0x7E < c.toNat ∨ reserved.contains c then
    (String.singleton c).toUTF8.data.toList.flatMap fun b => ['%', escapeDigit (b.toNat / 16), escapeDigit (b.toNat % 16)]
  else [c]

/-- Characters that are escaped in a path. -/
def pathReserved : List Char := [' ', '"', '<', '>', '`', '#', '?', '\x7b', '\x7d']

/-- Characters that are escaped in a query. -/
def queryReserved : List Char := [' ', '"', '<', '>', '#', '\'']

/-- A segment with escaped dots resolved, to recognise the two segments made of
    dots. -/
def dots : List Char → List Char
  | '%' :: '2' :: e :: rest => if e = 'e' ∨ e = 'E' then '.' :: dots rest else '%' :: '2' :: dots (e :: rest)
  | c :: rest => c :: dots rest
  | [] => []

/-- The segments of a path, which slashes of either kind divide. -/
def segments : List Char → List (List Char)
  | [] => [[]]
  | c :: cs =>
    if c = '/' ∨ c = '\\' then [] :: segments cs
    else
      match segments cs with
      | s :: rest => (c :: s) :: rest
      | [] => [[c]]

/-- Segments with `.` left out and each `..` taking away the one before it.
    Either leaves an empty segment at the end. The segments kept so far come
    last first. -/
def resolveDots (kept : List (List Char)) : List (List Char) → List (List Char)
  | [] => kept.reverse
  | s :: rest =>
    let last := rest.isEmpty
    if dots s = ['.'] then resolveDots (if last then [] :: kept else kept) rest
    else if dots s = ['.', '.'] then resolveDots (if last then [] :: kept.tail else kept.tail) rest
    else resolveDots (s :: kept) rest

/-- The path as it is sent. -/
def pathText (path : List Char) : List Char :=
  (resolveDots [] (segments path)).flatMap fun s => '/' :: s.flatMap (escaped pathReserved)

/-- The target for what follows the host and port in an address: the path and
    the query in the form in which they are sent. There is none if what follows
    would change the host or the port. -/
def target? (after : String) : Option String :=
  let cs := (after.toList.filter fun c => !isDropped c).reverse.dropWhile isTrimmed |>.reverse
  let cs := cs.takeWhile (· ≠ '#')
  let query :=
    match cs.dropWhile (· ≠ '?') with
    | '?' :: q => '?' :: q.flatMap (escaped queryReserved)
    | _ => []
  match cs.takeWhile (· ≠ '?') with
  | [] => some (String.ofList ('/' :: query))
  | c :: path => if c = '/' ∨ c = '\\' then some (String.ofList (pathText path ++ query)) else none

/-- A character that ends the host and port of an address. -/
def endsAuthority (c : Char) : Bool :=
  c = '/' || c = '\\' || c = '?' || c = '#'

/-- Where a request goes: a host, a port and a target. -/
structure Destination where
  host : String
  port : UInt16
  target : String
deriving DecidableEq

/-- The host and port as they stand in an address. -/
def Destination.authority (d : Destination) : String :=
  d.host ++ ":" ++ toString d.port.toNat

/-- Where a request to an address with the scheme `http` goes: port 80 unless
    the address has one. -/
def Destination.ofUrl? (url : String) : Option Destination := do
  let cs ← ['h', 't', 't', 'p', ':', '/', '/'].isPrefixOf? url.toList
  let authority := cs.takeWhile (!endsAuthority ·)
  let target ← target? (String.ofList (cs.dropWhile (!endsAuthority ·)))
  let host := String.ofList (authority.takeWhile (· ≠ ':'))
  match (authority.dropWhile (· ≠ ':')).drop 1 with
  | [] => return ⟨host, 80, target⟩
  | port => return ⟨host, ← Text.readUInt16? port, target⟩

end Brokerage.Http
