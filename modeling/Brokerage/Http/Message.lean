import Brokerage.Http.Exchange
import Brokerage.Http.Target

namespace Brokerage.Http

/-- The end of a line in the head of a message. -/
def lineEnd : String := "\r\n"

/-- The bytes of a request to its destination, as an HTTP/1.1 message. The
    connection is closed after the reply. -/
def Request.bytes (r : Request) (d : Destination) : ByteArray :=
  let body := r.body.compact.toUTF8
  let authorization := match r.authorization with
    | some value => ["authorization: " ++ value]
    | none => []
  let head := ["POST " ++ d.target ++ " HTTP/1.1", "host: " ++ d.authority] ++ authorization ++
    ["content-type: application/json", "accept: */*", "content-length: " ++ toString body.size, "connection: close"]
  (String.join (head.map (· ++ lineEnd)) ++ lineEnd).toUTF8 ++ body

/-- The bytes up to the first empty line of a message, as lines of characters,
    and the bytes after it. -/
def splitHead (line : List Char) (lines : List (List Char)) : List UInt8 → Option (List (List Char) × List UInt8)
  | [] => none
  | b :: rest =>
    if b = 10 then
      let line := line.reverse.filter (· ≠ '\r')
      if line = [] then some (lines.reverse, rest) else splitHead [] (line :: lines) rest
    else splitHead (Char.ofNat b.toNat :: line) lines rest

/-- The value of a header line, if it has the name in any case. -/
def headerValue? (name : String) (line : List Char) : Option String :=
  if String.ofList ((line.takeWhile (· ≠ ':')).map Char.toLower) = name then
    some (String.ofList (Text.trim ((line.dropWhile (· ≠ ':')).drop 1)))
  else none

/-- The number that the leading hexadecimal digits of a line write. -/
def chunkSize (line : List Char) : Nat :=
  ((line.takeWhile fun c => (Json.hexValue? c).isSome).filterMap Json.hexValue?).foldl (fun n d => 16 * n + d) 0

/-- The bytes of a body that is sent in chunks, each after a line with its
    size. -/
def joinChunks : (steps : Nat) → List UInt8 → List UInt8
  | 0, _ => []
  | steps + 1, bytes =>
    let size := chunkSize ((bytes.takeWhile (· ≠ 10)).map fun b => Char.ofNat b.toNat)
    let rest := (bytes.dropWhile (· ≠ 10)).drop 1
    if size = 0 then [] else rest.take size ++ joinChunks steps ((rest.drop size).drop 2)

/-- The text that bytes encode in UTF-8; a byte that is part of no character
    stands for U+FFFD. -/
def lossyText : (steps : Nat) → List UInt8 → List Char
  | 0, _ => []
  | steps + 1, bytes =>
    match bytes with
    | [] => []
    | _ :: rest =>
      let width? := [1, 2, 3, 4].find? fun n => n ≤ bytes.length && (String.fromUTF8? ⟨(bytes.take n).toArray⟩).isSome
      match width? with
      | some n =>
        ((String.fromUTF8? ⟨(bytes.take n).toArray⟩).getD "").toList ++ lossyText steps (bytes.drop n)
      | none => Char.ofNat 0xFFFD :: lossyText steps rest

/-- The reply in the bytes of an HTTP/1.1 message. -/
def Reply.ofBytes? (bytes : List UInt8) : Option Reply := do
  let (head, body) ← splitHead [] [] bytes
  let statusLine ← head.head?
  let status ← Text.wholeDigits? (((statusLine.dropWhile (· ≠ ' ')).drop 1).takeWhile (· ≠ ' '))
  let header (name : String) := head.findSome? (headerValue? name)
  let body :=
    if header "transfer-encoding" = some "chunked" then joinChunks body.length body
    else
      match (header "content-length").bind fun v => Text.wholeDigits? v.toList with
      | some n => body.take n
      | none => body
  return ⟨status, String.ofList (lossyText body.length body)⟩

end Brokerage.Http
