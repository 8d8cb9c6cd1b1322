import ContentServer.Bytes
import ContentServer.Fault
import ContentServer.Http.Field
import ContentServer.Http.Method
import ContentServer.Text.Decimal

/-!
# Requests

A request starts with a head, which `Request.parse` reads off the front of what has arrived.

* Line breaks in front of the head are skipped.
* The head ends with the first empty line.  Until that line has arrived there is no request yet,
  and a head longer than `maxHead` bytes is refused.  In a head that has not ended the skipped
  line breaks count too.
* The head is UTF-8 text.  Its first line is a method, a target and a version with one space
  between them.
* The other lines are fields.  Of a field that comes more than once, `Connection` and
  `Accept-Encoding` add up and the last of the others holds.
* A `Content-Length` is a decimal number and at most the allowed length of a body.  A
  `Transfer-Encoding` is always refused.

The body is not read here.  `Request.contentLength` says how many of the following bytes it takes.

`parse_consumed` says that a request takes at least its terminator and at most what has arrived.
-/

namespace ContentServer

/-- What a client asks for. -/
structure Request where
  /-- What is to be done. -/
  method : Method
  /-- The target as it was sent, with query and fragment. -/
  target : String
  /-- The version of the protocol. -/
  version : Version
  /-- The value of the last `Host` field, or nothing. -/
  host : String := ""
  /-- The value of the last `User-Agent` field, or nothing. -/
  userAgent : String := ""
  /-- The options of all `Connection` fields, in lower case. -/
  connection : List String := []
  /-- The codings named in all `Accept-Encoding` fields. -/
  codings : List Coding := []
  /-- The announced length of the body. -/
  contentLength : Nat := 0
deriving DecidableEq, Repr

namespace Request

/-- The longest head, its last empty line included. -/
def maxHead : Nat := 8192

/-- What every announced length of a body is below. -/
def lengthBound : Nat := UInt64.size

/-- The bytes that end a head: the end of its last line and an empty line. -/
def headEnd : Bytes := [13, 10, 13, 10]

/-- Whether a byte is a carriage return or a line feed. -/
def isLineBreak (b : UInt8) : Bool := b == 13 || b == 10

/-- Whether the connection stays open after the answer. -/
def keepAlive (r : Request) : Bool :=
  !r.connection.contains "close" &&
    match r.version with
    | .v11 => true
    | .v10 => r.connection.contains "keep-alive"

/-- The target without its query and fragment. -/
def path (r : Request) : String :=
  String.ofList (r.target.toList.takeWhile fun c => c != '?' && c != '#')

/-! ## Reading a head -/

/-- The version that a word names. -/
def readVersion (word : List Char) : Except RequestFault Version :=
  if word = Version.v11.token.toList then .ok .v11
  else if word = Version.v10.token.toList then .ok .v10
  else if "HTTP/".toList.isPrefixOf word then .error .unsupportedVersion
  else .error .malformed

/-- The request that a request line starts. -/
def ofRequestLine (line : List Char) : Except RequestFault Request :=
  match List.splitOn ' ' line with
  | [method, target, version] =>
    if method.isEmpty || target.isEmpty || version.isEmpty then .error .malformed
    else match Method.ofToken? (String.ofList method) with
      | none => .error .malformed
      | some m => (readVersion version).map fun v =>
          { method := m, target := String.ofList target, version := v }
  | _ => .error .malformed

/-- The request with one more field. -/
def addField (maxBody : Nat) (r : Request) (line : List Char) : Except RequestFault Request :=
  match Field.ofLine? line with
  | none => .error .malformed
  | some ⟨name, value⟩ =>
    match FieldName.ofText name with
    | .host => .ok { r with host := String.ofList value }
    | .userAgent => .ok { r with userAgent := String.ofList value }
    | .connection => .ok { r with connection := r.connection ++ Field.options value }
    | .acceptEncoding => .ok { r with codings := r.codings ++ Field.codings value }
    | .contentLength =>
      match Text.natural? lengthBound value with
      | none => .error .malformed
      | some n => if n > maxBody then .error .bodyTooLarge else .ok { r with contentLength := n }
    | .transferEncoding => .error .malformed
    | .other => .ok r

/-- The request with more fields, one after the other. -/
def addFields (maxBody : Nat) (r : Request) : List (List Char) → Except RequestFault Request
  | [] => .ok r
  | line :: lines =>
    match addField maxBody r line with
    | .error e => .error e
    | .ok r => addFields maxBody r lines

/-- The request that the text of a head holds. -/
def ofHead (maxBody : Nat) (head : String) : Except RequestFault Request :=
  match Text.splitLines head.toList with
  | [] => .error .malformed
  | line :: lines =>
    match ofRequestLine line with
    | .error e => .error e
    | .ok r => addFields maxBody r lines

/-! ## Reading from what has arrived -/

/-- The number of line breaks in front of a head. -/
def blankLength (buffer : Bytes) : Nat := (buffer.takeWhile isLineBreak).length

/-- The request at the front of what has arrived and the number of bytes that its head takes with
the line breaks before it, or nothing while the head has not ended. -/
def parse (maxBody : Nat) (buffer : Bytes) : Except RequestFault (Option (Request × Nat)) :=
  let blank := blankLength buffer
  let rest := buffer.drop blank
  match Text.firstIndex? headEnd rest with
  | none => if buffer.length > maxHead then .error .headTooLarge else .ok none
  | some i =>
    if i + headEnd.length > maxHead then .error .headTooLarge
    else match Bytes.text? (rest.take i) with
      | none => .error .malformed
      | some head => (ofHead maxBody head).map fun r => some (r, blank + (i + headEnd.length))

theorem blankLength_le (buffer : Bytes) : blankLength buffer ≤ buffer.length :=
  (List.takeWhile_prefix isLineBreak).length_le

/-- A request takes at least the end of its head and at most what has arrived. -/
theorem parse_consumed {maxBody : Nat} {buffer : Bytes} {r : Request} {n : Nat}
    (h : parse maxBody buffer = .ok (some (r, n))) : 4 ≤ n ∧ n ≤ buffer.length := by
  unfold parse at h
  dsimp only at h
  split at h
  · split at h <;> cases h
  · next i hi =>
    have hle := Text.firstIndex?_add_length_le hi
    rw [List.length_drop] at hle
    have hb := blankLength_le buffer
    split at h
    · cases h
    · split at h
      · cases h
      · next head _ =>
        cases ho : ofHead maxBody head with
        | error e => rw [ho] at h; cases h
        | ok r' =>
          rw [ho] at h
          simp only [Except.map, Except.ok.injEq, Option.some.injEq, Prod.mk.injEq] at h
          have : headEnd.length = 4 := rfl
          omega

end Request

end ContentServer
