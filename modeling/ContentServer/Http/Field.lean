import ContentServer.Http.Coding
import ContentServer.Text.Blank
import ContentServer.Text.Search

/-!
# Fields of a request head

Every line of a head after the first is a field: a name, a colon and a value.  The name is not
empty and holds no space, and its case does not matter.  Blanks around the value are not part of
it.  Six names are known.  All other fields are skipped.

Two of the known fields hold lists.

* `Connection` holds options, between commas.  They are kept in lower case, the empty ones left
  out.
* `Accept-Encoding` is searched for the names of the known codings.  A name counts wherever it
  stands in the value, in lower case only.
-/

namespace ContentServer

/-- The fields that a request is read from. -/
inductive FieldName where
  | host | userAgent | connection | acceptEncoding | contentLength | transferEncoding
  /-- Any other name. -/
  | other
deriving DecidableEq, Repr

namespace FieldName

/-- The known names, in lower case. -/
def table : List (String × FieldName) :=
  [("host", .host), ("user-agent", .userAgent), ("connection", .connection),
   ("accept-encoding", .acceptEncoding), ("content-length", .contentLength),
   ("transfer-encoding", .transferEncoding)]

/-- The field that a name denotes, whatever its case. -/
def ofText (name : List Char) : FieldName :=
  (table.lookup (String.ofList (Text.lower name))).getD .other

end FieldName

/-- A line of a head after the first. -/
structure Field where
  /-- What stands before the first colon. -/
  name : List Char
  /-- What stands after it, without the blanks at both ends. -/
  value : List Char
deriving DecidableEq, Repr

namespace Field

/-- The field that a line holds, if its name is not empty and has no space. -/
def ofLine? (line : List Char) : Option Field :=
  let name := line.takeWhile (· != ':')
  if name.length = line.length || name.isEmpty || name.contains ' ' then none
  else some ⟨name, Text.trim (line.drop (name.length + 1))⟩

/-- The options in the value of a `Connection` field. -/
def options (value : List Char) : List String :=
  (((List.splitOn ',' value).map fun w => Text.lower (Text.trim w)).filter fun w => !w.isEmpty).map
    String.ofList

/-- The codings whose names occur in the value of an `Accept-Encoding` field. -/
def codings (value : List Char) : List Coding :=
  Coding.all.filter fun c => Text.occursIn c.token.toList value

example : ofLine? "Host:  a b ".toList = some ⟨"Host".toList, "a b".toList⟩ := by decide
example : ["Host", ": a", "Ho st: a", ""].map (fun s => ofLine? s.toList)
    = List.replicate 4 none := by decide
example : options " Close ,, X".toList = ["close", "x"] := by decide
example : codings "br;q=0, xgzip".toList = [.gzip, .br] := by decide

end Field

end ContentServer
