import ContentServer.Toml.Date
import ContentServer.Toml.Number
import ContentServer.Toml.Quoted
import ContentServer.Toml.Table

/-!
# Settings documents

A document is a row of lines, which a byte order mark may stand in front of.  A line has an entry,
a header or nothing, and a comment can follow each of them.

* An *entry* is a key, an equals sign and a value.  The value can stretch over several lines.
* A *header* is a key in single or double brackets.
* A *key* is one or more names with points between them.  A name consists of ASCII letters,
  digits, `_` and `-`, or it is quoted on one line.

A key has fewer than `nestingLimit` names, and arrays and tables in braces stand fewer than
`nestingLimit` deep in each other.

`entries?` gives the entries of a whole document.  It gives nothing if the document is invalid.
-/

namespace ContentServer.Toml

/-- The number of names in a key, and of values in each other, that is too many. -/
def nestingLimit : Nat := 80

namespace Reader

/-! ## Keys -/

/-- Whether a character may stand in a name without quotes. -/
def isNameChar (c : Char) : Bool := c.isAlphanum || c == '_' || c == '-'

/-- A name. -/
def name : Reader String :=
  (do return String.ofList (← someSpan isNameChar)) <|> doubleQuoted <|> singleQuoted

/-- A key: the names that lead to its last one, and that one. -/
def key : Reader (List String × String) := do
  let names ← separated (do gap; let w ← name; gap; return w) '.'
  if names.length < nestingLimit then return (names.dropLast, names.getLast?.getD "") else failure

/-! ## Values -/

/-- A value that holds no other values. -/
def scalar : Reader Value :=
  (do return .text (← quoted))
    <|> (do symbols "true".toList; return .boolean true)
    <|> (do symbols "false".toList; return .boolean false)
    <|> (do date; return .date)
    <|> (do float; return .float)
    <|> (do return .integer (← integer))

/-- Values in brackets.  The last one can have a comma after it. -/
def array (value : Reader Value) : Reader Value := do
  symbol '['
  let items ← separated (do filler; let v ← value; filler; return v) ',' <|> pure []
  if !items.isEmpty then
    let _ ← maybe (symbol ',')
  filler
  symbol ']'
  return .array items

/-- A key, an equals sign and a value. -/
def entry (value : Reader Value) : Reader ((List String × String) × Value) := do
  let k ← key
  symbol '='
  gap
  return (k, ← value)

/-- Entries in braces, on one line. -/
def bracedTable (value : Reader Value) : Reader Value := do
  symbol '{'
  let items ← separated (do let e ← entry value; gap; return e) ',' <|> pure []
  gap
  symbol '}'
  match items.foldlM (fun entries (k, v) => Entries.insert k.1 k.2 v entries) [] with
  | some entries => return .table .braces entries
  | none => failure

/-- A value that other values stand in at most `n` deep. -/
def value : Nat → Reader Value
  | 0 => scalar
  | n + 1 => array (value n) <|> bracedTable (value n) <|> scalar

/-! ## Lines -/

end Reader

/-- What stands on a line. -/
inductive Line where
  /-- Nothing. -/
  | empty
  /-- A key in brackets. -/
  | header (path : List String) (key : String)
  /-- A key in double brackets. -/
  | rowHeader (path : List String) (key : String)
  /-- A key and its value. -/
  | entry (path : List String) (key : String) (value : Value)
deriving Repr

namespace Reader

/-- A header in double brackets. -/
def rowHeader : Reader Line := do
  symbols ['[', '[']
  let (path, last) ← key
  symbols [']', ']']
  return .rowHeader path last

/-- A header. -/
def header : Reader Line := do
  symbol '['
  let (path, last) ← key
  symbol ']'
  return .header path last

/-- A line, with the blanks that the next line starts with. -/
def line : Reader Line := do
  let l ← (do
      let l ← rowHeader <|> header <|> (do
        let ((path, last), v) ← entry (value (nestingLimit - 1))
        return .entry path last v)
      restOfLine
      return l)
    <|> (do lineBreak; return .empty)
    <|> (do comment; lineEnd; return .empty)
  gap
  return l

/-- The lines of a document. -/
def lines : Reader (List Line) := do
  let _ ← maybe (symbol '\uFEFF')
  gap
  let ls ← many line
  atEnd
  return ls

end Reader

/-! ## Documents -/

/-- What is known of a document after some of its lines. -/
structure Draft where
  /-- Where the table of the last header is. -/
  current : List String := []
  /-- The entries. -/
  entries : Entries := []
deriving Repr

/-- What is known of a document after one more line. -/
def Draft.extend (d : Draft) : Line → Option Draft
  | .empty => some d
  | .header path key => (d.entries.openTable path key).map fun entries => ⟨path ++ [key], entries⟩
  | .rowHeader path key => (d.entries.openRow path key).map fun entries => ⟨path ++ [key], entries⟩
  | .entry path key value =>
    (d.entries.insertAt d.current path key value).map fun entries => { d with entries }

/-- The entries of a document. -/
def entries? (document : String) : Option Entries :=
  match Reader.lines document.toList with
  | some (lines, _) => (lines.foldlM Draft.extend {}).map Draft.entries
  | none => none

example : (entries? "[[a]]\n[a.b]\n[[a]]\n[a.b]").isSome = true := by decide +kernel
example : (entries? "[a.b]\n[a]\nb.c = 1").isSome = false := by decide +kernel

end ContentServer.Toml
