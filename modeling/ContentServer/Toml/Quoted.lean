import ContentServer.Toml.Reader

/-!
# Quoted texts

A text can be quoted in four ways.

* In double quotes, with escapes, on one line.
* In single quotes, without escapes, on one line.
* In three double quotes, with escapes, on any number of lines.
* In three single quotes, without escapes, on any number of lines.

An escape is a backslash with one of `b`, `t`, `n`, `f`, `r`, `"`, `\`, or with `u` and four or `U`
and eight hexadecimal digits that name a character.  In three double quotes a backslash can also
stand at the end of a line, with blanks after it.  It then leaves out everything up to the next
character that is neither a blank nor the end of a line.

The end of a line right after three opening quotes is left out, and every other one is a line
feed.  Up to two quotes in a row belong to a text in three quotes, also at its very end.
-/

namespace ContentServer.Toml.Reader

/-! ## Escapes -/

/-- Whether a character stands for itself between quotes that are not `quote`.  Backslashes do if
`raw` is set. -/
def isPlain (quote : Char) (raw : Bool) (c : Char) : Bool :=
  (c == '\t' || isPrintable c || 0x80 ≤ c.toNat) && c != quote && (raw || c != '\\')

/-- The number that `n` hexadecimal digits denote, after the digits for `value`. -/
def hexNumber (value : Nat) : Nat → Reader Nat
  | 0 => pure value
  | n + 1 => do
    match hexDigit? (← satisfy fun _ => true) with
    | some d => hexNumber (16 * value + d) n
    | none => failure

/-- The character that `n` hexadecimal digits name. -/
def hexChar (n : Nat) : Reader Char := do
  let value ← hexNumber 0 n
  if value.isValidChar then return Char.ofNat value else failure

/-- The character that a backslash and what follows it stand for. -/
def escaped : Reader Char := do
  symbol '\\'
  match ← satisfy fun _ => true with
  | 'b' => return '\x08'
  | 't' => return '\t'
  | 'n' => return '\n'
  | 'f' => return '\x0c'
  | 'r' => return '\r'
  | '"' => return '"'
  | '\\' => return '\\'
  | 'u' => hexChar 4
  | 'U' => hexChar 8
  | _ => failure

/-! ## On one line -/

/-- A text in double quotes. -/
def doubleQuoted : Reader String := do
  symbol '"'
  let cs ← many (satisfy (isPlain '"' false) <|> escaped)
  symbol '"'
  return String.ofList cs

/-- A text in single quotes. -/
def singleQuoted : Reader String := do
  symbol '\''
  let cs ← span (isPlain '\'' true)
  symbol '\''
  return String.ofList cs

/-! ## On several lines -/

/-- A backslash at the end of a line, with all that it leaves out. -/
def foldedLine : Reader Unit := do
  symbol '\\'
  gap
  lineBreak
  let _ ← many ((do let _ ← someSpan isGap) <|> lineBreak)

/-- At most two quotes in a row. -/
def innerQuotes (quote : Char) : Reader (List Char) := do
  let quotes ← someSpan (· == quote)
  if quotes.length < 3 then return quotes else failure

/-- A part of a text on several lines, which ends at three quotes in a row. -/
def multilinePart (quote : Char) (raw : Bool) : Reader (List Char) :=
  someSpan (isPlain quote raw)
    <|> (do lineBreak; return ['\n'])
    <|> innerQuotes quote
    <|> (do if raw then failure else foldedLine; return [])
    <|> (do if raw then failure else return [← escaped])

/-- The three quotes that end a text.  Up to two more before them belong to the text. -/
def lastQuotes (quote : Char) : Reader (List Char) := do
  symbols [quote, quote, quote]
  let more ← maybe (symbols [quote, quote])
  if more.isSome then return [quote, quote]
  let more ← maybe (symbol quote)
  return if more.isSome then [quote] else []

/-- A text in three quotes. -/
def multiline (quote : Char) (raw : Bool) : Reader String := do
  symbols [quote, quote, quote]
  let _ ← maybe lineBreak
  let parts ← many (multilinePart quote raw)
  let quotes ← lastQuotes quote
  return String.ofList (parts.flatten ++ quotes)

/-- Whether three of a character come next. -/
def threeAhead (c : Char) : Reader Bool := fun cs => some ([c, c, c].isPrefixOf cs, cs)

/-- A text in quotes of any kind. -/
def quoted : Reader String := do
  if ← threeAhead '"' then multiline '"' false
  else if ← threeAhead '\'' then multiline '\'' true
  else doubleQuoted <|> singleQuoted

example : quoted "\"\"\"\r\na\r\nb\\ \n \n c\"\"\"\"\"".toList = some ("a\nbc\"\"", []) := by
  decide +kernel
example : quoted "\"\\uD800\"".toList = none := by decide +kernel

end ContentServer.Toml.Reader
