/-!
# Reading a settings document

A reader takes some characters from the front of what is left of a document and gives a value, or
it fails.  This module has the readers from which all others are made: single characters, runs of
characters, repetition, blanks, comments and the ends of lines.

A line ends with a line feed, which a carriage return may stand in front of, or at the end of the
document.  A comment runs from a `#` to the end of its line.  It holds no control character except
tabs.
-/

namespace ContentServer.Toml

/-- What takes characters from the front of a document and gives a value. -/
abbrev Reader := StateT (List Char) Option

namespace Reader

/-! ## Characters and repetition -/

/-- One character for which `p` holds. -/
def satisfy (p : Char → Bool) : Reader Char := fun
  | c :: cs => if p c then some (c, cs) else none
  | [] => none

/-- One given character. -/
def symbol (c : Char) : Reader Unit := do
  let _ ← satisfy (· == c)

/-- A given row of characters. -/
def symbols (w : List Char) : Reader Unit := w.forM symbol

/-- The longest run of characters for which `p` holds, which may be empty. -/
def span (p : Char → Bool) : Reader (List Char) := fun cs => some (cs.takeWhile p, cs.dropWhile p)

/-- The longest run of characters for which `p` holds, at least one. -/
def someSpan (p : Char → Bool) : Reader (List Char) := do
  let w ← span p
  if w.isEmpty then failure
  return w

/-- Nothing, at the end of the document. -/
def atEnd : Reader Unit := fun cs => if cs.isEmpty then some ((), []) else none

/-- The values of a reader that is applied until it fails, at most `n` times. -/
def atMost {α : Type} (p : Reader α) : Nat → Reader (List α)
  | 0 => pure []
  | n + 1 => (do
      let x ← p
      let xs ← atMost p n
      return x :: xs) <|> pure []

/-- The values of a reader that is applied until it fails.  Each time it takes at least one
character, so it cannot be applied more often than there are characters. -/
def many {α : Type} (p : Reader α) : Reader (List α) := fun cs => atMost p cs.length cs

/-- The values of a reader, with a given character between each two of them, at least one. -/
def separated {α : Type} (p : Reader α) (mark : Char) : Reader (List α) := do
  let x ← p
  let xs ← many (do symbol mark; p)
  return x :: xs

/-- What a reader gives, if it does not fail. -/
def maybe {α : Type} (p : Reader α) : Reader (Option α) := some <$> p <|> pure none

/-! ## Digits -/

/-- The number that a hexadecimal digit denotes. -/
def hexDigit? (c : Char) : Option Nat :=
  if c.isDigit then some (c.toNat - '0'.toNat)
  else if 'a' ≤ c && c ≤ 'f' then some (c.toNat - 'a'.toNat + 10)
  else if 'A' ≤ c && c ≤ 'F' then some (c.toNat - 'A'.toNat + 10)
  else none

/-! ## Blanks, lines and comments -/

/-- Whether a character is a blank within a line. -/
def isGap (c : Char) : Bool := c == ' ' || c == '\t'

/-- Any number of blanks. -/
def gap : Reader Unit := do
  let _ ← span isGap

/-- The end of a line before the end of the document. -/
def lineBreak : Reader Unit := symbol '\n' <|> symbols ['\r', '\n']

/-- Whether a character is neither a control character nor outside ASCII. -/
def isPrintable (c : Char) : Bool := 0x20 ≤ c.toNat && c.toNat ≤ 0x7E

/-- Whether a character may stand in a comment. -/
def isCommentChar (c : Char) : Bool := c == '\t' || isPrintable c || 0x80 ≤ c.toNat

/-- A comment, without the end of its line. -/
def comment : Reader Unit := do
  symbol '#'
  let _ ← span isCommentChar

/-- The end of a line or of the document. -/
def lineEnd : Reader Unit := lineBreak <|> atEnd

/-- What may follow an entry or a header on its line. -/
def restOfLine : Reader Unit := do
  gap
  let _ ← maybe comment
  lineEnd

/-- Any number of blanks, comments and ends of lines. -/
def filler : Reader Unit := do
  let _ ← many ((do let _ ← someSpan isGap) <|> lineBreak <|> comment)

example : (filler " # a\n\t\r\nb".toList) = some ((), ['b']) := by decide +kernel
example : (restOfLine " # a\r\nb".toList) = some ((), ['b']) := by decide +kernel
example : (restOfLine " # a\rb".toList) = none := by decide +kernel

end Reader

end ContentServer.Toml
