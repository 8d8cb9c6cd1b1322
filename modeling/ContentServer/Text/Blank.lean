/-!
# Blank characters

Field values of a request, titles of documents and console commands are trimmed of blanks at both
ends.  Blank is what Unicode gives the property `White_Space`: six controls, the space, the
no-break space and a few spaces and separators beyond them.  The zero width space is not among
them.
-/

namespace ContentServer.Text

/-- Whether a character has the property `White_Space`. -/
def isBlank (c : Char) : Bool :=
  (0x09 ≤ c.toNat && c.toNat ≤ 0x0D) || c.toNat == 0x20 || c.toNat == 0x85 || c.toNat == 0xA0 ||
  c.toNat == 0x1680 || (0x2000 ≤ c.toNat && c.toNat ≤ 0x200A) || c.toNat == 0x2028 ||
  c.toNat == 0x2029 || c.toNat == 0x202F || c.toNat == 0x205F || c.toNat == 0x3000

/-- A text without the blanks at its two ends. -/
def trim (cs : List Char) : List Char :=
  ((cs.dropWhile isBlank).reverse.dropWhile isBlank).reverse

/-- The characters with `A` to `Z` in lower case.  All other characters stay as they are. -/
def lower (cs : List Char) : List Char := cs.map Char.toLower

example : [0x0B, 0x85, 0xA0, 0x2003, 0x3000].all (fun n => isBlank (Char.ofNat n)) = true := by
  decide
example : [0x1C, 0x200B, 0x2060, 0xFEFF].any (fun n => isBlank (Char.ofNat n)) = false := by decide
example : trim " \t a b\n ".toList = "a b".toList := by decide
example : trim "  ".toList = [] := by decide

end ContentServer.Text
