import ContentServer.Toml.Reader

/-!
# Numbers in a settings document

A whole number is written in decimal, with an optional sign and no zero in front, or without a
sign in hexadecimal, octal or binary after `0x`, `0o` or `0b`.  It must fit into 64 bits with a
sign.

A floating point number is a whole decimal number with a fraction, an exponent, or both, or it is
one of `inf` and `nan` with an optional sign.  A positive number that is too large for the binary
format with 64 bits is refused.  A negative one stands for minus infinity.

Single underscores can stand between two digits.
-/

namespace ContentServer.Toml.Reader

/-! ## Digits and signs -/

/-- Digits with single underscores between some of them, which are left out. -/
def digits (isDigit : Char → Bool) : Reader (List Char) := do
  let d ← satisfy isDigit
  let ds ← many (satisfy isDigit <|> (do symbol '_'; satisfy isDigit))
  return d :: ds

/-- An optional sign: whether it is a minus. -/
def sign : Reader Bool := (do symbol '-'; return true) <|> (do symbol '+'; return false)
  <|> pure false

/-- The digits of a decimal number, which is `0` or does not start with it. -/
def wholeDigits : Reader (List Char) := (do symbol '0'; return ['0']) <|> digits Char.isDigit

/-! ## Whole numbers -/

/-- A number with its sign, if it fits into 64 bits. -/
def signed (negative : Bool) (n : Nat) : Reader Int :=
  if negative then if n ≤ UInt64.size / 2 then pure (-(n : Int)) else failure
  else if n < UInt64.size / 2 then pure n else failure

/-- Whether a character is a digit in a base up to sixteen. -/
def isDigitIn (base : Nat) (c : Char) : Bool := (hexDigit? c).any (· < base)

/-- The number that digits in a base denote. -/
def ofDigits (base : Nat) (ds : List Char) : Nat :=
  ds.foldl (fun n c => base * n + (hexDigit? c).getD 0) 0

/-- A number in another base than ten, after a zero and a letter for the base. -/
def based (letter : Char) (base : Nat) : Reader Int := do
  symbols ['0', letter]
  let ds ← digits (isDigitIn base)
  signed false (ofDigits base ds)

/-- A whole number. -/
def integer : Reader Int :=
  based 'x' 16 <|> based 'o' 8 <|> based 'b' 2 <|> (do
    let negative ← sign
    let ds ← wholeDigits
    signed negative (ofDigits 10 ds))

example : integer "-9_0".toList = some (-90, []) := by decide +kernel
example : integer "9223372036854775808".toList = none := by decide +kernel

/-! ## Floating point numbers -/

/-- The least number that is rounded to infinity: half a step above the largest number. -/
def floatBound : Nat := Nat.pow 2 1024 - Nat.pow 2 970

/-- Whether the number `m · 10 ^ e` is rounded to infinity. -/
def overflows (m : Nat) (e : Int) : Bool :=
  let top : Int := (Nat.toDigits 10 m).length + e
  if m = 0 || top < 300 then false
  else if 320 < top then true
  else floatBound * Nat.pow 10 (-e).toNat ≤ m * Nat.pow 10 e.toNat

/-- The digits after the point. -/
def fraction : Reader (List Char) := do
  symbol '.'
  digits Char.isDigit

/-- An exponent. -/
def exponent : Reader Int := do
  symbol 'e' <|> symbol 'E'
  let negative ← sign
  let n := ofDigits 10 (← digits Char.isDigit)
  return if negative then -n else n

/-- A decimal number with a fraction, an exponent, or both. -/
def decimalFloat : Reader Unit := do
  let negative ← sign
  let whole ← wholeDigits
  let fractional ← maybe fraction
  let scale ← maybe exponent
  if fractional.isNone && scale.isNone then failure
  let places := fractional.getD []
  let m := ofDigits 10 (whole ++ places)
  if !negative && overflows m (scale.getD 0 - places.length) then failure

/-- Infinity, or what is no number. -/
def specialFloat : Reader Unit := do
  let _ ← sign
  symbols ['i', 'n', 'f'] <|> symbols ['n', 'a', 'n']

/-- A floating point number. -/
def float : Reader Unit := decimalFloat <|> specialFloat

example : float "-1e999".toList = some ((), []) := by decide +kernel
example : float "1e309".toList = none := by decide +kernel

end ContentServer.Toml.Reader
