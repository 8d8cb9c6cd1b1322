/-!
# Decimal numbers

Numbers stand in requests, paths and settings as decimal digits.  `digits?` reads a non-empty run
of ASCII digits, leading zeros allowed, and `natural?` also allows one plus sign in front and
refuses what is too large for the place where the number goes.

`digits?_toDigits` says that what is written in decimal is read back.
-/

namespace ContentServer.Text

/-- The number that a non-empty run of ASCII digits denotes. -/
def digits? (cs : List Char) : Option Nat :=
  if cs.isEmpty || !cs.all Char.isDigit then none else some (Nat.ofDigitChars 10 cs 0)

/-- A number below `bound`, written in digits with at most one plus sign in front. -/
def natural? (bound : Nat) (cs : List Char) : Option Nat :=
  (digits? (if cs.head? = some '+' then cs.tail else cs)).filter (· < bound)

/-- The digits of a number denote that number. -/
theorem digits?_toDigits (n : Nat) : digits? (Nat.toDigits 10 n) = some n := by
  have hall : (Nat.toDigits 10 n).all Char.isDigit = true :=
    List.all_eq_true.mpr fun c hc => Nat.isDigit_of_mem_toDigits (by decide) (by decide) hc
  have hne : (Nat.toDigits 10 n).isEmpty = false := by
    simp [List.isEmpty_eq_false_iff, Nat.toDigits_ne_nil]
  rw [digits?, hall, hne]
  simp

example : digits? "007".toList = some 7 := by decide
example : natural? 65536 "+65535".toList = some 65535 := by decide
example : ["65536", "", "+", "++1", "-0", "1 ", "١"].map (fun s => natural? 65536 s.toList)
    = List.replicate 7 none := by decide

end ContentServer.Text
