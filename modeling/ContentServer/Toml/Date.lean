import ContentServer.Toml.Reader

/-!
# Dates in a settings document

A date is four digits for the year, two for the month and two for the day, with `-` between them.
A time is two digits for the hour, the minute and the second, with `:` between them, and perhaps a
fraction of a second.  A time can stand alone, or after a date with `T`, `t` or a space between
them.  After a date and a time, the offset from universal time can follow.

The month must have the day, in its year.  The hour is below 24, the minute below 60, and the
second at most 60, since a minute can have a leap second.
-/

namespace ContentServer.Toml.Reader

/-- The number that exactly `n` digits denote. -/
def fixedNumber (n : Nat) : Reader Nat := do
  let ds ← (List.replicate n ()).mapM fun _ => satisfy Char.isDigit
  return Nat.ofDigitChars 10 ds 0

/-- Two digits for a number within bounds. -/
def twoDigits (least most : Nat) : Reader Nat := do
  let n ← fixedNumber 2
  if least ≤ n && n ≤ most then return n else failure

/-- Whether a year has a leap day. -/
def isLeapYear (year : Nat) : Bool := year % 4 == 0 && (year % 100 != 0 || year % 400 == 0)

/-- The number of days in a month. -/
def daysInMonth (year month : Nat) : Nat :=
  if month = 2 then if isLeapYear year then 29 else 28
  else if [4, 6, 9, 11].contains month then 30
  else 31

/-- A day. -/
def day : Reader Unit := do
  let year ← fixedNumber 4
  symbol '-'
  let month ← twoDigits 1 12
  symbol '-'
  let _ ← twoDigits 1 (daysInMonth year month)

/-- A time of the day. -/
def timeOfDay : Reader Unit := do
  let _ ← twoDigits 0 23
  symbol ':'
  let _ ← twoDigits 0 59
  symbol ':'
  let _ ← twoDigits 0 60
  let _ ← maybe (do symbol '.'; someSpan Char.isDigit)

/-- The offset of a time from universal time. -/
def offset : Reader Unit :=
  symbol 'Z' <|> symbol 'z' <|> (do
    symbol '+' <|> symbol '-'
    let _ ← twoDigits 0 23
    symbol ':'
    let _ ← twoDigits 0 59)

/-- A date, a time, or both. -/
def date : Reader Unit :=
  (do
    day
    let _ ← maybe (do
      symbol 'T' <|> symbol 't' <|> symbol ' '
      timeOfDay
      maybe offset))
    <|> timeOfDay

example : date "2024-02-29 07:32:60.5-23:59".toList = some ((), []) := by decide +kernel
example : date "1900-02-29".toList = none := by decide +kernel

end ContentServer.Toml.Reader
