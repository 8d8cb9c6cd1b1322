/-!
# Dates

The head of an answer shows the wall clock as a date, such as `Thu, 12 Jun 2025 10:33:00 GMT`.

The calendar is the Gregorian one.  Its days repeat every 400 years, which are 146097 days, so a
day is found in three steps: the period of 400 years, the year in it, and the day of that year.
Years are counted from the first of March.  The leap day is then the last day of its year, and the
lengths of the months before a day are a linear formula.
-/

namespace ContentServer

/-- A day of the calendar. -/
structure Date where
  year : Nat
  /-- The month, from 1 to 12. -/
  month : Nat
  /-- The day of the month, from 1 on. -/
  day : Nat
deriving DecidableEq, Repr

namespace Date

/-- The days from the first of March of the year 0 to the first of January 1970. -/
def epoch : Nat := 719468

/-- The day that lies some days after the first of January 1970. -/
def ofDays (days : Nat) : Date :=
  let z := days + epoch
  let period := z / 146097
  let inPeriod := z % 146097
  let yearOfPeriod :=
    (inPeriod - inPeriod / 1460 + inPeriod / 36524 - inPeriod / 146096) / 365
  let inYear := inPeriod - (365 * yearOfPeriod + yearOfPeriod / 4 - yearOfPeriod / 100)
  let monthFromMarch := (5 * inYear + 2) / 153
  let day := inYear - (153 * monthFromMarch + 2) / 5 + 1
  let month := if monthFromMarch < 10 then monthFromMarch + 3 else monthFromMarch - 9
  let year := period * 400 + yearOfPeriod + (if month ≤ 2 then 1 else 0)
  { year, month, day }

/-- The name of the day of the week, some days after the first of January 1970, a Thursday. -/
def weekday (days : Nat) : String :=
  match days % 7 with
  | 0 => "Thu"
  | 1 => "Fri"
  | 2 => "Sat"
  | 3 => "Sun"
  | 4 => "Mon"
  | 5 => "Tue"
  | _ => "Wed"

/-- The name of a month. -/
def monthName : Nat → String
  | 1 => "Jan"
  | 2 => "Feb"
  | 3 => "Mar"
  | 4 => "Apr"
  | 5 => "May"
  | 6 => "Jun"
  | 7 => "Jul"
  | 8 => "Aug"
  | 9 => "Sep"
  | 10 => "Oct"
  | 11 => "Nov"
  | _ => "Dec"

/-- A number in at least `width` digits. -/
def padded (width n : Nat) : String :=
  let digits := toString n
  String.ofList (List.replicate (width - digits.length) '0') ++ digits

/-- A year in four digits.  A longer one gets a plus sign. -/
def yearText (year : Nat) : String := if year > 9999 then "+" ++ toString year else padded 4 year

/-- The date and time of day that the wall clock shows. -/
def format (wall : Nat) : String :=
  let days := wall / 86400
  let second := wall % 86400
  let date := ofDays days
  weekday days ++ ", " ++ padded 2 date.day ++ " " ++ monthName date.month ++ " " ++
    yearText date.year ++ " " ++ padded 2 (second / 3600) ++ ":" ++
    padded 2 (second % 3600 / 60) ++ ":" ++ padded 2 (second % 60) ++ " GMT"

example : format 1749724380 = "Thu, 12 Jun 2025 10:33:00 GMT" := by decide +kernel
example : ofDays 11016 = ⟨2000, 2, 29⟩ := by decide
example : format 253402300800 = "Sat, 01 Jan +10000 00:00:00 GMT" := by decide +kernel

end Date

end ContentServer
