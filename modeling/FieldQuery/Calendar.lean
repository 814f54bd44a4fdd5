/-!
# Dates and times

Days and microseconds counted from the start of the year 2000, written in the form of RFC 3339.
Only days from the year -262143 to the year 262142 have a date.
-/

namespace FieldQuery.Calendar

/-- A day of the proleptic Gregorian calendar. -/
structure Date where
  year : Int
  month : Nat
  day : Nat
  deriving DecidableEq, Repr

/-- Days from the first of March of the year 0 to the first of January 2000. -/
def daysBeforeEpoch : Int := 730425

/-- The date of a day counted from 2000-01-01.  Years are counted from March within eras of four
centuries, so that the leap day is the last of its year. -/
def Date.ofDays (days : Int) : Date :=
  let shifted := days + daysBeforeEpoch
  let era := Int.fdiv shifted 146097
  let dayOfEra := (Int.fmod shifted 146097).toNat
  -- leap days in front of the day are taken out, so that every year has 365 days
  let yearOfEra := (dayOfEra - dayOfEra / 1460 + dayOfEra / 36524 - dayOfEra / 146096) / 365
  let dayOfYear := dayOfEra - (365 * yearOfEra + yearOfEra / 4 - yearOfEra / 100)
  -- from March on, five months in a row have 153 days
  let monthFromMarch := (5 * dayOfYear + 2) / 153
  let day := dayOfYear - (153 * monthFromMarch + 2) / 5 + 1
  let month := if monthFromMarch < 10 then monthFromMarch + 3 else monthFromMarch - 9
  let year : Int := yearOfEra + era * 400 + (if month ≤ 2 then 1 else 0)
  ⟨year, month, day⟩

/-- Whether the year has a date at all. -/
def Date.inRange (d : Date) : Bool :=
  -262143 ≤ d.year && d.year ≤ 262142

/-- A number filled up with zeros to a least number of digits. -/
def padded (width n : Nat) : String :=
  let digits := toString n
  String.ofList (List.replicate (width - digits.length) '0') ++ digits

/-- Years of four digits are bare, all others carry a sign. -/
def yearText (year : Int) : String :=
  if 0 ≤ year ∧ year ≤ 9999 then padded 4 year.toNat
  else if year < 0 then "-" ++ padded 4 year.natAbs
  else "+" ++ toString year.toNat

def Date.text (d : Date) : String :=
  yearText d.year ++ "-" ++ padded 2 d.month ++ "-" ++ padded 2 d.day

def microsPerDay : Int := 86400000000

/-- A fraction of a second in 0, 3 or 6 digits, as few as are exact. -/
def fractionText (micros : Nat) : String :=
  if micros = 0 then ""
  else if micros % 1000 = 0 then "." ++ padded 3 (micros / 1000)
  else "." ++ padded 6 micros

/-- The time of day, counted in microseconds from midnight. -/
def timeText (micros : Nat) : String :=
  let seconds := micros / 1000000
  padded 2 (seconds / 3600) ++ ":" ++ padded 2 (seconds / 60 % 60) ++ ":" ++
    padded 2 (seconds % 60) ++ fractionText (micros % 1000000)

/-- The date of a day, if it has one. -/
def dateText? (days : Int) : Option String :=
  let date := Date.ofDays days
  if date.inRange then some date.text else none

/-- Date and time of a moment, in microseconds from the start of 2000. -/
def momentText? (micros : Int) : Option String :=
  let days := Int.fdiv micros microsPerDay
  (dateText? days).map fun date =>
    date ++ "T" ++ timeText (Int.fmod micros microsPerDay).toNat

end FieldQuery.Calendar
