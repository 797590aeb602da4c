/-!
# Time stamps

Instants in Coordinated Universal Time, by seconds since the start of 1970 and nanoseconds. A leap
second is the last second of a minute with nanoseconds from 10⁹ on; it is shown as second 60. Dates
are those of the Gregorian calendar, extended to all years from `minYear` to `maxYear`.
-/

namespace ExecWatch

/-- An instant: seconds since the start of 1970, and nanoseconds. -/
structure Timestamp where
  seconds : Int
  nanos : Nat
deriving Repr, DecidableEq

/-- A day of the calendar. -/
structure CivilDate where
  year : Int
  month : Nat
  day : Nat
deriving Repr, DecidableEq

namespace CivilDate

/-- Days of a span of 400 years. -/
def daysPerEra : Nat := 146097

/-- Days from the first of March of year 0 to the start of 1970. -/
def epochDays : Nat := 719468

/-- The day that lies `days` after the start of 1970. Years are counted from March, so that a leap day
is a year's last, and in eras of 400 years, which are all alike. -/
def ofDays (days : Int) : CivilDate :=
  let shifted := days + epochDays
  let era := shifted.fdiv daysPerEra
  let dayOfEra := (shifted.fmod daysPerEra).toNat
  let yearOfEra := (dayOfEra - dayOfEra / 1460 + dayOfEra / 36524 - dayOfEra / 146096) / 365
  let dayOfYear := dayOfEra - (365 * yearOfEra + yearOfEra / 4 - yearOfEra / 100)
  let fromMarch := (5 * dayOfYear + 2) / 153
  let day := dayOfYear - (153 * fromMarch + 2) / 5 + 1
  let month := if fromMarch < 10 then fromMarch + 3 else fromMarch - 9
  ⟨yearOfEra + era * 400 + (if month ≤ 2 then 1 else 0), month, day⟩

end CivilDate

namespace Timestamp

/-- The first year whose instants can be held. -/
def minYear : Int := -262143

/-- The last year whose instants can be held. -/
def maxYear : Int := 262142

def secondsPerDay : Nat := 86400

def nanosPerSecond : Nat := 1000000000

/-- The second of the day. -/
def secondOfDay (t : Timestamp) : Nat :=
  (t.seconds.fmod secondsPerDay).toNat

def date (t : Timestamp) : CivilDate :=
  CivilDate.ofDays (t.seconds.fdiv secondsPerDay)

/-- The instant of the given seconds and nanoseconds, if it can be held. -/
def ofParts? (seconds : Int) (nanos : Nat) : Option Timestamp :=
  let t : Timestamp := ⟨seconds, nanos⟩
  let year := t.date.year
  let leap := nanosPerSecond ≤ nanos && nanos < 2 * nanosPerSecond && t.secondOfDay % 60 = 59
  if minYear ≤ year && year ≤ maxYear && (nanos < nanosPerSecond || leap) then some t else none

/-! ## Text -/

/-- A number of at least `width` decimal digits. -/
def padded (width n : Nat) : String :=
  let digits := Nat.toDigits 10 n
  String.ofList (List.replicate (width - digits.length) '0' ++ digits)

/-- A year: four digits, and a sign when that is not enough. -/
def yearText (year : Int) : String :=
  if 0 ≤ year && year ≤ 9999 then padded 4 year.toNat
  else (if year < 0 then "-" else "+") ++ padded 4 year.natAbs

/-- The fraction of a second, by as many groups of three digits as it needs. -/
def fractionText (nanos : Nat) : String :=
  if nanos = 0 then ""
  else if nanos % 1000000 = 0 then "." ++ padded 3 (nanos / 1000000)
  else if nanos % 1000 = 0 then "." ++ padded 6 (nanos / 1000)
  else "." ++ padded 9 nanos

def dateText (t : Timestamp) : String :=
  let d := t.date
  yearText d.year ++ "-" ++ padded 2 d.month ++ "-" ++ padded 2 d.day

def timeText (t : Timestamp) : String :=
  let s := t.secondOfDay
  let leap := t.nanos / nanosPerSecond
  padded 2 (s / 3600) ++ ":" ++ padded 2 (s / 60 % 60) ++ ":" ++ padded 2 (s % 60 + leap) ++
    fractionText (t.nanos % nanosPerSecond)

/-- The instant in the form that JSON lines carry. -/
def toIso (t : Timestamp) : String :=
  t.dateText ++ "T" ++ t.timeText ++ "Z"

/-- The instant in the form that log lines carry. -/
def toText (t : Timestamp) : String :=
  t.dateText ++ " " ++ t.timeText ++ " UTC"

end Timestamp

end ExecWatch
