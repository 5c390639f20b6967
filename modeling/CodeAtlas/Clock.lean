/-!
# CodeAtlas.Clock

Points in time as texts: the date and time of day in universal time, as in
`2024-02-29T12:30:00Z`.

1. a year has 366 days if it is divisible by four, but not by a hundred unless by four
   hundred; days are counted in eras of four hundred years, which all have the same
   number of days, and in years that start in March, so that the odd day comes last;
2. milliseconds are written only where there are some.
-/

namespace CodeAtlas.Clock

/-- Days from the first of March of the year 0 to the first of January 1970. -/
def epochDays : Int := 719468

/-- Days of four hundred years. -/
def eraDays : Nat := 146097

/-- Year, month and day that lie some days after the first of January 1970. -/
def dateOf (days : Int) : Int × Nat × Nat :=
  let d := days + epochDays
  let era := d.fdiv eraDays
  let day := (d.fmod eraDays).toNat
  let year := (day - day / 1460 + day / 36524 - day / 146096) / 365
  let dayOfYear := day - (365 * year + year / 4 - year / 100)
  let month := (5 * dayOfYear + 2) / 153
  let dayOfMonth := dayOfYear - (153 * month + 2) / 5 + 1
  let month := if month < 10 then month + 3 else month - 9
  (era * 400 + year + (if month ≤ 2 then 1 else 0), month, dayOfMonth)

/-- A number with zeros before it up to some width. -/
def padded (width n : Nat) : String :=
  let ds := (Nat.toDigits 10 n)
  String.ofList (List.replicate (width - ds.length) '0' ++ ds)

/-- A year has four digits; any other has a sign before it. -/
def yearText (year : Int) : String :=
  if year < 0 then "-" ++ padded 4 year.natAbs
  else if 9999 < year then "+" ++ padded 4 year.natAbs
  else padded 4 year.natAbs

/-- The text of a time, given in milliseconds since the start of the year 1970. -/
def text (ms : Int) : String :=
  let (year, month, day) := dateOf (ms.fdiv 86400000)
  let t := (ms.fmod 86400000).toNat
  yearText year ++ "-" ++ padded 2 month ++ "-" ++ padded 2 day ++ "T" ++
    padded 2 (t / 3600000) ++ ":" ++ padded 2 (t / 60000 % 60) ++ ":" ++
    padded 2 (t / 1000 % 60) ++
    (if t % 1000 == 0 then "" else "." ++ padded 3 (t % 1000)) ++ "Z"

end CodeAtlas.Clock
