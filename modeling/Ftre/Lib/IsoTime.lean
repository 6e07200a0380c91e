import Mathlib.Data.Int.Basic

/-!
UTC timestamps in ISO 8601 from milliseconds since the epoch, on the proleptic
Gregorian calendar.
-/

namespace Ftre.Lib.IsoTime

def civil (days : Int) : Int × Int × Int :=
  let shifted := days + 719468
  let era := shifted / 146097
  let dayOfEra := shifted % 146097
  let yearOfEra := (dayOfEra - dayOfEra / 1460 + dayOfEra / 36524 - dayOfEra / 146096) / 365
  let dayOfYear := dayOfEra - (365 * yearOfEra + yearOfEra / 4 - yearOfEra / 100)
  let monthIndex := (5 * dayOfYear + 2) / 153
  let day := dayOfYear - (153 * monthIndex + 2) / 5 + 1
  let month := if monthIndex < 10 then monthIndex + 3 else monthIndex - 9
  let year := yearOfEra + era * 400 + (if month ≤ 2 then 1 else 0)
  (year, month, day)

/-- The last `width` decimal digits. -/
def digits (value : Nat) : Nat → List Char
  | 0 => []
  | width + 1 => digits (value / 10) width ++ [Char.ofNat (48 + value % 10)]

def padded (value : Int) (width : Nat) : String := String.ofList (digits value.toNat width)

/-- `datetime.fromtimestamp(ms / 1000, tz=UTC).isoformat()`; the fraction is
written only when it is not zero. -/
def fromMs (ms : Int) : String :=
  let seconds := ms / 1000
  let fraction := ms % 1000
  let date := civil (seconds / 86400)
  let ofDay := seconds % 86400
  padded date.1 4 ++ "-" ++ padded date.2.1 2 ++ "-" ++ padded date.2.2 2 ++ "T" ++
    padded (ofDay / 3600) 2 ++ ":" ++ padded (ofDay / 60 % 60) 2 ++ ":" ++ padded (ofDay % 60) 2 ++
    (if fraction = 0 then "" else "." ++ padded fraction 3 ++ "000") ++ "+00:00"

end Ftre.Lib.IsoTime
