import Mathlib.Data.Int.DivMod
import Mathlib.Tactic.Common

/-!
# Dates

Instants as the host language counts them: milliseconds of the UTC calendar, up to a hundred
million days from its epoch, with their ISO texts.
-/

namespace Lib

/-- `8.64e15`, the milliseconds of a hundred million days. -/
def maxTimeValue : Int := 8640000000000000

structure Date where
  ms : Int
  inRange : -maxTimeValue ≤ ms ∧ ms ≤ maxTimeValue
  deriving DecidableEq

namespace Date

@[ext]
theorem ext {d d' : Date} (h : d.ms = d'.ms) : d = d' := by
  cases d
  cases d'
  cases h
  rfl

def ofMillis? (ms : Int) : Option Date :=
  if h : -maxTimeValue ≤ ms ∧ ms ≤ maxTimeValue then some ⟨ms, h⟩ else none

theorem ms_of_ofMillis? {ms : Int} {d : Date} (h : ofMillis? ms = some d) : d.ms = ms := by
  unfold ofMillis? at h
  split at h
  · cases h
    rfl
  · cases h

def epoch : Date := ⟨0, by decide⟩

/-! ## Texts -/

/-- Year, month and day of a day counted from the epoch, in the proleptic Gregorian calendar; years
are counted from March, in eras of four hundred. -/
def civilFromDays (days : Int) : Int × Int × Int :=
  let shifted := days + 719468
  let era := shifted.fdiv 146097
  let dayOfEra := shifted - era * 146097
  let yearOfEra := (dayOfEra - dayOfEra / 1460 + dayOfEra / 36524 - dayOfEra / 146096) / 365
  let dayOfYear := dayOfEra - (365 * yearOfEra + yearOfEra / 4 - yearOfEra / 100)
  let shiftedMonth := (5 * dayOfYear + 2) / 153
  let day := dayOfYear - (153 * shiftedMonth + 2) / 5 + 1
  let month := if shiftedMonth < 10 then shiftedMonth + 3 else shiftedMonth - 9
  let year := yearOfEra + era * 400 + if month ≤ 2 then 1 else 0
  (year, month, day)

def padded (width : Nat) (n : Int) : String :=
  let digits := toString n.natAbs
  String.ofList (List.replicate (width - digits.length) '0') ++ digits

def yearText (year : Int) : String :=
  if 0 ≤ year ∧ year ≤ 9999 then padded 4 year
  else (if year < 0 then "-" else "+") ++ padded 6 year

def toISOString (d : Date) : String :=
  let days := d.ms.fdiv 86400000
  let time := d.ms - days * 86400000
  let (year, month, day) := civilFromDays days
  yearText year ++ "-" ++ padded 2 month ++ "-" ++ padded 2 day ++ "T" ++
    padded 2 (time / 3600000) ++ ":" ++ padded 2 (time / 60000 % 60) ++ ":" ++
    padded 2 (time / 1000 % 60) ++ "." ++ padded 3 (time % 1000) ++ "Z"

example : (⟨1709210096789, by decide⟩ : Date).toISOString = "2024-02-29T12:34:56.789Z" := by
  decide +kernel

end Date

end Lib
