/-!
# Dates

Days of the calendar and moments of a day, with their ISO 8601 texts. A moment is written to the second, or to the
microsecond when it is not a whole second.
-/

namespace ModelCompiler

structure Date where
  year : Nat
  month : Nat
  day : Nat
  deriving DecidableEq

structure DateTime where
  date : Date
  hour : Nat
  minute : Nat
  second : Nat
  microsecond : Nat
  deriving DecidableEq

/-- The decimal digits of `n`, with zeros in front up to the width. -/
def padded (width n : Nat) : String :=
  let digits := Nat.toDigits 10 n
  String.ofList (List.replicate (width - digits.length) '0' ++ digits)

def Date.text (d : Date) : String :=
  padded 4 d.year ++ "-" ++ padded 2 d.month ++ "-" ++ padded 2 d.day

def DateTime.text (t : DateTime) : String :=
  t.date.text ++ "T" ++ padded 2 t.hour ++ ":" ++ padded 2 t.minute ++ ":" ++ padded 2 t.second ++
    if t.microsecond = 0 then "" else "." ++ padded 6 t.microsecond

/-- The date that `year-month-day` names. -/
def Date.ofText? (s : String) : Option Date :=
  match s.splitOn "-" with
  | [year, month, day] => return ⟨← year.toNat?, ← month.toNat?, ← day.toNat?⟩
  | _ => none

/-- The seconds of a time and their fraction to the microsecond; further digits are dropped. -/
def secondsOfText? (s : String) : Option (Nat × Nat) :=
  match s.splitOn "." with
  | [whole] => return (← whole.toNat?, 0)
  | [whole, fraction] => do
    let digits := (fraction.toList ++ List.replicate 6 '0').take 6
    return (← whole.toNat?, ← (String.ofList digits).toNat?)
  | _ => none

/-- The moment that a date, a `T` and the time from the hour on name. Minutes and seconds may be left out. -/
def DateTime.ofText? (s : String) : Option DateTime := do
  let [day, time] := s.splitOn "T" | none
  let date ← Date.ofText? day
  match time.splitOn ":" with
  | [hour] => return ⟨date, ← hour.toNat?, 0, 0, 0⟩
  | [hour, minute] => return ⟨date, ← hour.toNat?, ← minute.toNat?, 0, 0⟩
  | [hour, minute, seconds] => do
    let (second, microsecond) ← secondsOfText? seconds
    return ⟨date, ← hour.toNat?, ← minute.toNat?, second, microsecond⟩
  | _ => none

end ModelCompiler
