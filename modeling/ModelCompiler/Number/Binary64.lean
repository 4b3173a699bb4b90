/-!
# Binary floating point

A `Binary64` is a number of the 64-bit format with 53 significant bits, kept as the exact dyadic fraction it denotes,
so that it is compared with integers without rounding. `nearest` reads a decimal: it rounds to the nearest number of
the format, a tie to the one with the even last bit, and what lies beyond the greatest number is infinite.
-/

namespace ModelCompiler

inductive Binary64 where
  | finite (value : Dyadic)
  | negativeZero
  | infinity (negative : Bool)
  | notANumber
  deriving DecidableEq

/-- The power of two with an exponent, and one where it is negative. -/
def powerOfTwo (exponent : Int) : Nat := Nat.pow 2 exponent.toNat

/-- The power of ten with an exponent, and one where it is negative. -/
def powerOfTen (exponent : Int) : Nat := Nat.pow 10 exponent.toNat

/-- `num / den` rounded to the nearest integer, a tie to the even one. -/
def roundRatio (num den : Nat) : Nat :=
  let q := num / den
  let r := num % den
  if 2 * r < den ∨ (2 * r = den ∧ q % 2 = 0) then q else q + 1

namespace Binary64

/-- The exponent of the greatest power of two that is at most `num / den`. -/
def floorLog2 (num den : Nat) : Int :=
  let e : Int := num.log2 - den.log2
  if num * powerOfTwo (-e) < den * powerOfTwo e then e - 1 else e

/-- The exponent of the last bit that the format keeps of a number from `2 ^ e` up to `2 ^ (e + 1)`. -/
def lastBit (e : Int) : Int := max (e - 52) (-1074)

/-- The zero with the given sign. -/
def zero (negative : Bool) : Binary64 := if negative then .negativeZero else .finite .zero

/-- The number nearest to `num / den` in size. -/
def ofRatio (negative : Bool) (num den : Nat) : Binary64 :=
  let q := lastBit (floorLog2 num den)
  let m := roundRatio (num * powerOfTwo (-q)) (den * powerOfTwo q)
  if m = 0 then zero negative
  else if 1024 ≤ q + m.log2 then .infinity negative
  else .finite (.ofIntWithPrec (if negative then -m else m) (-q))

/-- The number nearest to `digits * 10 ^ exponent` in size. The first two tests keep the powers of ten small: a size
of at least `10 ^ 310` is beyond the format and one below `10 ^ (-330)` rounds to zero. -/
def nearest (negative : Bool) (digits : Nat) (exponent : Int) : Binary64 :=
  let order := (Nat.toDigits 10 digits).length + exponent
  if digits = 0 ∨ order < -330 then zero negative
  else if 310 < order then .infinity negative
  else ofRatio negative (digits * powerOfTen exponent) (powerOfTen (-exponent))

/-- The fraction that a finite number denotes. -/
def toDyadic? : Binary64 → Option Dyadic
  | .finite value => some value
  | .negativeZero => some .zero
  | _ => none

/-- Numeric equality: the zeros are equal and what is not a number equals nothing. -/
def same (x y : Binary64) : Bool :=
  match x.toDyadic?, y.toDyadic? with
  | some a, some b => a = b
  | none, none => x = y && x ≠ .notANumber
  | _, _ => false

/-- Whether the number is exactly the integer. -/
def isInt (x : Binary64) (n : Int) : Bool := x.toDyadic? = some (.ofInt n)

theorem same_self {x : Binary64} (h : x ≠ .notANumber) : x.same x = true := by
  cases x <;> simp_all [same, toDyadic?]

end Binary64

end ModelCompiler
