import ModelCompiler.Number.Binary64

/-!
# Shortest decimals

The text of a binary floating-point number is the shortest decimal that reads back as the number, and of these the
nearest to it. It is positional from `0.0001` up to sixteen digits before the point, with at least one digit after the
point; beyond that it has an exponent of at least two digits.
-/

namespace ModelCompiler.Binary64

/-- A positive number as `4 * mantissa` units with the two ends of the interval of reals that round to it, in the same
units, the unit being `num / den`. -/
structure Rounding where
  mantissa : Nat
  low : Nat
  high : Nat
  num : Nat
  den : Nat

/-- The numbers that round to `n * 2 ^ (-k)`. Below a power of two the numbers of the format stand closer. -/
def Rounding.of (n : Nat) (k : Int) : Rounding :=
  let e : Int := n.log2 - k
  let q := lastBit e
  let m := n * powerOfTwo (-k - q)
  let unit := q - 2
  { mantissa := m
    low := if m = powerOfTwo 52 ∧ -1074 < q then 4 * m - 1 else 4 * m - 2
    high := 4 * m + 2
    num := powerOfTwo unit
    den := powerOfTwo (-unit) }

/-- Whether `c * 10 ^ grid` reads back: the ends of the interval do when the mantissa is even. -/
def Rounding.holds (r : Rounding) (c : Nat) (grid : Int) : Bool :=
  let c' := c * powerOfTen grid * r.den
  let scale := powerOfTen (-grid) * r.num
  if r.mantissa % 2 = 0 then r.low * scale ≤ c' && c' ≤ r.high * scale
  else r.low * scale < c' && c' < r.high * scale

/-- The multiple of `10 ^ grid` next to the number that reads back, the nearer of two. -/
def Rounding.onGrid? (r : Rounding) (grid : Int) : Option Nat :=
  let value := 4 * r.mantissa * (powerOfTen (-grid) * r.num)
  let step := powerOfTen grid * r.den
  let below := value / step
  let nearer := roundRatio value step
  if r.holds nearer grid then some nearer
  else if r.holds below grid then some below
  else if r.holds (below + 1) grid then some (below + 1)
  else none

/-- The number of digits before the decimal point, negative when zeros follow the point. -/
def Rounding.pointPosition (r : Rounding) : Int :=
  (Nat.toDigits 10 (4 * r.mantissa * r.num * powerOfTen 400 / r.den)).length - 400

/-- The digits of the shortest decimal that reads back and the position of its point. Seventeen digits always do. -/
def Rounding.shortest (r : Rounding) : List Char × Int :=
  let p := r.pointPosition
  match (List.range 17).findSome? fun (i : Nat) => (r.onGrid? (p - (i + 1))).map (i + 1, ·) with
  | none => ([], p)
  | some (count, c) =>
    let digits := Nat.toDigits 10 c
    ((digits.reverse.dropWhile (· = '0')).reverse, p + digits.length - count)

/-- Digits with a point after the first `p` of them, or with an exponent when the point is far off. -/
def layout (digits : List Char) (p : Int) : List Char :=
  if -4 < p ∧ p ≤ 16 then
    if p ≤ 0 then '0' :: '.' :: List.replicate (-p).toNat '0' ++ digits
    else
      let whole := digits.take p.toNat
      let fraction := digits.drop p.toNat
      whole ++ List.replicate (p.toNat - whole.length) '0' ++ '.' :: (if fraction.isEmpty then ['0'] else fraction)
  else
    let e := (p - 1).natAbs
    let exponent := (if e < 10 then ['0'] else []) ++ Nat.toDigits 10 e
    digits.take 1 ++ (if digits.length ≤ 1 then [] else '.' :: digits.drop 1) ++
      'e' :: (if p - 1 < 0 then '-' else '+') :: exponent

/-- The text of a number. -/
def text : Binary64 → String
  | .finite .zero => "0.0"
  | .finite (.ofOdd n k _) =>
    let (digits, p) := (Rounding.of n.natAbs k).shortest
    String.ofList ((if n < 0 then ['-'] else []) ++ layout digits p)
  | .negativeZero => "-0.0"
  | .infinity negative => if negative then "-inf" else "inf"
  | .notANumber => "nan"

end ModelCompiler.Binary64
