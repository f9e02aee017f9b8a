import Lifecycle.Decimal.Binary64

/-!
# The shortest decimal that reads back

The written form of a floating point number uses the fewest digits that identify it among all
floating point numbers, and of the decimals with so few digits the one nearest to it. All numbers
are compared as ratios of naturals.
-/

namespace Lifecycle.Decimal

/-- Digits `d₁ d₂ … dₙ` and a point, for the value `0.d₁d₂…dₙ * 10 ^ point`. -/
structure Digits where
  digits : List Nat
  point : Int
  deriving DecidableEq, Repr

/-- The numerator over `den` of a quantity `n * 2 ^ e`, where `den` is `2 ^ (-e)` or one. -/
private def ratio (n : Nat) (e : Int) : Nat × Nat :=
  if 0 ≤ e then (n * Nat.pow 2 e.toNat, 1) else (n, Nat.pow 2 (-e).toNat)

/-- The pair of naturals whose quotient is `num / den` divided by `10 ^ k`. -/
private def overPower (num den : Nat) (k : Int) : Nat × Nat :=
  if 0 ≤ k then (num, den * Nat.pow 10 k.toNat) else (num * Nat.pow 10 (-k).toNat, den)

/-- Whether `num / den < 10 ^ k`. -/
private def belowPower (num den : Nat) (k : Int) : Bool :=
  let (n, d) := overPower num den k
  n < d

/-- The least `k` from `start` on, within `fuel` steps, for which `num / den < 10 ^ k`. -/
private def firstPower (num den : Nat) : Nat → Int → Int
  | 0, k => k
  | fuel + 1, k => if belowPower num den k then k else firstPower num den fuel (k + 1)

/-- The number of digits before the point of `num / den`, which is positive. -/
def pointOf (num den : Nat) : Int :=
  let bits : Int := (Nat.log2 num : Int) - (Nat.log2 den : Int)
  firstPower num den 8 ((bits - 1) * 30103 / 100000 - 1)

/-- Whether `c * 10 ^ step` lies between the two bounds over `den`, which belong to the interval
when `inclusive`. -/
private def inside (low high den : Nat) (inclusive : Bool) (c : Nat) (step : Int) : Bool :=
  let (value, scale) := overPower c 1 (-step)
  let v := value * den
  let l := low * scale
  let h := high * scale
  if inclusive then l ≤ v && v ≤ h else l < v && v < h

/-- The nearer of the two neighbours of `num / den` on the grid of step `10 ^ step`, if it lies in
the interval; a tie goes to the even one. -/
private def onGrid (num low high den : Nat) (inclusive : Bool) (step : Int) : Option Nat :=
  let (n, d) := overPower num den step
  let below := n / d
  let above := below + 1
  let lowFits := inside low high den inclusive below step
  let highFits := inside low high den inclusive above step
  match lowFits, highFits with
  | true, true => some (Binary64.roundDiv n d)
  | true, false => some below
  | false, true => some above
  | false, false => none

/-- The first grid, from `count` digits on, that has a point in the interval. -/
private def search (num low high den : Nat) (inclusive : Bool) (point : Int) :
    Nat → Nat → Nat × Int
  | 0, count => (num / den, count)
  | fuel + 1, count =>
    let step := point - count
    match onGrid num low high den inclusive step with
    | some c => (c, step)
    | none => search num low high den inclusive point fuel (count + 1)

private def dropZeros (digits : List Nat) : List Nat :=
  (digits.reverse.dropWhile (· == 0)).reverse

private def digitList (n : Nat) : List Nat :=
  (Nat.toDigits 10 n).map fun c => c.toNat - '0'.toNat

/-- The shortest digits of `mantissa * 2 ^ exponent`, where the mantissa is positive. The bounds are
half way to the two neighbouring numbers and belong to the interval when the mantissa is even. -/
def shortest (mantissa : Nat) (exponent : Int) : Digits :=
  let lowGap := if mantissa = Nat.pow 2 52 && Binary64.minExponent < exponent then 1 else 2
  let (num, den) := ratio (4 * mantissa) (exponent - 2)
  let (low, _) := ratio (4 * mantissa - lowGap) (exponent - 2)
  let (high, _) := ratio (4 * mantissa + 2) (exponent - 2)
  let (c, step) := search num low high den (mantissa % 2 == 0) (pointOf num den) 17 1
  let digits := digitList c
  { digits := dropZeros digits, point := step + digits.length }

/-- How the digits of a number are laid out as text. -/
structure Layout where
  /-- The least point for which the number is written without an exponent. -/
  minPoint : Int
  /-- The largest point for which the number is written without an exponent. -/
  maxPoint : Int
  /-- The least number of digits of an exponent. -/
  exponentWidth : Nat
  /-- The texts of the numbers without digits. -/
  infinity : String
  undefined : String

private def digitText (digits : List Nat) : String :=
  String.ofList (digits.map fun d => Char.ofNat ('0'.toNat + d))

private def zeros (n : Nat) : String := String.ofList (List.replicate n '0')

private def exponentText (width : Nat) (e : Int) : String :=
  let digits := toString e.natAbs
  "e" ++ (if e < 0 then "-" else "+") ++ zeros (width - digits.length) ++ digits

/-- The text of positive digits: positional between the two points, else with an exponent after the
first digit. A positional number has at least one digit on each side of the mark. -/
def Layout.render (layout : Layout) (d : Digits) : String :=
  let n : Int := d.digits.length
  if d.point < layout.minPoint || layout.maxPoint < d.point then
    let tail := d.digits.drop 1
    digitText (d.digits.take 1) ++ (if tail.isEmpty then "" else "." ++ digitText tail) ++
      exponentText layout.exponentWidth (d.point - 1)
  else if d.point ≤ 0 then
    "0." ++ zeros (-d.point).toNat ++ digitText d.digits
  else if n ≤ d.point then
    digitText d.digits ++ zeros (d.point - n).toNat ++ ".0"
  else
    digitText (d.digits.take d.point.toNat) ++ "." ++ digitText (d.digits.drop d.point.toNat)

theorem Layout.render_ne_empty (layout : Layout) (d : Digits) : layout.render d ≠ "" := by
  unfold Layout.render
  dsimp only
  split
  · simp [exponentText]
  · split
    · simp
    · split <;> simp

/-- Numbers from 0.0001 up to below 10^16 are written without an exponent, and an exponent has a
sign and at least two digits. -/
def plain : Layout :=
  { minPoint := -3, maxPoint := 16, exponentWidth := 2, infinity := "inf", undefined := "nan" }

def Layout.text (layout : Layout) : Binary64 → String
  | .undefined => layout.undefined
  | .infinite negative => (if negative then "-" else "") ++ layout.infinity
  | .finite negative m e =>
    (if negative then "-" else "") ++ (if m = 0 then "0.0" else layout.render (shortest m e))

theorem plain_text_ne_empty (x : Binary64) : plain.text x ≠ "" := by
  cases x with
  | undefined => decide
  | infinite negative => simp [Layout.text, plain]
  | finite negative m e =>
    by_cases hm : m = 0
    · simp [Layout.text, hm]
    · simp [Layout.text, hm, Layout.render_ne_empty]

end Lifecycle.Decimal
