/-!
# Binary floating point numbers of 64 bits

A finite number is a sign, a mantissa below 2^53 and an exponent. Every operation is exact
arithmetic on naturals followed by one rounding to the nearest number, a tie going to the even
mantissa.
-/

namespace Lifecycle

/-- A floating point number. A finite one is `mantissa * 2 ^ exponent`, negated where `negative`. -/
inductive Binary64 where
  | finite (negative : Bool) (mantissa : Nat) (exponent : Int)
  | infinite (negative : Bool)
  | undefined
  deriving DecidableEq, Repr, Inhabited

namespace Binary64

def minExponent : Int := -1074

/-- The exponent above which a full mantissa is out of range. -/
def maxExponent : Int := 971

def zero (negative : Bool) : Binary64 := .finite negative 0 minExponent

/-- The quotient of two naturals to the nearest natural, a tie going to the even one. -/
def roundDiv (num den : Nat) : Nat :=
  let q := num / den
  let r := num % den
  if 2 * r < den then q
  else if den < 2 * r then q + 1
  else if q % 2 = 0 then q else q + 1

/-- The pair of naturals whose quotient is `num / den` divided by `2 ^ e`. -/
def scaleDown (num den : Nat) (e : Int) : Nat × Nat :=
  if 0 ≤ e then (num, den * Nat.pow 2 e.toNat) else (num * Nat.pow 2 (-e).toNat, den)

/-- The exponent at which `num / den` has a mantissa of 53 bits, or the least exponent if that is
larger. -/
def exponentOf (num den : Nat) : Int :=
  let estimate : Int := (Nat.log2 num : Int) - (Nat.log2 den : Int) - 53
  let (n, d) := scaleDown num den estimate
  let e := if Nat.pow 2 53 * d ≤ n then estimate + 1 else estimate
  max minExponent e

/-- The number nearest to the quotient `num / den`, with the given sign. -/
def ofRatio (negative : Bool) (num den : Nat) : Binary64 :=
  if num = 0 then zero negative
  else
    let e := exponentOf num den
    let (n, d) := scaleDown num den e
    let m := roundDiv n d
    let (m, e) := if m = Nat.pow 2 53 then (Nat.pow 2 52, e + 1) else (m, e)
    if maxExponent < e then .infinite negative
    else if m = 0 then zero negative
    else .finite negative m e

/-- The number nearest to `digits * 10 ^ exponent`. Exponents beyond every finite number are decided
without computing the power. -/
def ofDecimal (negative : Bool) (digits : Nat) (exponent : Int) : Binary64 :=
  if digits = 0 then zero negative
  else
    let size : Int := (Nat.log2 digits : Int) * 3 / 10 + exponent
    if 400 < size then .infinite negative
    else if size < -400 - (Nat.log2 digits : Int) then zero negative
    else if 0 ≤ exponent then ofRatio negative (digits * Nat.pow 10 exponent.toNat) 1
    else ofRatio negative digits (Nat.pow 10 (-exponent).toNat)

def ofInt (n : Int) : Binary64 := ofRatio (n < 0) n.natAbs 1

def negate : Binary64 → Binary64
  | .finite s m e => .finite (!s) m e
  | .infinite s => .infinite (!s)
  | .undefined => .undefined

def isZero : Binary64 → Bool
  | .finite _ m _ => m == 0
  | _ => false

/-- The mantissa as an integer scaled to the exponent `e`, which is at most the number's own. -/
def scaledTo (e : Int) (negative : Bool) (m : Nat) (q : Int) : Int :=
  let n : Int := (m * Nat.pow 2 (q - e).toNat : Nat)
  if negative then -n else n

/-- The number nearest to the integer `n` times `2 ^ e`; zero keeps the given sign. -/
def ofScaled (zeroSign : Bool) (n : Int) (e : Int) : Binary64 :=
  if n = 0 then zero zeroSign
  else if 0 ≤ e then ofRatio (n < 0) (n.natAbs * Nat.pow 2 e.toNat) 1
  else ofRatio (n < 0) n.natAbs (Nat.pow 2 (-e).toNat)

/-- The sum, rounded to the nearest number. -/
def add : Binary64 → Binary64 → Binary64
  | .finite s m e, .finite s' m' e' =>
    let low := min e e'
    ofScaled (s && s') (scaledTo low s m e + scaledTo low s' m' e') low
  | .infinite s, .infinite s' => if s = s' then .infinite s else .undefined
  | .infinite s, .finite .. => .infinite s
  | .finite .., .infinite s => .infinite s
  | _, _ => .undefined

/-- The product, rounded to the nearest number. -/
def mul : Binary64 → Binary64 → Binary64
  | .finite s m e, .finite s' m' e' =>
    let n : Int := m * m'
    ofScaled (s != s') (if s != s' then -n else n) (e + e')
  | .infinite s, .finite s' m _ => if m = 0 then .undefined else .infinite (s != s')
  | .finite s m _, .infinite s' => if m = 0 then .undefined else .infinite (s != s')
  | .infinite s, .infinite s' => .infinite (s != s')
  | _, _ => .undefined

/-- Equality of the denoted values: the two zeros are equal and the undefined number differs from
itself. -/
def same : Binary64 → Binary64 → Bool
  | .finite s m e, .finite s' m' e' =>
    let low := min e e'
    scaledTo low s m e == scaledTo low s' m' e'
  | .infinite s, .infinite s' => s == s'
  | _, _ => false

/-- Whether the number is exactly the integer `n`. -/
def sameInt : Binary64 → Int → Bool
  | .finite s m e, n =>
    if 0 ≤ e then scaledTo 0 s m e == n
    else (if s then -(m : Int) else m) == n * (Nat.pow 2 (-e).toNat : Nat)
  | _, _ => false

end Binary64

end Lifecycle
