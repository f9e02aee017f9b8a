import Lifecycle.Decimal.Shortest

/-!
# Decimal numerals

Numerals as they stand in documents: digits, an optional fraction and an optional exponent. Of an
integer that has too many digits the numeral is neither read nor written.
-/

namespace Lifecycle.Decimal

/-- The largest number of decimal digits of an integer that is read or written. -/
def maxIntegerDigits : Nat := 4300

/-- Whether an integer has no more decimal digits than that. A sign does not count. -/
def isShort (n : Int) : Bool := (Nat.toDigits 10 n.natAbs).length ≤ maxIntegerDigits

def natOfDigits (digits : List Char) : Nat :=
  digits.foldl (fun n c => 10 * n + (c.toNat - '0'.toNat)) 0

def hexValue (c : Char) : Option Nat :=
  if '0' ≤ c && c ≤ '9' then some (c.toNat - '0'.toNat)
  else if 'a' ≤ c && c ≤ 'f' then some (c.toNat - 'a'.toNat + 10)
  else if 'A' ≤ c && c ≤ 'F' then some (c.toNat - 'A'.toNat + 10)
  else none

/-- The value of digits in a base of at most sixteen, or nothing if one of them is no digit of that
base or there is none. -/
def natOfBase? (base : Nat) (digits : List Char) : Option Nat :=
  if digits.isEmpty then none
  else digits.foldl (fun acc c => do
    let n ← acc
    let d ← hexValue c
    if d < base then some (base * n + d) else none) (some 0)

/-- The parts of a numeral: whole digits, fraction digits and the exponent. -/
structure Numeral where
  whole : List Char
  fraction : List Char
  exponent : Int

def Numeral.toBinary64 (negative : Bool) (n : Numeral) : Binary64 :=
  Binary64.ofDecimal negative (natOfDigits (n.whole ++ n.fraction))
    (n.exponent - n.fraction.length)

/-- An exponent part: nothing, or `e` with an optional sign and at least one digit. -/
private def exponent? : List Char → Option Int
  | [] => some 0
  | c :: rest =>
    if c = 'e' || c = 'E' then
      let (negative, digits) := match rest with
        | '-' :: digits => (true, digits)
        | '+' :: digits => (false, digits)
        | digits => (false, digits)
      if digits.isEmpty || !digits.all Char.isDigit then none
      else
        let n : Int := natOfDigits digits
        some (if negative then -n else n)
    else none

/-- Reads a numeral without sign: digits on at least one side of the point, then an exponent part.
-/
def Numeral.read? (text : List Char) : Option Numeral :=
  let whole := text.takeWhile Char.isDigit
  let rest := text.dropWhile Char.isDigit
  let (fraction, tail) := match rest with
    | '.' :: more => (more.takeWhile Char.isDigit, more.dropWhile Char.isDigit)
    | _ => ([], rest)
  if whole.isEmpty && fraction.isEmpty then none
  else (exponent? tail).map fun e => { whole, fraction, exponent := e }

/-- Reads a floating point number: an optional sign, then a numeral, `inf` or `nan`. -/
def readFloat? (text : List Char) : Option Binary64 :=
  let (negative, body) := match text with
    | '-' :: body => (true, body)
    | '+' :: body => (false, body)
    | body => (false, body)
  let lower := String.ofList (body.map Char.toLower)
  if lower == "inf" || lower == "infinity" then some (.infinite negative)
  else if lower == "nan" then some .undefined
  else (Numeral.read? body).map (Numeral.toBinary64 negative)

end Lifecycle.Decimal
