import Lifecycle.Datum.Basic
import Lifecycle.Decimal.Numeral
import Lifecycle.Document.Fault
import Lifecycle.Text.Parts

/-!
# Tags and scalar values

A tag says what a node denotes. A plain scalar without a tag has the tag that its text calls for:
null, a truth value, a number, a timestamp, or a text if it looks like nothing else.
-/

namespace Lifecycle.Yaml

/-- What a node denotes. `other` stands for every tag without a meaning here. -/
inductive Tag where
  | null | bool | int | float | binary | timestamp | str
  | seq | map | set | omap | pairs
  | merge | value | other
  deriving DecidableEq, Repr, Inhabited

namespace Tag

def known : List (String × Tag) := [
  ("null", .null), ("bool", .bool), ("int", .int), ("float", .float), ("binary", .binary),
  ("timestamp", .timestamp), ("str", .str), ("seq", .seq), ("map", .map), ("set", .set),
  ("omap", .omap), ("pairs", .pairs), ("merge", .merge), ("value", .value)]

/-- What the full names of the known tags begin with. -/
def familyName : List Char := "tag:yaml.org,2002:".toList

def ofName (name : List Char) : Tag :=
  (known.findSome? fun k => if name = familyName ++ k.1.toList then some k.2 else none).getD .other

end Tag

/-! ## The shapes of plain scalars -/

def dropSign : List Char → List Char
  | '-' :: rest => rest
  | '+' :: rest => rest
  | text => text

/-- A digit of some kind, or the underscore that may stand between digits. -/
def orUnderscore (p : Char → Bool) (c : Char) : Bool := p c || c = '_'

/-- A digit followed by digits and underscores. -/
def isDigits : List Char → Bool
  | [] => false
  | c :: cs => c.isDigit && cs.all (orUnderscore Char.isDigit)

/-- Digits and underscores of which the first is a digit other than zero. -/
def isPositive (text : List Char) : Bool := isDigits text && text.head? != some '0'

def isNonempty (p : Char → Bool) (text : List Char) : Bool := !text.isEmpty && text.all p

/-- One or two digits below sixty. -/
def isSixtieth : List Char → Bool
  | [d] => d.isDigit
  | [t, d] => '0' ≤ t && t ≤ '5' && d.isDigit
  | _ => false

def isHexDigit (c : Char) : Bool := (Decimal.hexValue c).isSome

/-- Whether a text has the shape of an integer: binary, octal, decimal, hexadecimal, or parts of
sixty between colons. -/
def looksInt (text : List Char) : Bool :=
  match dropSign text with
  | ['0'] => true
  | '0' :: 'b' :: digits => isNonempty (orUnderscore fun c => c = '0' || c = '1') digits
  | '0' :: 'x' :: digits => isNonempty (orUnderscore isHexDigit) digits
  | '0' :: digits => digits.all (orUnderscore fun c => '0' ≤ c && c ≤ '7')
  | body =>
    match Text.partsAt ':' body with
    | [] => false
    | whole :: parts => isPositive whole && parts.all isSixtieth

/-- An exponent with its sign, or nothing. -/
def isExponent : List Char → Bool
  | [] => true
  | e :: sign :: digits =>
    (e = 'e' || e = 'E') && (sign = '-' || sign = '+') && isNonempty Char.isDigit digits
  | _ => false

/-- Digits and underscores, perhaps with an exponent. -/
def isFraction (text : List Char) : Bool :=
  isExponent (text.dropWhile (orUnderscore Char.isDigit))

/-- Whether a text has the shape of a floating point number: there is a point in it, and digits
before the point unless it begins the text. -/
def looksFloat (text : List Char) : Bool :=
  let body := dropSign text
  let whole := body.takeWhile (· != '.')
  let fraction := body.dropWhile (· != '.')
  match fraction with
  | [] => false
  | _ :: fraction =>
    if whole.isEmpty then
      ["inf", "Inf", "INF"].contains (String.ofList fraction) ||
        (body.length = text.length &&
          (["nan", "NaN", "NAN"].contains (String.ofList fraction) ||
            (fraction.head?.any Char.isDigit && isFraction fraction)))
    else
      match Text.partsAt ':' whole with
      | [] => false
      | [digits] => isDigits digits && isFraction fraction
      | first :: parts =>
        isDigits first && parts.all isSixtieth && fraction.all (orUnderscore Char.isDigit)

/-- The words for truth and falsehood, in lower case. -/
def truthWords : List (String × Bool) :=
  [("yes", true), ("no", false), ("true", true), ("false", false), ("on", true), ("off", false)]

/-- A word in lower case, with a capital, and in upper case. -/
def spellings (word : String) : List String := [word, word.capitalize, word.toUpper]

def looksBool (text : List Char) : Bool :=
  truthWords.any fun w => (spellings w.1).contains (String.ofList text)

def looksNull (text : List Char) : Bool :=
  ["", "~", "null", "Null", "NULL"].contains (String.ofList text)

/-! ## Timestamps -/

/-- A time of day with a fraction of a second, and minutes of distance from universal time if
known. -/
structure ClockTime where
  hour : Nat
  minute : Nat
  second : Nat
  fraction : List Char
  offset : Option Int

/-- A date as written, and a time if there is one. -/
structure Timestamp where
  year : Nat
  month : Nat
  day : Nat
  time : Option ClockTime

def takeNumber (least most : Nat) (text : List Char) : Option (Nat × List Char) :=
  let digits := (text.take most).takeWhile Char.isDigit
  if digits.length < least then none
  else some (Decimal.natOfDigits digits, text.drop digits.length)

def takeMark (p : Char → Bool) : List Char → Option (List Char)
  | [] => none
  | c :: cs => if p c then some cs else none

def isBlankChar (c : Char) : Bool := c = ' ' || c = '\t'

/-- Reads the distance from universal time to the end of the text. -/
def offset? (text : List Char) : Option Int :=
  match text with
  | ['Z'] => some 0
  | sign :: rest => do
    if sign != '-' && sign != '+' then none
    else
      let (hours, rest) ← takeNumber 1 2 rest
      let minutes ← match rest with
        | [] => some 0
        | ':' :: rest => do
          let (minutes, rest) ← takeNumber 2 2 rest
          if rest.isEmpty then some minutes else none
        | _ => none
      let n : Int := hours * 60 + minutes
      return if sign = '-' then -n else n
  | [] => none

def clockTime? (text : List Char) : Option ClockTime := do
  let (hour, rest) ← takeNumber 1 2 text
  let (minute, rest) ← takeNumber 2 2 (← takeMark (· = ':') rest)
  let (second, rest) ← takeNumber 2 2 (← takeMark (· = ':') rest)
  let (fraction, rest) := match rest with
    | '.' :: more => (more.takeWhile Char.isDigit, more.dropWhile Char.isDigit)
    | _ => ([], rest)
  let offset ← if rest.isEmpty then some none
    else (offset? (rest.dropWhile isBlankChar)).map some
  return { hour, minute, second, fraction, offset }

/-- Reads a date, and a time if more follows. -/
def timestamp? (text : List Char) : Option Timestamp := do
  let (year, rest) ← takeNumber 4 4 text
  let (month, rest) ← takeNumber 1 2 (← takeMark (· = '-') rest)
  let (day, rest) ← takeNumber 1 2 (← takeMark (· = '-') rest)
  let time ← match rest with
    | [] => some none
    | c :: more =>
      if c = 'T' || c = 't' then (clockTime? more).map some
      else if isBlankChar c then (clockTime? (rest.dropWhile isBlankChar)).map some
      else none
  return { year, month, day, time }

/-- Whether a text has the shape of a timestamp. A date alone has two digits for month and day. -/
def looksTimestamp (text : List Char) : Bool :=
  (timestamp? text).any fun t => t.time.isSome || text.length = 10

/-- The tag of a plain scalar without a tag. -/
def plainTag (text : List Char) : Tag :=
  if looksNull text then .null
  else if looksBool text then .bool
  else if looksFloat text then .float
  else if looksInt text then .int
  else if looksTimestamp text then .timestamp
  else if text = ['<', '<'] then .merge
  else if text = ['='] then .value
  else if ["!", "&", "*"].contains (String.ofList text) then .other
  else .str

/-! ## The values of scalars -/

/-- A character that may stand around a number. -/
def isAround (c : Char) : Bool :=
  (9 ≤ c.toNat && c.toNat ≤ 13) || (28 ≤ c.toNat && c.toNat ≤ 32) ||
    [0x85, 0xA0, 0x1680, 0x2028, 0x2029, 0x202F, 0x205F, 0x3000].contains c.toNat ||
    (0x2000 ≤ c.toNat && c.toNat ≤ 0x200A)

def trim (text : List Char) : List Char :=
  ((text.dropWhile isAround).reverse.dropWhile isAround).reverse

/-- Splits a text into whether it starts with a minus sign, and what follows the sign. -/
def splitSign : List Char → Bool × List Char
  | '-' :: rest => (true, rest)
  | '+' :: rest => (false, rest)
  | text => (false, text)

def badNumber {α : Type} : Except DocumentFault α := .error (.scalar .badNumber)

/-- Drops the mark of a base where it stands before digits of that base. -/
def dropBaseMark (base : Nat) (text : List Char) : List Char :=
  match text with
  | '0' :: mark :: rest =>
    if (base = 2 && (mark = 'b' || mark = 'B')) || (base = 8 && (mark = 'o' || mark = 'O')) ||
        (base = 16 && (mark = 'x' || mark = 'X')) then rest
    else text
  | _ => text

/-- The value of a numeral in a base. Decimal numerals have a largest length. -/
def intIn (base : Nat) (text : List Char) : Except DocumentFault Int :=
  let (negative, body) := splitSign (trim text)
  let digits := dropBaseMark base body
  if base = 10 && Decimal.maxIntegerDigits < digits.length then badNumber
  else match Decimal.natOfBase? base digits with
    | some n => .ok (if negative then -n else n)
    | none => badNumber

def withoutUnderscores (text : List Char) : List Char := text.filter (· != '_')

/-- The value of parts of sixty. -/
def sixtieths (parts : List Int) : Int := parts.foldl (fun n p => 60 * n + p) 0

def intValue (text : List Char) : Except DocumentFault Int := do
  let text := withoutUnderscores text
  if text.isEmpty then .error (.scalar .emptyNumber)
  else
    let (negative, body) := splitSign text
    let n ← match body with
      | [] => .error (.scalar .emptyNumber)
      | ['0'] => .ok 0
      | '0' :: 'b' :: digits => intIn 2 digits
      | '0' :: 'x' :: digits => intIn 16 digits
      | '0' :: _ => intIn 8 body
      | _ =>
        if body.contains ':' then ((Text.partsAt ':' body).mapM (intIn 10)).map sixtieths
        else intIn 10 body
    return if negative then -n else n

def floatIn (text : List Char) : Except DocumentFault Binary64 :=
  match Decimal.readFloat? (trim text) with
  | some x => .ok x
  | none => badNumber

/-- The sum of parts of sixty, from the last part on, with a rounding after each step. -/
def sixtiethsFloat (parts : List Binary64) : Binary64 :=
  (parts.reverse.foldl (fun (sum, base) p => (sum.add (p.mul (.ofInt base)), base * 60))
    (Binary64.zero false, (1 : Int))).1

def floatValue (text : List Char) : Except DocumentFault Binary64 := do
  let text := (withoutUnderscores text).map Char.toLower
  if text.isEmpty then .error (.scalar .emptyNumber)
  else
    let (negative, body) := splitSign text
    let x ←
      if body = ".inf".toList then .ok (.infinite false)
      else if body = ".nan".toList then .ok .undefined
      else if body.contains ':' then ((Text.partsAt ':' body).mapM floatIn).map sixtiethsFloat
      else floatIn body
    return if negative then x.negate else x

def boolValue (text : List Char) : Except DocumentFault Bool :=
  match truthWords.lookup (String.ofList (text.map Char.toLower)) with
  | some b => .ok b
  | none => .error (.scalar .notBoolean)

/-- The microseconds of a fraction of a second, of which the first six digits count. -/
def microseconds (fraction : List Char) : Nat :=
  let digits := fraction.take 6
  Decimal.natOfDigits (digits ++ List.replicate (6 - digits.length) '0')

def timestampValue (text : List Char) : Except DocumentFault Datum :=
  match timestamp? text with
  | none => .error (.scalar .notMoment)
  | some t =>
    let value : Option Datum := do
      let date ← Date.ofNumbers? t.year t.month t.day
      match t.time with
      | none => return .date date
      | some time =>
        let moment ← Moment.ofNumbers? date time.hour time.minute time.second
          (microseconds time.fraction) time.offset
        return .moment moment
    match value with
    | some d => .ok d
    | none => .error (.scalar .badDate)

def digit64? (c : Char) : Option Nat :=
  if 'A' ≤ c && c ≤ 'Z' then some (c.toNat - 'A'.toNat)
  else if 'a' ≤ c && c ≤ 'z' then some (c.toNat - 'a'.toNat + 26)
  else if '0' ≤ c && c ≤ '9' then some (c.toNat - '0'.toNat + 52)
  else if c = '+' then some 62
  else if c = '/' then some 63
  else none

/-- The digits of base 64 up to the padding that completes a group of four, and whether there is
such padding. Other characters do not count, and neither does padding in another place. -/
def digits64 (inGroup padding : Nat) : List Char → List Nat × Bool
  | [] => ([], false)
  | c :: cs =>
    if c = '=' then
      if 2 ≤ inGroup && 4 ≤ inGroup + padding + 1 then ([], true)
      else digits64 inGroup (if 2 ≤ inGroup then padding + 1 else padding) cs
    else match digit64? c with
      | none => digits64 inGroup padding cs
      | some d =>
        let (ds, padded) := digits64 ((inGroup + 1) % 4) 0 cs
        (d :: ds, padded)

/-- The bytes of digits of base 64, four digits for three bytes. Bits that fill no byte are
dropped. -/
def bytes64 : List Nat → List UInt8
  | a :: b :: c :: d :: rest =>
    let n := ((a * 64 + b) * 64 + c) * 64 + d
    (n / 65536).toUInt8 :: (n / 256).toUInt8 :: n.toUInt8 :: bytes64 rest
  | [a, b, c] =>
    let n := (a * 64 + b) * 64 + c
    [(n / 1024).toUInt8, (n / 4).toUInt8]
  | [a, b] => [((a * 64 + b) / 16).toUInt8]
  | _ => []

def binaryValue (text : List Char) : Except DocumentFault (List UInt8) :=
  if text.any fun c => 128 ≤ c.toNat then .error .malformed
  else
    let (digits, padded) := digits64 0 0 text
    if padded || digits.length % 4 = 0 then .ok (bytes64 digits) else .error .malformed

def scalarValue (tag : Tag) (text : List Char) : Except DocumentFault Datum :=
  match tag with
  | .null => .ok .null
  | .bool => (boolValue text).map .bool
  | .int => (intValue text).map .int
  | .float => (floatValue text).map .float
  | .binary => (binaryValue text).map .bytes
  | .timestamp => timestampValue text
  | .str => .ok (.text (String.ofList text))
  | _ => .error .malformed

end Lifecycle.Yaml
