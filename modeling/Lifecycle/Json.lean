import Lifecycle.Datum.Elements
import Lifecycle.Document.Fault

/-!
# JSON documents

JSON with three more numbers: `NaN`, `Infinity` and `-Infinity`. A numeral with a fraction or an
exponent is a floating point number, any other an integer. Of two members with the same name the
last one counts, at the place of the first.
-/

namespace Lifecycle.Json

def malformed {α : Type} : Except DocumentFault α := .error .malformed

def isBlank (c : Char) : Bool := c = ' ' || c = '\t' || c = '\n' || c = '\r'

def skipBlanks (text : List Char) : List Char := text.dropWhile isBlank

/-- The text after a fixed beginning. -/
def after? (start text : List Char) : Option (List Char) :=
  if start.isPrefixOf text then some (text.drop start.length) else none

/-- The code unit of four hexadecimal digits. -/
def codeUnit? : List Char → Option (Nat × List Char)
  | a :: b :: c :: d :: rest => (Decimal.natOfBase? 16 [a, b, c, d]).map fun n => (n, rest)
  | _ => none

/-- The character of a code unit, which a low surrogate may complete. A surrogate alone has no
character of its own. -/
def character (unit : Nat) (rest : List Char) : Char × List Char :=
  if 0xD800 ≤ unit && unit < 0xDC00 then
    match rest with
    | '\\' :: 'u' :: more =>
      match codeUnit? more with
      | some (low, rest') =>
        if 0xDC00 ≤ low && low < 0xE000 then
          (Char.ofNat (0x10000 + (unit - 0xD800) * 0x400 + (low - 0xDC00)), rest')
        else (Char.ofNat 0xFFFD, rest)
      | none => (Char.ofNat 0xFFFD, rest)
    | _ => (Char.ofNat 0xFFFD, rest)
  else if 0xDC00 ≤ unit && unit < 0xE000 then (Char.ofNat 0xFFFD, rest)
  else (Char.ofNat unit, rest)

/-- The character that a letter stands for after a backslash. -/
def escape? (c : Char) : Option Char :=
  match c with
  | '"' => some '"'
  | '\\' => some '\\'
  | '/' => some '/'
  | 'b' => some (Char.ofNat 8)
  | 'f' => some (Char.ofNat 12)
  | 'n' => some '\n'
  | 'r' => some '\r'
  | 't' => some '\t'
  | _ => none

/-- Reads a string after its opening quote. -/
def string : Nat → List Char → List Char → Except DocumentFault (String × List Char)
  | 0, _, _ => malformed
  | n + 1, done, text =>
    match text with
    | [] => malformed
    | '"' :: rest => .ok (String.ofList done.reverse, rest)
    | '\\' :: 'u' :: rest =>
      match codeUnit? rest with
      | none => malformed
      | some (unit, rest) =>
        let (c, rest) := character unit rest
        string n (c :: done) rest
    | '\\' :: c :: rest =>
      match escape? c with
      | none => malformed
      | some c => string n (c :: done) rest
    | c :: rest => if c.toNat < 0x20 then malformed else string n (c :: done) rest

/-- The digits of the whole part of a numeral: a zero, or digits of which the first is none. -/
def wholeDigits (text : List Char) : List Char × List Char :=
  match text with
  | '0' :: rest => (['0'], rest)
  | _ => (text.takeWhile Char.isDigit, text.dropWhile Char.isDigit)

/-- A point and at least one digit. -/
def fractionDigits (text : List Char) : List Char × List Char :=
  match text with
  | '.' :: rest =>
    let digits := rest.takeWhile Char.isDigit
    if digits.isEmpty then ([], text) else (digits, rest.dropWhile Char.isDigit)
  | _ => ([], text)

/-- The letter `e`, perhaps a sign, and at least one digit. -/
def exponentPart (text : List Char) : Option Int × List Char :=
  match text with
  | c :: rest =>
    if c = 'e' || c = 'E' then
      let (negative, body) := match rest with
        | '-' :: body => (true, body)
        | '+' :: body => (false, body)
        | body => (false, body)
      let digits := body.takeWhile Char.isDigit
      if digits.isEmpty then (none, text)
      else
        let e : Int := Decimal.natOfDigits digits
        (some (if negative then -e else e), body.dropWhile Char.isDigit)
    else (none, text)
  | [] => (none, [])

/-- Reads a numeral after its sign. -/
def number (negative : Bool) (text : List Char) : Except DocumentFault (Datum × List Char) :=
  let (whole, rest) := wholeDigits text
  if whole.isEmpty then malformed
  else
    let (fraction, rest) := fractionDigits rest
    let (exponent, rest) := exponentPart rest
    if fraction.isEmpty && exponent.isNone then
      if Decimal.maxIntegerDigits < whole.length then .error (.scalar .badNumber)
      else
        let n : Int := Decimal.natOfDigits whole
        .ok (.int (if negative then -n else n), rest)
    else
      let numeral : Decimal.Numeral := { whole, fraction, exponent := exponent.getD 0 }
      .ok (.float (numeral.toBinary64 negative), rest)

/-- The values that are single words. -/
def words : List (List Char × Datum) := [
  ("null".toList, .null),
  ("true".toList, .bool true),
  ("false".toList, .bool false),
  ("NaN".toList, .float .undefined),
  ("Infinity".toList, .float (.infinite false)),
  ("-Infinity".toList, .float (.infinite true))]

/-- The word at the start of a text. -/
def word? (text : List Char) : Option (Datum × List Char) :=
  words.findSome? fun w => (after? w.1 text).map fun rest => (w.2, rest)

def quoted (text : List Char) : Except DocumentFault (String × List Char) :=
  match text with
  | '"' :: rest => string (rest.length + 1) [] rest
  | _ => malformed

mutual

def value : Nat → List Char → Except DocumentFault (Datum × List Char)
  | 0, _ => malformed
  | n + 1, text =>
    match word? text with
    | some r => .ok r
    | none =>
      match text with
      | '"' :: _ => (quoted text).map fun r => (.text r.1, r.2)
      | '[' :: rest =>
        match skipBlanks rest with
        | ']' :: rest => .ok (.list [], rest)
        | rest => (items n rest).map fun r => (.list r.1, r.2)
      | '\x7b' :: rest =>
        match skipBlanks rest with
        | '\x7d' :: rest => .ok (.map [], rest)
        | rest => (members n rest).map fun r => (Datum.ofTable (.ofList r.1), r.2)
      | '-' :: rest => number true rest
      | text => number false text

/-- Reads the values of a list, of which there is at least one, and the closing bracket. -/
def items : Nat → List Char → Except DocumentFault (List Datum × List Char)
  | 0, _ => malformed
  | n + 1, text => do
    let (v, rest) ← value n text
    match skipBlanks rest with
    | ']' :: rest => return ([v], rest)
    | ',' :: rest =>
      let (vs, rest) ← items n (skipBlanks rest)
      return (v :: vs, rest)
    | _ => malformed

/-- Reads the members of a map, of which there is at least one, and the closing brace. -/
def members : Nat → List Char → Except DocumentFault (List (Datum × Datum) × List Char)
  | 0, _ => malformed
  | n + 1, text => do
    let (k, rest) ← quoted text
    match skipBlanks rest with
    | ':' :: rest =>
      let (v, rest) ← value n (skipBlanks rest)
      match skipBlanks rest with
      | '\x7d' :: rest => return ([(.text k, v)], rest)
      | ',' :: rest =>
        let (es, rest) ← members n (skipBlanks rest)
        return ((.text k, v) :: es, rest)
      | _ => malformed
    | _ => malformed

end

/-- Reads a document: one value with nothing but blanks around it. -/
def read (text : String) : Except DocumentFault Datum := do
  let chars := text.toList
  let (v, rest) ← value (2 * chars.length + 2) (skipBlanks chars)
  if (skipBlanks rest).isEmpty then return v else malformed

end Lifecycle.Json
