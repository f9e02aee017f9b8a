import Lifecycle.Text.Printable

/-!
# Quoted text and bytes

A value inside a container is written between quotes. The single quote is used unless the text holds
a single quote and no double quote. The used quote, the backslash and everything unprintable are
escaped.
-/

namespace Lifecycle.Text

/-- The digits of `n` in lower case hexadecimal, at least `width` of them. -/
def hexDigits (width n : Nat) : List Char :=
  let digits := Nat.toDigits 16 n
  List.replicate (width - digits.length) '0' ++ digits

/-- The quote that surrounds a text in which the two kinds of quote occur as stated. -/
def chooseQuote (hasSingle hasDouble : Bool) : Char :=
  if hasSingle && !hasDouble then '"' else '\''

/-- The written form of one character between quotes of the given kind. -/
def escapeChar (quote c : Char) : List Char :=
  if c = quote || c = '\\' then ['\\', c]
  else if c = '\n' then ['\\', 'n']
  else if c = '\r' then ['\\', 'r']
  else if c = '\t' then ['\\', 't']
  else if isPrintable c then [c]
  else if c.toNat < 0x100 then '\\' :: 'x' :: hexDigits 2 c.toNat
  else if c.toNat < 0x10000 then '\\' :: 'u' :: hexDigits 4 c.toNat
  else '\\' :: 'U' :: hexDigits 8 c.toNat

def quote (s : String) : String :=
  let chars := s.toList
  let mark := chooseQuote (chars.contains '\'') (chars.contains '"')
  String.ofList (mark :: chars.flatMap (escapeChar mark) ++ [mark])

/-- The written form of one byte between quotes of the given kind. -/
def escapeByte (quote : Char) (b : UInt8) : List Char :=
  let c := Char.ofNat b.toNat
  if c = quote || c = '\\' then ['\\', c]
  else if c = '\n' then ['\\', 'n']
  else if c = '\r' then ['\\', 'r']
  else if c = '\t' then ['\\', 't']
  else if 0x20 ≤ b.toNat && b.toNat < 0x7f then [c]
  else '\\' :: 'x' :: hexDigits 2 b.toNat

def quoteBytes (bytes : List UInt8) : String :=
  let mark := chooseQuote (bytes.contains 39) (bytes.contains 34)
  String.ofList ('b' :: mark :: bytes.flatMap (escapeByte mark) ++ [mark])

def padRight (width : Nat) (s : String) : String :=
  s ++ String.ofList (List.replicate (width - s.length) ' ')

end Lifecycle.Text
