import Lifecycle.Document.Fault

/-!
# Places in a YAML text

A cursor is a place in a text: what stands behind it, how many characters stand before it, and the
line and the column. The classes of characters that the syntax tells apart are here as well. The end
of the text counts as a break and as a blank.
-/

namespace Lifecycle.Yaml

/-- The line breaks that remain in a text. -/
def isBreak (c : Char) : Bool :=
  c = '\n' || c = '\r' || c = '\u0085' || c = '\u2028' || c = '\u2029'

def isSpace (c : Char) : Bool := c = ' '

/-- A blank inside a line. -/
def isBlank (c : Char) : Bool := c = ' ' || c = '\t'

/-- A character of a name. -/
def isWordChar (c : Char) : Bool :=
  ('0' ≤ c && c ≤ '9') || ('A' ≤ c && c ≤ 'Z') || ('a' ≤ c && c ≤ 'z') || c = '-' || c = '_'

/-- A character that a document may hold. -/
def isAllowed (c : Char) : Bool :=
  c = '\t' || c = '\n' || c = '\r' || (' ' ≤ c && c ≤ '~') || c = '\u0085' ||
    ('\u00a0' ≤ c && c ≤ '\ud7ff') || ('\ue000' ≤ c && c ≤ '\ufffd') || 0x10000 ≤ c.toNat

/-- The mark that a text may begin with, and that takes no column. -/
def byteOrderMark : Char := '\ufeff'

structure Cursor where
  rest : List Char
  index : Nat
  line : Nat
  column : Nat
  deriving Inhabited

namespace Cursor

def start (text : List Char) : Cursor := { rest := text, index := 0, line := 0, column := 0 }

def peek (c : Cursor) : Option Char := c.rest.head?

def peekAt (c : Cursor) (n : Nat) : Option Char := c.rest[n]?

def atEnd (c : Cursor) : Bool := c.rest.isEmpty

def sees (c : Cursor) (x : Char) : Bool := c.peek == some x

/-- Whether the text goes on with a character of a class. -/
def seesAny (c : Cursor) (p : Char → Bool) : Bool := c.peek.any p

def next (c : Cursor) : Cursor :=
  match c.rest with
  | [] => c
  | x :: rest =>
    let isLineEnd := isBreak x && !(x = '\r' && rest.head? == some '\n')
    { rest
      index := c.index + 1
      line := if isLineEnd then c.line + 1 else c.line
      column :=
        if isLineEnd then 0
        else if x = byteOrderMark then c.column
        else c.column + 1 }

def advance : Nat → Cursor → Cursor
  | 0, c => c
  | n + 1, c => advance n c.next

/-- The characters of a class that follow, and the place after them. -/
def span (p : Char → Bool) (c : Cursor) : List Char × Cursor :=
  let taken := c.rest.takeWhile p
  (taken, c.advance taken.length)

def skip (p : Char → Bool) (c : Cursor) : Cursor := (c.span p).2

/-- Takes one line break, and what it stands for: an ordinary break is a line feed. -/
def lineBreak? (c : Cursor) : Option (Char × Cursor) :=
  match c.rest with
  | '\r' :: '\n' :: _ => some ('\n', c.advance 2)
  | x :: _ =>
    if x = '\n' || x = '\r' || x = '\u0085' then some ('\n', c.next)
    else if isBreak x then some (x, c.next)
    else none
  | [] => none

/-- Whether the character after the next `n` is a space, a break or the end. -/
def spaceAt (c : Cursor) (n : Nat) : Bool := (c.peekAt n).all fun x => isSpace x || isBreak x

/-- Whether the character after the next `n` is a blank, a break or the end. -/
def blankAt (c : Cursor) (n : Nat) : Bool := (c.peekAt n).all fun x => isBlank x || isBreak x

/-- Whether a mark of three characters stands here alone. -/
def seesMark (c : Cursor) (mark : List Char) : Bool := mark.isPrefixOf c.rest && c.blankAt 3

/-- Whether a mark between documents stands here. -/
def seesDocumentMark (c : Cursor) : Bool :=
  c.seesMark ['-', '-', '-'] || c.seesMark ['.', '.', '.']

/-- The place after spaces and a comment. -/
def skipComment (c : Cursor) : Cursor :=
  let c := c.skip isSpace
  if c.sees '#' then c.skip fun x => !isBreak x else c

end Cursor

def malformed {α : Type} : Except DocumentFault α := .error .malformed

end Lifecycle.Yaml
