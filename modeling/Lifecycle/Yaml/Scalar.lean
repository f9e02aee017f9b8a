import Lifecycle.Decimal.Numeral
import Lifecycle.Yaml.Cursor

/-!
# Scalars in a YAML text

Plain scalars, scalars between quotes and block scalars. Between the lines of a plain or quoted
scalar a single break becomes a space, and each further break stands for itself. A block scalar
keeps its breaks, or folds them in the same way between lines that do not start with a blank.

Loops that take at least one character in each round run on a bound that the length of the text
gives.
-/

namespace Lifecycle.Yaml

/-- What stands for a break followed by further breaks. -/
def foldBreak (first : Char) (more : List Char) : List Char :=
  if first != '\n' then first :: more
  else if more.isEmpty then [' ']
  else more

/-! ## Quoted scalars -/

/-- The character that a letter stands for after a backslash. -/
def escape? (c : Char) : Option Char :=
  match c with
  | '0' => some (Char.ofNat 0)
  | 'a' => some (Char.ofNat 7)
  | 'b' => some (Char.ofNat 8)
  | 't' => some '\t'
  | '\t' => some '\t'
  | 'n' => some '\n'
  | 'v' => some (Char.ofNat 11)
  | 'f' => some (Char.ofNat 12)
  | 'r' => some '\r'
  | 'e' => some (Char.ofNat 27)
  | ' ' => some ' '
  | '"' => some '"'
  | '\\' => some '\\'
  | '/' => some '/'
  | 'N' => some '\u0085'
  | '_' => some '\u00a0'
  | 'L' => some '\u2028'
  | 'P' => some '\u2029'
  | _ => none

/-- The number of hexadecimal digits after a letter that announces a code. -/
def codeWidth? (c : Char) : Option Nat :=
  match c with
  | 'x' => some 2
  | 'u' => some 4
  | 'U' => some 8
  | _ => none

def code (width : Nat) (c : Cursor) : Except DocumentFault (Nat × Cursor) :=
  let digits := c.rest.take width
  if digits.length < width then malformed
  else match Decimal.natOfBase? 16 digits with
    | none => malformed
    | some n => .ok (n, c.advance width)

/-- Reads the code of a low surrogate, if one follows. -/
def lowSurrogate? (c : Cursor) : Option (Nat × Cursor) :=
  match c.rest with
  | '\\' :: 'u' :: _ =>
    match code 4 (c.advance 2) with
    | .ok (n, c) => if 0xDC00 ≤ n && n < 0xE000 then some (n, c) else none
    | .error _ => none
  | _ => none

/-- The character of a code, which a low surrogate may complete. A surrogate alone has no
character of its own, and codes beyond the last character have none at all. -/
def codeCharacter (n : Nat) (c : Cursor) : Except DocumentFault (Char × Cursor) :=
  if 0x10FFFF < n then .error (.scalar .badCodePoint)
  else if 0xD800 ≤ n && n < 0xDC00 then
    match lowSurrogate? c with
    | some (low, c) => .ok (Char.ofNat (0x10000 + (n - 0xD800) * 0x400 + (low - 0xDC00)), c)
    | none => .ok (Char.ofNat 0xFFFD, c)
  else if 0xDC00 ≤ n && n < 0xE000 then .ok (Char.ofNat 0xFFFD, c)
  else .ok (Char.ofNat n, c)

/-- The breaks that follow, each after any blanks. No mark between documents may follow a break. -/
def quotedBreaks : Nat → Cursor → Except DocumentFault (List Char × Cursor)
  | 0, _ => malformed
  | n + 1, c =>
    if c.seesDocumentMark then malformed
    else
      let c := c.skip isBlank
      match c.lineBreak? with
      | none => .ok ([], c)
      | some (x, c) => do
        let (xs, c) ← quotedBreaks n c
        return (x :: xs, c)

/-- The blanks and breaks that follow, as they count between other characters. -/
def quotedBlanks (bound : Nat) (c : Cursor) : Except DocumentFault (List Char × Cursor) :=
  let (blanks, c) := c.span isBlank
  if c.atEnd then malformed
  else match c.lineBreak? with
    | none => .ok (blanks, c)
    | some (x, c) => do
      let (xs, c) ← quotedBreaks bound c
      return (foldBreak x xs, c)

def escaped (bound : Nat) (c : Cursor) : Except DocumentFault (List Char × Cursor) :=
  match c.peek with
  | none => malformed
  | some x =>
    match escape? x, codeWidth? x with
    | some y, _ => .ok ([y], c.next)
    | none, some width => do
      let (n, c) ← code width c.next
      let (y, c) ← codeCharacter n c
      return ([y], c)
    | none, none =>
      match c.lineBreak? with
      | some (_, c) => quotedBreaks bound c
      | none => malformed

/-- Reads a quoted scalar after its opening quote. -/
def quotedFrom (double : Bool) (bound : Nat) :
    Nat → Cursor → Except DocumentFault (List Char × Cursor)
  | 0, _ => malformed
  | n + 1, c =>
    match c.peek with
    | none => malformed
    | some x =>
      if isBlank x || isBreak x then do
        let (xs, c) ← quotedBlanks bound c
        let (ys, c) ← quotedFrom double bound n c
        return (xs ++ ys, c)
      else if double && x = '\\' then do
        let (xs, c) ← escaped bound c.next
        let (ys, c) ← quotedFrom double bound n c
        return (xs ++ ys, c)
      else if !double && x = '\'' && c.peekAt 1 == some '\'' then do
        let (ys, c) ← quotedFrom double bound n (c.advance 2)
        return ('\'' :: ys, c)
      else if x = (if double then '"' else '\'') then .ok ([], c.next)
      else do
        let (ys, c) ← quotedFrom double bound n c.next
        return (x :: ys, c)

def quotedScalar (double : Bool) (c : Cursor) : Except DocumentFault (List Char × Cursor) :=
  let bound := c.rest.length + 1
  quotedFrom double bound bound c.next

/-! ## Plain scalars -/

/-- The marks of collections between brackets. -/
def isFlowMark (c : Char) : Bool := c = ',' || c = '[' || c = ']' || c = '\x7b' || c = '\x7d'

/-- Whether a plain scalar ends before the next character. -/
def endsPlain (inFlow : Bool) : List Char → Bool
  | [] => true
  | x :: rest =>
    isBlank x || isBreak x ||
      (x = ':' && rest.head?.all fun y => isBlank y || isBreak y || (inFlow && isFlowMark y)) ||
      (inFlow && (isFlowMark x || x = '?'))

/-- The characters of a plain scalar up to a blank or its end. -/
def plainChunk (inFlow : Bool) : List Char → List Char
  | [] => []
  | x :: rest => if endsPlain inFlow (x :: rest) then [] else x :: plainChunk inFlow rest

/-- What follows a chunk of a plain scalar. -/
structure PlainGap where
  /-- What the blanks and breaks stand for if the scalar goes on. -/
  filler : List Char
  /-- Whether there was a break. -/
  broken : Bool

/-- The breaks that follow, each after any spaces. Nothing if a mark between documents follows
one. -/
def plainBreaks : Nat → Cursor → Option (List Char) × Cursor
  | 0, c => (none, c)
  | n + 1, c =>
    if c.seesDocumentMark then (none, c)
    else
      let c := c.skip isSpace
      match c.lineBreak? with
      | none => (some [], c)
      | some (x, c) =>
        let (xs, c) := plainBreaks n c
        (xs.map (x :: ·), c)

/-- The blanks and breaks after a chunk. -/
def plainGap (bound : Nat) (c : Cursor) : PlainGap × Cursor :=
  let (blanks, c) := c.span isSpace
  match c.lineBreak? with
  | none => ({ filler := blanks, broken := false }, c)
  | some (x, c) =>
    let (xs, c) := plainBreaks bound c
    ({ filler := (xs.map (foldBreak x)).getD [], broken := true }, c)

/-- Reads a plain scalar with a gap before it, and says whether a break follows its last chunk. The
lines of a plain scalar outside of brackets stand right of the given column. -/
def plainFrom (inFlow : Bool) (column : Int) (bound : Nat) :
    Nat → List Char → Bool → Cursor → (List Char × Bool) × Cursor
  | 0, _, broken, c => (([], broken), c)
  | n + 1, filler, broken, c =>
    let chunk := if c.sees '#' then [] else plainChunk inFlow c.rest
    if chunk.isEmpty then (([], broken), c)
    else
      let (gap, c) := plainGap bound (c.advance chunk.length)
      if gap.filler.isEmpty || (!inFlow && c.column ≤ column) then
        ((filler ++ chunk, gap.broken), c)
      else
        let ((more, broken), c) := plainFrom inFlow column bound n gap.filler gap.broken c
        ((filler ++ chunk ++ more, broken), c)

/-- Reads a plain scalar inside a block at the given column. -/
def plainScalar (inFlow : Bool) (column : Int) (c : Cursor) : (List Char × Bool) × Cursor :=
  let bound := c.rest.length + 1
  plainFrom inFlow column bound bound [] false c

/-! ## Block scalars -/

/-- What becomes of the breaks at the end of a block scalar. -/
inductive Chomping where
  | strip | clip | keep
  deriving DecidableEq, Repr

def chomping? (c : Cursor) : Option Chomping :=
  match c.peek with
  | some '+' => some .keep
  | some '-' => some .strip
  | _ => none

/-- The digit at a cursor. -/
def digit? (c : Cursor) : Option Nat :=
  match c.peek with
  | some x => if x.isDigit then some (x.toNat - '0'.toNat) else none
  | none => none

/-- Reads the indicators after the mark of a block scalar, in either order: chomping and
indentation. An indentation of zero is none. -/
def blockIndicators (c : Cursor) : Except DocumentFault ((Chomping × Option Nat) × Cursor) := do
  let (chomping, increment, c) := match chomping? c with
    | some chomping =>
      match digit? c.next with
      | some n => (chomping, some n, c.advance 2)
      | none => (chomping, none, c.next)
    | none =>
      match digit? c with
      | some n =>
        match chomping? c.next with
        | some chomping => (chomping, some n, c.advance 2)
        | none => (Chomping.clip, some n, c.next)
      | none => (Chomping.clip, none, c)
  if increment == some 0 || !c.spaceAt 0 then malformed else return ((chomping, increment), c)

/-- Takes the rest of a line that holds nothing but a comment. -/
def restOfLine (c : Cursor) : Except DocumentFault (Unit × Cursor) :=
  let c := c.skipComment
  match c.lineBreak? with
  | some (_, c) => .ok ((), c)
  | none => if c.atEnd then .ok ((), c) else malformed

/-- The breaks before the first line of a block scalar, and the largest column of the spaces
there. -/
def leadingBreaks : Nat → Nat → Cursor → (List Char × Nat) × Cursor
  | 0, most, c => (([], most), c)
  | n + 1, most, c =>
    let c := c.skip isSpace
    let most := max most c.column
    match c.lineBreak? with
    | none => (([], most), c)
    | some (x, c) =>
      let ((xs, most), c) := leadingBreaks n most c
      ((x :: xs, most), c)

/-- Takes spaces up to a column. -/
def skipIndent (column : Nat) (c : Cursor) : Cursor :=
  c.advance (min (column - c.column) (c.rest.takeWhile isSpace).length)

/-- The breaks that follow, each after spaces up to a column. -/
def blockBreaks (column : Nat) : Nat → Cursor → List Char × Cursor
  | 0, c => ([], c)
  | n + 1, c =>
    let c := skipIndent column c
    match c.lineBreak? with
    | none => ([], c)
    | some (x, c) =>
      let (xs, c) := blockBreaks column n c
      (x :: xs, c)

/-- Whether a line of a block scalar starts here. -/
def seesBlockLine (column : Nat) (c : Cursor) : Bool := c.column = column && !c.atEnd

/-- What stands between two lines of a block scalar. -/
def blockJoint (folded startsBlank nextBlank : Bool) (lineBreak : Option Char)
    (breaks : List Char) : List Char :=
  if folded && lineBreak == some '\n' && !startsBlank && !nextBlank then
    (if breaks.isEmpty then [' '] else []) ++ breaks
  else lineBreak.toList ++ breaks

/-- What stands at the end of a block scalar. -/
def blockEnd (chomping : Chomping) (lineBreak : Option Char) (breaks : List Char) : List Char :=
  match chomping with
  | .strip => []
  | .clip => lineBreak.toList
  | .keep => lineBreak.toList ++ breaks

/-- Reads the lines of a block scalar at a column. -/
def blockLines (folded : Bool) (chomping : Chomping) (column bound : Nat) :
    Nat → Cursor → List Char × Cursor
  | 0, c => ([], c)
  | n + 1, c =>
    let startsBlank := c.seesAny isBlank
    let (line, c) := c.span fun x => !isBreak x
    let (lineBreak, c) := match c.lineBreak? with
      | some (x, c) => (some x, c)
      | none => (none, c)
    let (breaks, c) := blockBreaks column bound c
    if seesBlockLine column c then
      let joint := blockJoint folded startsBlank (c.seesAny isBlank) lineBreak breaks
      let (more, c) := blockLines folded chomping column bound n c
      (line ++ joint ++ more, c)
    else (line ++ blockEnd chomping lineBreak breaks, c)

/-- Reads a block scalar from its mark on, inside a block at the given column. -/
def blockScalar (folded : Bool) (parent : Int) (c : Cursor) :
    Except DocumentFault (List Char × Cursor) := do
  let bound := c.rest.length + 1
  let ((chomping, increment), c) ← blockIndicators c.next
  let ((), c) ← restOfLine c
  let least := max 1 (parent + 1).toNat
  let (breaks, column, c) := match increment with
    | some n =>
      let column := least + n - 1
      let (breaks, c) := blockBreaks column bound c
      (breaks, column, c)
    | none =>
      let ((breaks, most), c) := leadingBreaks bound 0 c
      (breaks, max least most, c)
  if seesBlockLine column c then
    let (text, c) := blockLines folded chomping column bound bound c
    return (breaks ++ text, c)
  else return (blockEnd chomping none breaks, c)

end Lifecycle.Yaml
