import Lifecycle.Yaml.Token

/-!
# From a YAML text to its tokens

The lexer walks through a text and keeps track of indentation, of the nesting of brackets, and of
the places where a key may have started: only the mark after a key tells that it was one, and then
the tokens that announce it are put in at the place where it started.
-/

namespace Lifecycle.Yaml

/-- A place where a key may have started. -/
structure KeyPlace where
  /-- The number of tokens before it. -/
  tokens : Nat
  /-- Whether nothing but a key can stand there. -/
  required : Bool
  index : Nat
  line : Nat
  column : Nat

structure Lexer where
  cursor : Cursor
  tokens : Array Token
  /-- The column of the innermost block, and of those around it; -1 outside of all. -/
  indent : Int
  outer : List Int
  /-- The number of open brackets. -/
  depth : Nat
  /-- Whether a key may start here. -/
  keyAllowed : Bool
  /-- The places where a key may have started, by the number of open brackets. -/
  keys : List (Nat × KeyPlace)
  finished : Bool

namespace Lexer

def start (text : List Char) : Lexer :=
  { cursor := .start text, tokens := #[], indent := -1, outer := [], depth := 0, keyAllowed := true,
    keys := [], finished := false }

def inFlow (s : Lexer) : Bool := s.depth != 0

def push (s : Lexer) (t : Token) : Lexer := { s with tokens := s.tokens.push t }

/-- Takes the next `n` characters as a token. -/
def take (s : Lexer) (n : Nat) (t : Token) : Lexer :=
  { s.push t with cursor := s.cursor.advance n }

/-- Goes to the next token, past spaces, comments and breaks. A break outside of brackets allows a
key. -/
def skipToToken : Nat → Lexer → Lexer
  | 0, s => s
  | n + 1, s =>
    let c := s.cursor.skipComment
    match c.lineBreak? with
    | none => { s with cursor := c }
    | some (_, c) => skipToToken n { s with cursor := c, keyAllowed := s.keyAllowed || !s.inFlow }

/-- Goes past the mark that the text may begin with. -/
def skipStart (s : Lexer) : Lexer :=
  if s.cursor.index = 0 && s.cursor.sees byteOrderMark then { s with cursor := s.cursor.next }
  else s

/-- Whether a place is too far away for a key: on another line, or more than 1024 characters
back. -/
def isStale (s : Lexer) (k : KeyPlace) : Bool :=
  k.line != s.cursor.line || k.index + 1024 < s.cursor.index

/-- Forgets the places that are too far away for a key. -/
def dropStaleKeys (s : Lexer) : Except DocumentFault Lexer :=
  if s.keys.any fun k => s.isStale k.2 && k.2.required then malformed
  else .ok { s with keys := s.keys.filter fun k => !s.isStale k.2 }

/-- The tokens before every place where a key may still have started. What comes after them is not
settled yet. -/
def settled (s : Lexer) : Array Token :=
  s.tokens.take (s.keys.foldl (fun n k => if s.isStale k.2 then n else min n k.2.tokens)
    s.tokens.size)

/-- Forgets the place at the present depth, where a key can no longer start. -/
def forgetKey (s : Lexer) : Except DocumentFault Lexer :=
  if s.keys.any fun k => k.1 == s.depth && k.2.required then malformed
  else .ok { s with keys := s.keys.filter fun k => k.1 != s.depth }

/-- Notes that a key may start here. -/
def noteKey (s : Lexer) : Except DocumentFault Lexer :=
  if s.keyAllowed then do
    let s ← s.forgetKey
    let place : KeyPlace := {
      tokens := s.tokens.size
      required := !s.inFlow && s.indent == s.cursor.column
      index := s.cursor.index
      line := s.cursor.line
      column := s.cursor.column }
    return { s with keys := (s.depth, place) :: s.keys }
  else .ok s

/-- Ends the blocks that stand right of a column. -/
def closeBlocks (column : Int) (s : Lexer) : Lexer :=
  if s.inFlow then s else go s.outer s
where
  go : List Int → Lexer → Lexer
    | [], s => s
    | i :: outer, s =>
      if column < s.indent then go outer { s.push .blockEnd with indent := i, outer } else s

/-- Starts a block at a column, if none stands there, by putting a token in. -/
def openBlock (s : Lexer) (column : Nat) (place : Nat) (t : Token) : Lexer :=
  if s.indent < column then
    { s with
      indent := column
      outer := s.indent :: s.outer
      tokens := s.tokens.insertIdxIfInBounds place t }
  else s

def streamEnd (s : Lexer) : Except DocumentFault Lexer := do
  let s ← (s.closeBlocks (-1)).forgetKey
  return { s.push .streamEnd with finished := true }

def takeDirective (s : Lexer) : Except DocumentFault Lexer := do
  let s ← (s.closeBlocks (-1)).forgetKey
  let (d, c) ← directive s.cursor
  return { s.push (.directive d) with cursor := c, keyAllowed := false }

def takeDocumentMark (s : Lexer) (t : Token) : Except DocumentFault Lexer := do
  let s ← (s.closeBlocks (-1)).forgetKey
  return { s.take 3 t with keyAllowed := false }

def openFlow (s : Lexer) (t : Token) : Except DocumentFault Lexer := do
  let s ← s.noteKey
  return { s.take 1 t with depth := s.depth + 1, keyAllowed := true }

def closeFlow (s : Lexer) (t : Token) : Except DocumentFault Lexer := do
  let s ← s.forgetKey
  return { s.take 1 t with depth := s.depth - 1, keyAllowed := false }

def takeFlowEntry (s : Lexer) : Except DocumentFault Lexer := do
  let s ← s.forgetKey
  return { s.take 1 .flowEntry with keyAllowed := true }

/-- Opens a block for an entry or a key that starts with a mark of its own. Outside of brackets that
has to be a place where a key may start. -/
def openMarked (s : Lexer) (t : Token) : Except DocumentFault Lexer :=
  if s.inFlow then .ok s
  else if s.keyAllowed then .ok (s.openBlock s.cursor.column s.tokens.size t)
  else malformed

def takeBlockEntry (s : Lexer) : Except DocumentFault Lexer := do
  let s ← (← s.openMarked .blockSequenceStart).forgetKey
  return { s.take 1 .blockEntry with keyAllowed := true }

def takeKey (s : Lexer) : Except DocumentFault Lexer := do
  let s ← (← s.openMarked .blockMappingStart).forgetKey
  return { s.take 1 .key with keyAllowed := !s.inFlow }

/-- Takes the mark of a value. If a key may have started at the present depth, it did. -/
def takeValue (s : Lexer) : Except DocumentFault Lexer := do
  match s.keys.find? fun k => k.1 == s.depth with
  | some (_, place) =>
    let s := { s with
      keys := s.keys.filter fun k => k.1 != s.depth
      tokens := s.tokens.insertIdxIfInBounds place.tokens .key
      keyAllowed := false }
    let s := if s.inFlow then s else s.openBlock place.column place.tokens .blockMappingStart
    return s.take 1 .value
  | none =>
    let s ← (← s.openMarked .blockMappingStart).forgetKey
    return { s.take 1 .value with keyAllowed := !s.inFlow }

/-- Takes what can be, or begin, a key. -/
def takeKeyPart (s : Lexer) (read : Cursor → Except DocumentFault (Token × Cursor)) :
    Except DocumentFault Lexer := do
  let s ← s.noteKey
  let (t, c) ← read s.cursor
  return { s.push t with cursor := c, keyAllowed := false }

def takePlain (s : Lexer) : Except DocumentFault Lexer := do
  let s ← s.noteKey
  let ((text, broken), c) := plainScalar s.inFlow s.indent s.cursor
  return { s.push (.scalar true text) with cursor := c, keyAllowed := broken }

def takeBlockScalar (s : Lexer) (folded : Bool) : Except DocumentFault Lexer := do
  let s ← s.forgetKey
  let (text, c) ← blockScalar folded s.indent s.cursor
  return { s.push (.scalar false text) with cursor := c, keyAllowed := true }

/-- Whether a plain scalar can start with a character, and the text after it. -/
def startsPlain (inFlow : Bool) (x : Char) (c : Cursor) : Bool :=
  let isMark := "-?:,[]\x7b\x7d#&*!|>'\"%@\x60".toList.contains x
  if !isBlank x && !isBreak x && !isMark then true
  else !c.blankAt 1 && (x = '-' || (!inFlow && (x = '?' || x = ':')))

def takeToken (s : Lexer) (x : Char) : Except DocumentFault Lexer :=
  let c := s.cursor
  let plainOr : Except DocumentFault Lexer :=
    if startsPlain s.inFlow x c then s.takePlain else malformed
  match x with
  | '%' => if c.column = 0 then s.takeDirective else plainOr
  | '-' =>
    if c.column = 0 && c.seesMark ['-', '-', '-'] then s.takeDocumentMark .documentStart
    else if c.blankAt 1 then s.takeBlockEntry
    else plainOr
  | '.' =>
    if c.column = 0 && c.seesMark ['.', '.', '.'] then s.takeDocumentMark .documentEnd else plainOr
  | '[' => s.openFlow .flowSequenceStart
  | '\x7b' => s.openFlow .flowMappingStart
  | ']' => s.closeFlow .flowSequenceEnd
  | '\x7d' => s.closeFlow .flowMappingEnd
  | ',' => s.takeFlowEntry
  | '?' => if s.inFlow || c.blankAt 1 then s.takeKey else plainOr
  | ':' => if s.inFlow || c.blankAt 1 then s.takeValue else plainOr
  | '*' => s.takeKeyPart fun c => (anchorName c).map fun r => (.aliasOf r.1, r.2)
  | '&' => s.takeKeyPart fun c => (anchorName c).map fun r => (.anchor r.1, r.2)
  | '!' => s.takeKeyPart fun c => (tagMark c).map fun r => (.tag r.1, r.2)
  | '|' => if s.inFlow then plainOr else s.takeBlockScalar false
  | '>' => if s.inFlow then plainOr else s.takeBlockScalar true
  | '\'' => s.takeKeyPart fun c => (quotedScalar false c).map fun r => (.scalar false r.1, r.2)
  | '"' => s.takeKeyPart fun c => (quotedScalar true c).map fun r => (.scalar false r.1, r.2)
  | _ => plainOr

/-- Goes to the next token and takes it. -/
def step (s : Lexer) : Except DocumentFault Lexer := do
  let s := skipToToken (s.cursor.rest.length + 1) s.skipStart
  let s ← s.dropStaleKeys
  let s := s.closeBlocks s.cursor.column
  match s.cursor.peek with
  | none => s.streamEnd
  | some x => s.takeToken x

/-- Takes tokens to the end, or to the first fault, which stands in the place of the tokens that
are not settled. Every token but the last takes a character. -/
def run : Nat → Lexer → Array Token
  | 0, s => s.tokens
  | n + 1, s =>
    if s.finished then s.tokens
    else match s.step with
      | .ok s => run n s
      | .error fault => s.settled.push (.fault fault)

end Lexer

def Token.ofText (text : List Char) : List Token :=
  if text.all isAllowed then (Lexer.run (text.length + 2) (.start text)).toList
  else [.fault .malformed]

end Lifecycle.Yaml
