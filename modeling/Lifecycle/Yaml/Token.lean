import Lifecycle.Yaml.Scalar

/-!
# Tokens of a YAML text

The marks and scalars of a text, in order, with explicit starts and ends for the collections that
are written by indentation. A list of tokens ends with the end of the stream or with the fault at
which reading stopped.
-/

namespace Lifecycle.Yaml

/-- A line that says how the document after it is to be read. -/
inductive Directive where
  | version (major : Nat)
  | tag (handle uri : List Char)
  | unknown
  deriving Repr

/-- A tag as written: a handle that directives explain, and the rest; or the whole without a
handle. -/
structure WrittenTag where
  handle : Option (List Char)
  suffix : List Char
  deriving Repr

inductive Token where
  | streamEnd
  | fault (fault : DocumentFault)
  | directive (d : Directive)
  | documentStart
  | documentEnd
  | blockSequenceStart
  | blockMappingStart
  | blockEnd
  | flowSequenceStart
  | flowSequenceEnd
  | flowMappingStart
  | flowMappingEnd
  | blockEntry
  | flowEntry
  | key
  | value
  | aliasOf (name : List Char)
  | anchor (name : List Char)
  | tag (tag : WrittenTag)
  | scalar (plain : Bool) (text : List Char)
  deriving Repr, Inhabited

/-! ## Names, tags and directives -/

/-- Reads the name of an anchor or of an alias, from its mark on. -/
def anchorName (c : Cursor) : Except DocumentFault (List Char × Cursor) :=
  let (name, c) := c.next.span isWordChar
  let ends := c.peek.all fun x => isBlank x || isBreak x || "?:,]\x7d%@\x60".toList.contains x
  if name.isEmpty || !ends then malformed else .ok (name, c)

/-- A character that can stand in a tag as it is. -/
def isUriChar (c : Char) : Bool := isWordChar c || ";/?:@&=+$,.!~*'()[]".toList.contains c

/-- Reads bytes that are written as a percent sign with two hexadecimal digits. -/
def escapedBytes : Nat → Cursor → Except DocumentFault (List UInt8 × Cursor)
  | 0, _ => malformed
  | n + 1, c =>
    if !c.sees '%' then .ok ([], c)
    else
      match Decimal.natOfBase? 16 ((c.rest.drop 1).take 2) with
      | none => malformed
      | some b =>
        if (c.rest.drop 1).length < 2 then malformed
        else do
          let (bytes, c) ← escapedBytes n (c.advance 3)
          return (b.toUInt8 :: bytes, c)

/-- The text of bytes that are valid UTF-8. -/
def decoded? (bytes : List UInt8) : Option (List Char) :=
  (String.fromUTF8? ⟨bytes.toArray⟩).map String.toList

def uriChars : Nat → Cursor → Except DocumentFault (List Char × Cursor)
  | 0, _ => malformed
  | n + 1, c =>
    let (chars, c) := c.span isUriChar
    if !c.sees '%' then .ok (chars, c)
    else do
      let (bytes, c) ← escapedBytes (c.rest.length + 1) c
      match decoded? bytes with
      | none => malformed
      | some text =>
        let (more, c) ← uriChars n c
        return (chars ++ text ++ more, c)

/-- Reads the characters of a tag, of which there is at least one. -/
def uri (c : Cursor) : Except DocumentFault (List Char × Cursor) :=
  if c.sees '%' || c.seesAny isUriChar then uriChars (c.rest.length + 1) c else malformed

/-- Reads a handle: one exclamation mark, or a name between two. -/
def tagHandle (c : Cursor) : Except DocumentFault (List Char × Cursor) :=
  if !c.sees '!' then malformed
  else if c.next.sees ' ' then .ok (['!'], c.next)
  else
    let (name, d) := c.next.span isWordChar
    if d.sees '!' then .ok ('!' :: name ++ ['!'], d.next) else malformed

/-- Reads the characters of a tag, from its mark on. -/
def writtenTag (c : Cursor) : Except DocumentFault (WrittenTag × Cursor) :=
  if c.next.sees '<' then do
    let (suffix, c) ← uri (c.advance 2)
    if c.sees '>' then return ({ handle := none, suffix }, c.next) else malformed
  else if c.blankAt 1 then .ok ({ handle := none, suffix := ['!'] }, c.next)
  else do
    let word := c.next.rest.takeWhile fun x => !isSpace x && !isBreak x
    let (handle, c) ← if word.contains '!' then tagHandle c else .ok (['!'], c.next)
    let (suffix, c) ← uri c
    return ({ handle := some handle, suffix }, c)

/-- Reads a tag, after which there is a space, a break or the end. -/
def tagMark (c : Cursor) : Except DocumentFault (WrittenTag × Cursor) := do
  let (tag, c) ← writtenTag c
  if c.spaceAt 0 then return (tag, c) else malformed

def versionNumber (c : Cursor) : Except DocumentFault (Nat × Cursor) :=
  let (digits, c) := c.span Char.isDigit
  if digits.isEmpty then malformed else .ok (Decimal.natOfDigits digits, c)

def versionDirective (c : Cursor) : Except DocumentFault (Directive × Cursor) := do
  let (major, c) ← versionNumber (c.skip isSpace)
  if !c.sees '.' then malformed
  else
    let (_, c) ← versionNumber c.next
    if c.spaceAt 0 then return (.version major, c) else malformed

def tagDirective (c : Cursor) : Except DocumentFault (Directive × Cursor) := do
  let (handle, c) ← tagHandle (c.skip isSpace)
  if !c.sees ' ' then malformed
  else
    let (uri, c) ← uri (c.skip isSpace)
    if c.spaceAt 0 then return (.tag handle uri, c) else malformed

/-- Reads a directive, from its mark to the end of the line. -/
def directive (c : Cursor) : Except DocumentFault (Directive × Cursor) := do
  let (name, c) := c.next.span isWordChar
  if name.isEmpty || !c.spaceAt 0 then malformed
  else
    let (d, c) ←
      if name = "YAML".toList then versionDirective c
      else if name = "TAG".toList then tagDirective c
      else pure (Directive.unknown, c.skip fun x => !isBreak x)
    let ((), c) ← restOfLine c
    return (d, c)

end Lifecycle.Yaml
