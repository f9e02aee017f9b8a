import Lifecycle.Yaml.Schema
import Lifecycle.Yaml.Token.Lexer

/-!
# Nodes of a YAML text

A text holds one node, or none: a scalar, a sequence or a mapping, each with a tag. Reading the
tokens resolves tags and handles, and puts the node of an anchor in the place of each alias of it.
An alias inside the node of its own anchor has nothing to stand for.
-/

namespace Lifecycle.Yaml

inductive Node where
  | scalar (tag : Tag) (text : List Char)
  | sequence (tag : Tag) (items : List Node)
  | mapping (tag : Tag) (entries : List (Node × Node))
  deriving Inhabited

/-- The tokens still to be read, the anchors so far, and what the handles stand for. -/
structure Composer where
  tokens : List Token
  /-- The anchors with their nodes, and without one as long as the node is being read. -/
  anchors : List (List Char × Option Node)
  handles : List (List Char × List Char)

/-- Reads a part of the tokens. -/
abbrev Compose := StateT Composer (Except DocumentFault)

namespace Compose

def fail {α : Type} : Compose α := throw .malformed

/-- The next token. A fault among the tokens is the fault of the reading. -/
def peek : Compose Token := do
  match (← get).tokens with
  | [] => fail
  | .fault fault :: _ => throw fault
  | t :: _ => return t

def advance : Compose Unit := modify fun s => { s with tokens := s.tokens.drop 1 }

/-- The handles that need no directive. -/
def defaultHandles : List (List Char × List Char) :=
  [(['!'], ['!']), (['!', '!'], Tag.familyName)]

/-- The node that an alias stands for. -/
def aliased (name : List Char) : Compose Node := do
  match (← get).anchors.lookup name with
  | some (some node) => return node
  | _ => fail

/-- Reads the node of an anchor. A name stands for one node only. -/
def anchored (name : List Char) (read : Compose Node) : Compose Node := do
  if ((← get).anchors.lookup name).isSome then fail
  else
    modify fun s => { s with anchors := (name, none) :: s.anchors }
    let node ← read
    modify fun s => { s with anchors := (name, some node) :: s.anchors }
    return node

def tagName (tag : WrittenTag) : Compose (List Char) := do
  match tag.handle with
  | none => return tag.suffix
  | some handle =>
    match (← get).handles.lookup handle with
    | some family => return family ++ tag.suffix
    | none => fail

def scalarTag (plain : Bool) (text : List Char) : Option (List Char) → Tag
  | none => if plain then plainTag text else .str
  | some name => if name = ['!'] then plainTag text else Tag.ofName name

def collectionTag (usual : Tag) : Option (List Char) → Tag
  | none => usual
  | some name => if name = ['!'] then usual else Tag.ofName name

def absent : Node := .scalar .null []

def anchor? : Compose (Option (List Char)) := do
  match ← peek with
  | .anchor name => advance; return some name
  | _ => return none

def tag? : Compose (Option WrittenTag) := do
  match ← peek with
  | .tag t => advance; return some t
  | _ => return none

/-- Reads an anchor and a tag in either order. Each may be absent. -/
def properties : Compose (Option (List Char) × Option WrittenTag) := do
  match ← anchor? with
  | some name => return (some name, ← tag?)
  | none =>
    match ← tag? with
    | some t => return (← anchor?, some t)
    | none => return (none, none)

/-- Whether a token ends an entry of a sequence, of a sequence without indentation, or of a block
mapping, so that the entry is absent. -/
def endsEntry : Token → Bool
  | .blockEntry | .blockEnd => true
  | _ => false

def endsBareEntry : Token → Bool
  | .blockEntry | .key | .value | .blockEnd => true
  | _ => false

def endsKeyOrValue : Token → Bool
  | .key | .value | .blockEnd => true
  | _ => false

/-- Whether a token ends a key, or a value, between brackets of some kind. -/
def endsFlowKey (isClose : Token → Bool) : Token → Bool
  | .value | .flowEntry => true
  | t => isClose t

def endsFlowValue (isClose : Token → Bool) : Token → Bool
  | .flowEntry => true
  | t => isClose t

def isSequenceEnd : Token → Bool
  | .flowSequenceEnd => true
  | _ => false

def isMappingEnd : Token → Bool
  | .flowMappingEnd => true
  | _ => false

/-- Takes the comma before an entry between brackets that is not the first one. -/
def separator (first : Bool) : Compose Unit := do
  if first then return ()
  else match ← peek with
    | .flowEntry => advance
    | _ => fail

def valueOr (ends : Token → Bool) (read : Compose Node) : Compose Node := do
  match ← peek with
  | .value =>
    advance
    if ends (← peek) then return absent else read
  | _ => return absent

/-- Reads a node, or takes it as absent if a token ends it before it starts. -/
def orAbsent (ends : Token → Bool) (read : Compose Node) : Compose Node := do
  if ends (← peek) then return absent else read

mutual

/-- Reads a node. Outside of brackets it may be a block, and where a mapping allows it a sequence
without indentation of its own. -/
def node (block bare : Bool) : Nat → Compose Node
  | 0 => fail
  | n + 1 => do
    match ← peek with
    | .aliasOf name => advance; aliased name
    | _ =>
      let (anchor, written) ← properties
      let tag ← match written with
        | some t => some <$> tagName t
        | none => pure none
      let read := content block bare (anchor.isSome || tag.isSome) tag n
      let _ ← peek
      match anchor with
      | some name => anchored name read
      | none => read

/-- Reads a node after its anchor and tag. With one of them it may be absent. -/
def content (block bare marked : Bool) (tag : Option (List Char)) : Nat → Compose Node
  | 0 => fail
  | n + 1 => do
    match ← peek with
    | .scalar plain text => advance; return .scalar (scalarTag plain text tag) text
    | .flowSequenceStart =>
      advance
      return .sequence (collectionTag .seq tag) (← flowItems true n)
    | .flowMappingStart =>
      advance
      return .mapping (collectionTag .map tag) (← flowEntries true n)
    | .blockEntry =>
      if bare then return .sequence (collectionTag .seq tag) (← bareItems n)
      else if marked then return .scalar (scalarTag true [] tag) []
      else fail
    | .blockSequenceStart =>
      if block then
        advance
        return .sequence (collectionTag .seq tag) (← blockItems n)
      else if marked then return .scalar (scalarTag true [] tag) []
      else fail
    | .blockMappingStart =>
      if block then
        advance
        return .mapping (collectionTag .map tag) (← blockEntries n)
      else if marked then return .scalar (scalarTag true [] tag) []
      else fail
    | _ => if marked then return .scalar (scalarTag true [] tag) [] else fail

/-- Reads the entries of a block sequence and its end. -/
def blockItems : Nat → Compose (List Node)
  | 0 => fail
  | n + 1 => do
    match ← peek with
    | .blockEntry =>
      advance
      let item ← orAbsent endsEntry (node true false n)
      return item :: (← blockItems n)
    | .blockEnd => advance; return []
    | _ => fail

/-- Reads the entries of a sequence without indentation of its own. -/
def bareItems : Nat → Compose (List Node)
  | 0 => fail
  | n + 1 => do
    match ← peek with
    | .blockEntry =>
      advance
      let item ← orAbsent endsBareEntry (node true false n)
      return item :: (← bareItems n)
    | _ => return []

/-- Reads the entries of a block mapping and its end. -/
def blockEntries : Nat → Compose (List (Node × Node))
  | 0 => fail
  | n + 1 => do
    match ← peek with
    | .key =>
      advance
      let key ← orAbsent endsKeyOrValue (node true true n)
      let value ← valueOr endsKeyOrValue (node true true n)
      return (key, value) :: (← blockEntries n)
    | .blockEnd => advance; return []
    | _ => fail

/-- Reads the entries of a sequence between brackets and the closing bracket. An entry may be a
single pair. -/
def flowItems (first : Bool) : Nat → Compose (List Node)
  | 0 => fail
  | n + 1 => do
    match ← peek with
    | .flowSequenceEnd => advance; return []
    | _ =>
      separator first
      match ← peek with
      | .flowSequenceEnd => advance; return []
      | .key =>
        advance
        let key ← orAbsent (endsFlowKey isSequenceEnd) (node false false n)
        let value ← valueOr (endsFlowValue isSequenceEnd) (node false false n)
        return .mapping .map [(key, value)] :: (← flowItems false n)
      | _ =>
        let item ← node false false n
        return item :: (← flowItems false n)

/-- Reads the entries of a mapping between braces and the closing brace. -/
def flowEntries (first : Bool) : Nat → Compose (List (Node × Node))
  | 0 => fail
  | n + 1 => do
    match ← peek with
    | .flowMappingEnd => advance; return []
    | _ =>
      separator first
      match ← peek with
      | .flowMappingEnd => advance; return []
      | .key =>
        advance
        let key ← orAbsent (endsFlowKey isMappingEnd) (node false false n)
        let value ← valueOr (endsFlowValue isMappingEnd) (node false false n)
        return (key, value) :: (← flowEntries false n)
      | _ =>
        let key ← node false false n
        return (key, absent) :: (← flowEntries false n)

end

/-- Reads the directives before a document, with the handles that they explain. -/
def directives : Nat → Bool → List (List Char × List Char) → Compose (List (List Char × List Char))
  | 0, _, _ => fail
  | n + 1, versioned, handles => do
    match ← peek with
    | .directive (.version major) =>
      if versioned || major != 1 then fail
      else
        advance
        directives n true handles
    | .directive (.tag handle uri) =>
      if (handles.lookup handle).isSome then fail
      else
        advance
        directives n versioned ((handle, uri) :: handles)
    | .directive .unknown => advance; directives n versioned handles
    | _ => return handles

def skipDocumentEnds : Nat → Compose Unit
  | 0 => fail
  | n + 1 => do
    match ← peek with
    | .documentEnd => advance; skipDocumentEnds n
    | _ => return ()

def endsDocument : Token → Bool
  | .directive _ | .documentStart | .documentEnd | .streamEnd => true
  | _ => false

/-- Reads the only document of the tokens, if there is one. -/
def document (n : Nat) : Compose (Option Node) := do
  let result ← match ← peek with
    | .streamEnd => pure none
    | .directive _ | .documentStart =>
      let handles ← directives n false []
      modify fun s => { s with handles := handles ++ defaultHandles }
      match ← peek with
      | .documentStart =>
        advance
        some <$> orAbsent endsDocument (node true false n)
      | _ => fail
    | _ => some <$> node true false n
  skipDocumentEnds n
  match ← peek with
  | .streamEnd => return result
  | _ => fail

end Compose

/-- The node of a text, if it holds one. -/
def Node.ofText (text : List Char) : Except DocumentFault (Option Node) := do
  let tokens := Token.ofText text
  let s : Composer := { tokens, anchors := [], handles := Compose.defaultHandles }
  let (node, _) ← (Compose.document (4 * tokens.length + 4)).run s
  return node

end Lifecycle.Yaml
