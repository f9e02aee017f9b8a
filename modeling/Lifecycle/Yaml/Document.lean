import Lifecycle.Table
import Lifecycle.Yaml.Node

/-!
# YAML documents

The datum that the node of a text denotes. A mapping takes over the entries of the mappings that
it merges, before its own; of entries with equal keys the last one counts, at the place of the
first. Of several faults in a text the outermost counts, and of equally deep ones the first.
-/

namespace Lifecycle.Yaml

/-- A pair of nodes with the tag of a value as its key has a text as its key. -/
def plainKey : Node → Node
  | .scalar .value text => .scalar .str text
  | node => node

def isMergeKey : Node → Bool
  | .scalar .merge _ => true
  | .sequence .merge _ => true
  | .mapping .merge _ => true
  | _ => false

mutual

/-- The entries of a mapping with all merges done. -/
def flatten : Nat → List (Node × Node) → Except DocumentFault (List (Node × Node))
  | 0, _ => malformed
  | n + 1, entries => do
    let merged ← (entries.filter fun e => isMergeKey e.1).mapM fun e => mergedEntries n e.2
    let own := (entries.filter fun e => !isMergeKey e.1).map fun e => (plainKey e.1, e.2)
    return merged.flatten ++ own

/-- The entries that a merged node gives: those of a mapping, or those of the mappings of a
sequence, of which an earlier one overrides a later one. -/
def mergedEntries : Nat → Node → Except DocumentFault (List (Node × Node))
  | 0, _ => malformed
  | n + 1, node =>
    match node with
    | .mapping _ entries => flatten n entries
    | .sequence _ items => do
      let parts ← items.mapM fun item =>
        match item with
        | .mapping _ entries => flatten n entries
        | _ => malformed
      return parts.reverse.flatten
    | .scalar .. => malformed

end

/-- The text of a node where a scalar is wanted. A mapping has the text of the entry with the tag
of a value as its key. -/
def scalarText : Nat → Node → Except DocumentFault (List Char)
  | 0, _ => malformed
  | n + 1, node =>
    match node with
    | .scalar _ text => .ok text
    | .mapping _ entries =>
      match entries.find? fun e => match e.1 with
        | .scalar .value _ => true
        | _ => false with
      | some e => scalarText n e.2
      | none => malformed
    | .sequence .. => malformed

/-- A fault, and in how many collections it lies. -/
structure DeepFault where
  depth : Nat
  fault : DocumentFault

def atDepth {α : Type} (depth : Nat) (r : Except DocumentFault α) : Except DeepFault α :=
  r.mapError fun fault => { depth, fault }

/-- The outer one of two faults, the first if they lie equally deep. -/
def outer (e f : DeepFault) : DeepFault := if f.depth < e.depth then f else e

/-- Both of two results, or the outer fault. -/
def both {α β : Type} (r : Except DeepFault α) (s : Except DeepFault β) :
    Except DeepFault (α × β) :=
  match r, s with
  | .ok a, .ok b => .ok (a, b)
  | .ok _, .error f => .error f
  | .error e, .ok _ => .error e
  | .error e, .error f => .error (outer e f)

/-- All of some results, or the outermost fault. -/
def allOf {α : Type} : List (Except DeepFault α) → Except DeepFault (List α)
  | [] => .ok []
  | r :: rs => (both r (allOf rs)).map fun p => p.1 :: p.2

/-- The only entry of a mapping in a sequence of pairs. -/
def singleEntry : Node → Except DocumentFault (Node × Node)
  | .mapping _ [e] => .ok e
  | _ => malformed

def Node.tag : Node → Tag
  | .scalar tag _ => tag
  | .sequence tag _ => tag
  | .mapping tag _ => tag

/-- Whether what a tag denotes is a collection, which no table can hold as a key. -/
def Tag.isCollection : Tag → Bool
  | .seq | .map | .set | .omap | .pairs => true
  | _ => false

def denoteScalar (depth n : Nat) (node : Node) : Except DeepFault Datum :=
  atDepth depth (do scalarValue node.tag (← scalarText n node))

def denoteKey (depth n : Nat) (node : Node) : Except DeepFault Datum :=
  if node.tag.isCollection then atDepth depth malformed else denoteScalar depth n node

mutual

/-- The datum that a node denotes inside of `depth` collections. -/
def denote : Nat → Nat → Node → Except DeepFault Datum
  | 0, depth, _ => atDepth depth malformed
  | n + 1, depth, node =>
    let inside := depth + 1
    match node.tag, node with
    | .seq, .sequence _ items => (allOf (items.map (denote n inside))).map .list
    | .seq, _ => atDepth inside malformed
    | .map, .mapping _ entries => (denoteTable n inside entries).map Datum.ofTable
    | .map, _ => atDepth inside malformed
    | .set, .mapping _ entries => (denoteTable n inside entries).map fun t => .set t.keys
    | .set, _ => atDepth inside malformed
    | .omap, .sequence _ items => (allOf (items.map (denotePair n inside))).map .list
    | .omap, _ => atDepth inside malformed
    | .pairs, .sequence _ items => (allOf (items.map (denotePair n inside))).map .list
    | .pairs, _ => atDepth inside malformed
    | _, node => denoteScalar depth (n + 1) node

def denoteTable : Nat → Nat → List (Node × Node) → Except DeepFault (Table Datum Datum)
  | 0, depth, _ => atDepth depth malformed
  | n + 1, depth, entries => do
    let entries ← atDepth depth (flatten n entries)
    let pairs ← allOf (entries.map fun e => both (denoteKey depth n e.1) (denote n depth e.2))
    return Table.ofList pairs

/-- The pair that a mapping with one entry denotes in a sequence of pairs. -/
def denotePair : Nat → Nat → Node → Except DeepFault Datum
  | 0, depth, _ => atDepth depth malformed
  | n + 1, depth, node => do
    let (k, v) ← atDepth depth (singleEntry node)
    let (k, v) ← both (denote n depth k) (denote n depth v)
    return .tuple [k, v]

end

mutual

def Node.depth : Node → Nat
  | .scalar .. => 1
  | .sequence _ items => 1 + Node.itemsDepth items
  | .mapping _ entries => 1 + Node.entriesDepth entries

def Node.itemsDepth : List Node → Nat
  | [] => 0
  | x :: xs => max x.depth (Node.itemsDepth xs)

def Node.entriesDepth : List (Node × Node) → Nat
  | [] => 0
  | (k, v) :: es => max (max k.depth v.depth) (Node.entriesDepth es)

end

/-- Reads a document. A text without a node is null. -/
def read (text : String) : Except DocumentFault Datum := do
  match ← Node.ofText text.toList with
  | none => return .null
  | some node => (denote (3 * node.depth + 3) 0 node).mapError DeepFault.fault

end Lifecycle.Yaml
