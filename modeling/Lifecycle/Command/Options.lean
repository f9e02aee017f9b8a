import Lifecycle.Datum.Basic

/-!
# Words and options of a command line

An argument is a word or an option. Options are switches: a long one may be cut short as long as
no other one starts alike, and several short ones may share a dash. A negative number is a word,
and so is whatever follows two dashes.

Arguments are taken from left to right. What is wrong with an option ends the reading where it
stands, and asking for help ends it too; words that are too many, words that are too few and
unknown options are found out only at the end.
-/

namespace Lifecycle.Command

/-- What an option switches on. -/
inductive Switch where
  | help | verbose | labels | actions
  deriving DecidableEq, Repr

/-- The options that can be given somewhere, by name. -/
abbrev Options := List (List Char × Switch)

/-- An argument as it is understood. -/
inductive Argument where
  | word (s : String)
  | dashes
  /-- One or more options, and whether letters that are no options follow them. -/
  | switches (s : List Switch) (spare : Bool)
  /-- An option with a value, which no option takes. -/
  | overfull
  | unknown
  /-- The start of more than one option. -/
  | ambiguous
  deriving DecidableEq, Repr

def bundle (options : Options) (done : List Switch) : List Char → Argument
  | [] => .switches done false
  | '-' :: _ => .overfull
  | c :: rest =>
    match options.lookup ['-', c], rest with
    | none, _ => .switches done true
    | some _, '=' :: _ => .overfull
    | some s, rest => bundle options (done ++ [s]) rest

/-- Splits a text at the first equals sign, if it has one. -/
def splitValue (text : List Char) : List Char × Option (List Char) :=
  let name := text.takeWhile (· != '=')
  match text.dropWhile (· != '=') with
  | [] => (name, none)
  | _ :: value => (name, some value)

/-- The options that an argument may stand for when it is no option's full name. -/
def completions (options : Options) (text : List Char) : List Argument :=
  if text.take 2 = ['-', '-'] then
    let (start, value) := splitValue text
    (options.filter fun o => start.isPrefixOf o.1).map fun o =>
      if value.isSome then .overfull else .switches [o.2] false
  else
    options.filterMap fun o =>
      if o.1 = text.take 2 then some (bundle options [o.2] (text.drop 2))
      else if text.isPrefixOf o.1 then some (.switches [o.2] false)
      else none

/-- Whether a text is a negative number: digits, or digits after a point. -/
def isNegativeNumber : List Char → Bool
  | '-' :: body =>
    match body.dropWhile Char.isDigit with
    | [] => !body.isEmpty
    | '.' :: fraction => !fraction.isEmpty && fraction.all Char.isDigit
    | _ => false
  | _ => false

/-- Understands an argument that does not follow two dashes. -/
def Argument.ofText (options : Options) (s : String) : Argument :=
  let text := s.toList
  match text with
  | '-' :: _ :: _ =>
    match options.lookup text with
    | some o => .switches [o] false
    | none =>
      let (name, value) := splitValue text
      if value.isSome && (options.lookup name).isSome then .overfull
      else match completions options text with
        | [a] => a
        | _ :: _ :: _ => .ambiguous
        | [] => if isNegativeNumber text || text.contains ' ' then .word s else .unknown
  | _ => .word s

def Argument.ofTexts (options : Options) : List String → List Argument
  | [] => []
  | s :: rest =>
    if s == "--" then .dashes :: rest.map .word
    else .ofText options s :: Argument.ofTexts options rest

/-- What comes of reading arguments. -/
inductive Reading (α : Type) where
  | help
  | misuse
  | done (a : α)
  deriving Repr

/-- What was read so far: the words that are wanted, the switches, whether a word was just taken,
whether two dashes just before open the next word, and whether there was anything too many. -/
structure Taken where
  words : List Datum
  switches : List Switch
  adjacent : Bool
  opening : Bool
  spare : Bool

def Taken.start : Taken :=
  { words := [], switches := [], adjacent := false, opening := false, spare := false }

/-- What a word stands for. Two dashes as a word stand for nothing, an empty list, unless the two
dashes that make words of all that follows are right before them and open this word. -/
def wordValue (opening : Bool) (s : String) : Datum :=
  if s == "--" && !opening then .list [] else .text s

/-- Reads arguments of which the first `count` words are wanted. Two dashes count for nothing next
to a wanted word. -/
def take (count : Nat) : List Argument → Taken → Reading Taken
  | [], t => .done t
  | .word s :: rest, t =>
    let next := { t with adjacent := false, opening := false }
    if t.words.length < count then
      take count rest { next with words := t.words ++ [wordValue t.opening s], adjacent := true }
    else take count rest { next with spare := true }
  | .dashes :: rest, t =>
    let opening := !t.adjacent && t.words.length < count && !rest.isEmpty
    take count rest
      { t with spare := t.spare || !(t.adjacent || opening), adjacent := false, opening }
  | .switches s spare :: rest, t =>
    if s.contains .help then .help
    else take count rest
      { t with switches := t.switches ++ s, adjacent := false, spare := t.spare || spare }
  | .unknown :: rest, t => take count rest { t with spare := true, adjacent := false }
  | .overfull :: _, _ => .misuse
  | .ambiguous :: _, _ => .misuse

/-- Reads the arguments of a command with a number of words. -/
def readArguments (options : Options) (count : Nat) (args : List String) :
    Reading (List Datum × List Switch) :=
  let arguments := Argument.ofTexts options args
  if arguments.contains .ambiguous then .misuse
  else match take count arguments .start with
    | .help => .help
    | .misuse => .misuse
    | .done t =>
      if t.spare || t.words.length < count then .misuse else .done (t.words, t.switches)

end Lifecycle.Command
