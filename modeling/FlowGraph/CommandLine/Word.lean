import FlowGraph.CommandLine.Flag
import FlowGraph.Text.DecimalDigit

/-! Words of the command line, each taken for an option or an argument. -/

namespace FlowGraph.CommandLine

/-- A flag as it was found in a word, with the value that stands in the same word: after an
equals sign, or right after the letter of a short flag. -/
structure Found where
  flag : Flag
  short : Bool
  value : Option (List Char) := none
  deriving DecidableEq, Repr

inductive Slot where
  | argument
  | dashes
  | option (found : Found)
  | unknown
  deriving DecidableEq, Repr

/-- The text before the first equals sign, and the text after it, if there is one. -/
def splitEquals (s : List Char) : List Char × Option (List Char) :=
  (s.takeWhile (· ≠ '='), ((s.dropWhile (· ≠ '=')).tail?))

/-- Digits with at most one point before the last of them, and perhaps a line feed after. -/
def isNegativeNumber : List Char → Bool
  | '-' :: rest =>
    let s := if rest.getLast? = some '\n' then rest.dropLast else rest
    match s.dropWhile Text.isDecimalDigit with
    | [] => s ≠ []
    | '.' :: fraction => fraction ≠ [] && fraction.all Text.isDecimalDigit
    | _ => false
  | _ => false

/-- A word that starts with a hyphen but names no flag. -/
def otherWord (s : List Char) : Slot :=
  if isNegativeNumber s || s.contains ' ' then .argument else .unknown

/-- A long flag may be cut short as long as it stays the only one. -/
def classifyLong (word rest : List Char) : Except UsageError Slot :=
  let (start, value) := splitEquals rest
  match Flag.ofWord? rest, Flag.ofWord? start with
  | some f, _ => .ok (.option ⟨f, false, none⟩)
  | none, some f => .ok (.option ⟨f, false, value⟩)
  | none, none =>
    match Flag.all.filter fun f => start.isPrefixOf f.word.toList with
    | [] => .ok (otherWord word)
    | [f] => .ok (.option ⟨f, false, value⟩)
    | candidates => .error (.ambiguous (String.ofList word) candidates)

def classify (word : String) : Except UsageError Slot :=
  match word.toList with
  | '-' :: '-' :: rest => classifyLong word.toList rest
  | ['-'] => .ok .argument
  | '-' :: c :: rest =>
    match Flag.ofLetter? c with
    | some f =>
      .ok (.option (match rest with
        | [] => ⟨f, true, none⟩
        | '=' :: value => ⟨f, true, some value⟩
        | value => ⟨f, true, some value⟩))
    | none => .ok (otherWord word.toList)
  | _ => .ok .argument

/-- After two dashes that stand alone, every word is an argument. -/
def classifyAll : List String → Except UsageError (List (String × Slot))
  | [] => .ok []
  | word :: rest =>
    if word = "--" then .ok ((word, .dashes) :: rest.map (·, .argument))
    else do
      let slot ← classify word
      return (word, slot) :: (← classifyAll rest)

/-- The flags in one word: those without a value, perhaps one with its value, perhaps one whose
value is the next word. -/
structure Cluster where
  plain : List Flag := []
  valued : Option (Flag × String) := none
  waiting : Option Flag := none
  deriving DecidableEq, Repr

def Cluster.push (f : Flag) (c : Cluster) : Cluster :=
  { c with plain := f :: c.plain }

/-- Takes a value that stands in the word of its flag. What follows a short flag that takes none
must be further short flags, of which the last may have a value. -/
def expand (f : Flag) (short : Bool) (value : List Char) : Except UsageError Cluster :=
  if f.takesValue then .ok { valued := some (f, String.ofList value) }
  else
    match value with
    | [] => .error (.unwantedValue f "")
    | c :: rest =>
      match if short then Flag.ofLetter? c else none with
      | none => .error (.unwantedValue f (String.ofList value))
      | some g =>
        match rest with
        | [] =>
          if g.takesValue then .ok { plain := [f], waiting := some g }
          else .ok { plain := [f, g] }
        | d :: inner => (expand g true (d :: inner)).map (·.push f)

def Found.cluster (found : Found) : Except UsageError Cluster :=
  match found.value with
  | some value => expand found.flag found.short value
  | none =>
    if found.flag.takesValue then .ok { waiting := some found.flag }
    else .ok { plain := [found.flag] }

end FlowGraph.CommandLine
