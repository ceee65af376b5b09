import FlowGraph.Export
import FlowGraph.Text.Quoted

/-! The flags of the command line, and what can be wrong with their use. -/

namespace FlowGraph.CommandLine

inductive Flag where
  | help
  | output
  | format
  | list
  | verbose
  deriving DecidableEq, Repr

def Flag.all : List Flag := [.help, .output, .format, .list, .verbose]

def Flag.letter : Flag → Char
  | .help => 'h'
  | .output => 'o'
  | .format => 'f'
  | .list => 'l'
  | .verbose => 'v'

def Flag.word : Flag → String
  | .help => "help"
  | .output => "output"
  | .format => "format"
  | .list => "list"
  | .verbose => "verbose"

def Flag.takesValue : Flag → Bool
  | .output | .format => true
  | .help | .list | .verbose => false

def Flag.spellings (f : Flag) : String :=
  s!"-{f.letter}/--{f.word}"

def Flag.ofLetter? (c : Char) : Option Flag :=
  Flag.all.find? (·.letter == c)

def Flag.ofWord? (s : List Char) : Option Flag :=
  Flag.all.find? (·.word.toList == s)

inductive UsageError where
  | ambiguous (word : String) (candidates : List Flag)
  | noValue (f : Flag)
  | unwantedValue (f : Flag) (value : String)
  | unknownFormat (value : String)
  | noInput
  | unrecognized (words : List String)
  deriving DecidableEq, Repr

def UsageError.message : UsageError → String
  | .ambiguous word candidates =>
    let known := ", ".intercalate (candidates.map fun f => "--" ++ f.word)
    s!"ambiguous option: {word} could match {known}"
  | .noValue f => s!"argument {f.spellings}: expected one argument"
  | .unwantedValue f value =>
    s!"argument {f.spellings}: ignored explicit argument {Text.quoted value}"
  | .unknownFormat value =>
    let known := ", ".intercalate (Format.all.map fun f => Text.quoted f.name)
    s!"argument {Flag.format.spellings}: invalid choice: {Text.quoted value} (choose from {known})"
  | .noInput => "the following arguments are required: input"
  | .unrecognized words =>
    let found := " ".intercalate words
    s!"unrecognized arguments: {found}"

end FlowGraph.CommandLine
