import FlowGraph.CommandLine.Settings
import FlowGraph.Load

/-! The command: load a graph from a file, then list what it holds or export it. -/

namespace FlowGraph.CommandLine

/-- What the command does not handle. -/
inductive Unhandled where
  | fault (f : Files.Fault)
  | noDirectory
  deriving DecidableEq, Repr

def Unhandled.message : Unhandled → String
  | .fault f => f.message
  | .noDirectory => "'list' object has no attribute 'mkdir'"

/-- What the command printed on its two outputs, and how it ended: with an exit status, or with
something that it does not handle. -/
structure Finish where
  output : String := ""
  errors : String := ""
  ending : Except Unhandled Nat

def usage : String :=
  "usage: fbpgraph [-h] [-o OUTPUT] [-f \x7bjson,dot,yuml,png,svg\x7d] [-l] [-v] input\n"

def help : String :=
  usage ++ "\n".intercalate [
    "",
    "Convert flow-based program graphs between formats.",
    "",
    "positional arguments:",
    "  input                 Graph definition (.fbp or .json)",
    "",
    "options:",
    "  -h, --help            show this help message and exit",
    "  -o OUTPUT, --output OUTPUT",
    "                        Output directory (default: current directory)",
    "  -f \x7bjson,dot,yuml,png,svg\x7d, --format \x7bjson,dot,yuml,png,svg\x7d",
    "                        Output format (default: json)",
    "  -l, --list            Summarize the graph without exporting",
    "  -v, --verbose         Verbose output",
    "",
    "Example: fbpgraph ./examples/hello.fbp -o ./build/ -f dot",
    ""]

def report (s : Settings) (notices : List Notice) : String :=
  if s.verbose then String.join (notices.map fun n => n.line ++ "\n") else ""

def loadMessage : LoadError Empty → String
  | .malformed cause => cause.message
  | .unreadable path cause => unreadableMessage path cause
  | .badPath fault => fault.message

def summary (path : Files.Path) (g : Graph) : String :=
  s!"Graph in {path.text}:\n  \"{g.name}\" ({g.sizes.describe})\n"

def exportTo (directory : Files.Path) (s : Settings) (source : Files.Path) (g : Graph)
    (log : String) : Files.Disk Finish := do
  match ← Files.makeDirectories directory.parts.length directory with
  | .error fault => return { errors := log, ending := .error (.fault fault) }
  | .ok () =>
    let exporting ← match s.format with
      | some format => exportGraph g directory format.name
      | none => pure { result := .error .noFormat }
    let log := log ++ report s exporting.notices
    match exporting.result with
    | .error error =>
      let line := s!"Error exporting {source.text}: {error.message}\n"
      return { errors := log ++ line, ending := .ok 1 }
    | .ok path =>
      let line := if s.verbose then s!"Exported '{g.name}' -> {path.text}\n" else path.text ++ "\n"
      return { output := line, errors := log, ending := .ok 0 }

def exportLoaded (s : Settings) (source : Files.Path) (g : Graph) (log : String) :
    Files.Disk Finish :=
  match s.output with
  | some directory => exportTo (Files.Path.ofString directory) s source g log
  | none => return { errors := log, ending := .error .noDirectory }

def runSettings (s : Settings) : Files.Disk Finish := do
  let source := Files.Path.ofString s.input
  match ← Files.Disk.status source with
  | .error fault => return { ending := .error (.fault fault) }
  | .ok (some .file) =>
    let loading ← loadFile (ε := Empty) source none none
    let log := report s loading.notices
    match loading.result with
    | .error error =>
      return { errors := log ++ s!"Error loading file: {loadMessage error}\n", ending := .ok 1 }
    | .ok g =>
      if s.list then return { output := summary source g, errors := log, ending := .ok 0 }
      else exportLoaded s source g log
  | .ok _ => return { errors := s!"Error: File not found: {source.text}\n", ending := .ok 1 }

def run (words : List String) : Files.Disk Finish :=
  match parse words with
  | .error .help => return { output := help, ending := .ok 0 }
  | .error (.refused error) =>
    return { errors := usage ++ s!"fbpgraph: error: {error.message}\n", ending := .ok 2 }
  | .ok settings => runSettings settings

end FlowGraph.CommandLine
