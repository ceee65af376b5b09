import FlowGraph.Dot.Document
import FlowGraph.Files.Directories
import FlowGraph.Save
import FlowGraph.Text.Alphanumeric
import FlowGraph.Text.Lowercase
import FlowGraph.Yuml

/-! Exporting a graph to a directory, under a file name made from its name. -/

namespace FlowGraph

inductive Format where
  | json
  | dot
  | yuml
  | png
  | svg
  deriving DecidableEq, Repr

def Format.all : List Format := [.json, .dot, .yuml, .png, .svg]

def Format.name : Format → String
  | .json => "json"
  | .dot => "dot"
  | .yuml => "yuml"
  | .png => "png"
  | .svg => "svg"

def Format.ofName? (name : String) : Option Format :=
  Format.all.find? (·.name == name)

def fallbackName : String := "graph"

def underscore (c : Char) : Char :=
  if c = ' ' ∨ c = '/' then '_' else c

/-- The lower case of the name, reduced to the characters of words. -/
def fileName (name : String) : String :=
  let lowered := Text.lowercase (if name = "" then fallbackName else name)
  let safe := (lowered.toList.map underscore).filter Text.isWord
  if safe = [] then fallbackName else String.ofList safe

inductive ExportError where
  | save (error : SaveError Empty)
  | file (fault : Files.Fault)
  | noRenderer
  | noFormat
  | unknownFormat (name : String)

structure Exporting where
  notices : List Notice := []
  result : Except ExportError Files.Path

def SaveError.message : SaveError Empty → String
  | .unwritable target fault => s!"Could not write {target.text}: {fault.message}"
  | .badPath fault => fault.message

def ExportError.message : ExportError → String
  | .save error => error.message
  | .file fault => fault.message
  | .noRenderer =>
    "failed to execute PosixPath('dot'), make sure the Graphviz executables are on your " ++
      "systems' PATH"
  | .noFormat => "unhashable type: 'list'"
  | .unknownFormat name =>
    let known := ", ".intercalate (Format.all.map Format.name)
    s!"Unknown format: {name}. Use: {known}"

/-- Writes a text next to other exports, under the base name with a suffix. -/
def writeText (target : Files.Path) (text : String) : Files.Disk Exporting := do
  match ← Files.Disk.write target (Text.Utf8.encode text.toList) with
  | .ok () => return { result := .ok target }
  | .error fault => return { result := .error (.file fault) }

/-- Makes the missing directories and writes the DOT document under the base name. Then the
renderer would run on it; there is none, and the document stays. -/
def render (base : Files.Path) (g : Graph) : Files.Disk Exporting := do
  let parent := base.parent
  let made ← if parent = {} then pure (.ok ()) else
    Files.makeFromTop parent.parts.length parent
  match made with
  | .error fault => return { result := .error (.file fault) }
  | .ok () =>
    match ← Files.Disk.write base (Text.Utf8.encode (Dot.document g).toList) with
    | .error fault => return { result := .error (.file fault) }
    | .ok () => return { result := .error .noRenderer }

def exportGraph (g : Graph) (directory : Files.Path) (format : String) :
    Files.Disk Exporting := do
  let stem := fileName g.name
  let base := directory.child stem
  match Format.ofName? format with
  | some .json =>
    let saving ← save (ε := Empty) g base.text none
    return ⟨saving.notices, saving.result.mapError .save⟩
  | some .dot => writeText (directory.child (stem ++ ".dot")) (Dot.document g)
  | some .yuml => writeText (directory.child (stem ++ ".yuml")) (Yuml.document g)
  | some .png | some .svg => render base g
  | none => return { result := .error (.unknownFormat format) }

end FlowGraph
