import FlowGraph.Definition.Decode
import FlowGraph.Files.Disk
import FlowGraph.Json.Reader
import FlowGraph.Notice
import FlowGraph.Program.Parse
import FlowGraph.Text.Newlines

/-! Loading graphs from definitions, from programs in the line-oriented notation, and from
files. A receiver gets the graph once it is complete. -/

namespace FlowGraph

/-- How a parser that was handed in fails: on the text, or by itself. -/
inductive ParserFailure where
  | malformed (message : String)
  | badLine (message : String) (line : Option Int)
  | broken (message : String)
  deriving DecidableEq, Repr

abbrev Parser := String → Except ParserFailure Json

inductive Malformed where
  | definition (fault : Definition.Fault)
  | program (error : Program.SyntaxError)
  | parser (failure : ParserFailure)
  | json (error : Json.ReadError) (text : List Char)
  | jsonFile (path : Files.Path) (error : Json.ReadError) (text : List Char)
  deriving DecidableEq, Repr

inductive Unreadable where
  | fault (f : Files.Fault)
  | encoding (f : Text.Utf8.Fault)
  deriving DecidableEq, Repr

/-- A receiver of graphs fails with an error of type `ε`. -/
inductive LoadError (ε : Type) where
  | malformed (cause : Malformed)
  | unreadable (path : Files.Path) (cause : Unreadable)
  | badPath (f : Files.Fault)
  | receiver (error : ε)

/-- What loading did: the notices it gave, the graphs it handed to the receiver, its result. -/
structure Loading (ε : Type) where
  notices : List Notice := []
  received : List Graph := []
  result : Except (LoadError ε) Graph

/-- Answers with an error, or with none if all went well. -/
abbrev Receiver (ε : Type) := Graph → Option ε

def ParserFailure.message : ParserFailure → String
  | .malformed message => message
  | .badLine message none => message
  | .badLine message (some line) => s!"line {line}: {message}"
  | .broken message => s!"FBP parser failed: {message}"

def Malformed.message : Malformed → String
  | .definition fault => fault.message
  | .program error => error.message
  | .parser failure => failure.message
  | .json error text => s!"Invalid JSON: {error.message text}"
  | .jsonFile path error text => s!"{path.text} is not valid JSON: {error.message text}"

def Unreadable.message : Unreadable → String
  | .fault f => f.message
  | .encoding f => f.message

def unreadableMessage (path : Files.Path) (cause : Unreadable) : String :=
  s!"Could not read {path.text}: {cause.message}"

variable {ε : Type}

def failed (error : LoadError ε) : Loading ε where
  result := .error error

/-- A complete graph is announced, then handed to the receiver. -/
def deliver (g : Graph) (receiver : Option (Receiver ε)) : Loading ε :=
  let notices := [.loaded g.name g.sizes]
  match receiver with
  | none => ⟨notices, [], .ok g⟩
  | some r =>
    match r g with
    | none => ⟨notices, [g], .ok g⟩
    | some error => ⟨notices, [g], .error (.receiver error)⟩

def loadDefinition (definition : Json) (receiver : Option (Receiver ε)) : Loading ε :=
  match Definition.decode definition with
  | .ok g => deliver g receiver
  | .error fault => failed (.malformed (.definition fault))

/-- Without a parser the text is read in the line-oriented notation. -/
def definitionOfText (text : String) : Option Parser → Except Malformed Json
  | none =>
    match Program.parse text with
    | .ok program => .ok program.definition
    | .error error => .error (.program error)
  | some parser =>
    match parser text with
    | .ok definition => .ok definition
    | .error failure => .error (.parser failure)

def loadProgram (text : String) (receiver : Option (Receiver ε)) (parser : Option Parser) :
    Loading ε :=
  match definitionOfText text parser with
  | .ok definition => loadDefinition definition receiver
  | .error cause => failed (.malformed cause)

def ofJsonText (text : String) : Except Malformed Graph :=
  match Json.readAll text.toList with
  | .error error => .error (.json error text.toList)
  | .ok definition => (Definition.decode definition).mapError .definition

/-- Only this suffix makes a file a program; all other files hold JSON. -/
def programSuffix : String := ".fbp"

def loadText (path : Files.Path) (text : List Char) (receiver : Option (Receiver ε))
    (parser : Option Parser) : Loading ε :=
  if path.suffix = programSuffix then loadProgram (String.ofList text) receiver parser
  else match Json.readAll text with
    | .ok definition => loadDefinition definition receiver
    | .error error => failed (.malformed (.jsonFile path error text))

def loadContent (path : Files.Path) (content : Except Files.Fault (List UInt8))
    (receiver : Option (Receiver ε)) (parser : Option Parser) : Loading ε :=
  match content with
  | .error f =>
    if f.reason = .nulCharacter then failed (.badPath f)
    else failed (.unreadable path (.fault f))
  | .ok bytes =>
    match Text.Utf8.decode bytes with
    | .error f => failed (.unreadable path (.encoding f))
    | .ok text => loadText path (Text.unifyNewlines text) receiver parser

def loadFile (path : Files.Path) (receiver : Option (Receiver ε)) (parser : Option Parser) :
    Files.Disk (Loading ε) := do
  return loadContent path (← Files.Disk.read path) receiver parser

end FlowGraph
