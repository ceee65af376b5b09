import FlowGraph.Graph.Basic
import FlowGraph.Text.Lowercase

/-! Reading the interchange layout. The parts are checked in a fixed order, and the first fault
is the one that is reported. Ports are read in lower case. -/

namespace FlowGraph.Definition

inductive Side where
  | source
  | target
  deriving DecidableEq, Repr

inductive ConnectionFault where
  | notObject
  | missing (side : Side)
  | incomplete (side : Side)
  deriving DecidableEq, Repr

inductive Fault where
  | notObject (kind : String)
  | properties
  | name (kind : String)
  | processes
  | noComponent (id : String)
  | connections
  | connection (index : Nat) (fault : ConnectionFault)
  deriving DecidableEq, Repr

def Side.key : Side → String
  | .source => "src"
  | .target => "tgt"

def ConnectionFault.message (index : Nat) : ConnectionFault → String
  | .notObject => s!"Connection {index} must be an object"
  | .missing side => s!"Connection {index} is missing '{side.key}'"
  | .incomplete side => s!"Connection {index} '{side.key}' needs a process and a port"

def Fault.message : Fault → String
  | .notObject kind => s!"Graph definition must be an object, got {kind}"
  | .properties => "'properties' must be an object"
  | .name kind => s!"Graph name must be a string, got {kind}"
  | .processes => "'processes' must be an object mapping ids to processes"
  | .noComponent id => s!"Process '{id}' has no component"
  | .connections => "'connections' must be a list"
  | .connection index fault => fault.message index

abbrev Fields := List (String × Json)

/-- Void properties count as none. -/
def readName (fields : Fields) : Except Fault String :=
  let properties := (Json.lookup "properties" fields).getD .null
  if properties.isVoid then .ok ""
  else match properties with
    | .object inner =>
      match Json.lookup "name" inner with
      | none => .ok ""
      | some (.string name) => .ok name
      | some other => .error (.name other.kind)
    | _ => .error .properties

def readNode (id : String) (process : Json) : Except Fault Node :=
  match process with
  | .object inner =>
    match Json.lookup "component" inner with
    | some component => .ok ⟨id, component, (Json.lookup "display" inner).getD .null⟩
    | none => .error (.noComponent id)
  | _ => .error (.noComponent id)

def readNodes (fields : Fields) : Except Fault (List Node) :=
  match Json.lookup "processes" fields with
  | none => .ok []
  | some (.object processes) => processes.mapM fun field => readNode field.1 field.2
  | some _ => .error .processes

def readEnd (side : Side) (fields : Fields) : Except ConnectionFault Endpoint :=
  match Json.lookup side.key fields with
  | some (.object inner) =>
    match Json.lookup "process" inner, Json.lookup "port" inner with
    | some (.string node), some (.string port) => .ok ⟨node, Text.lowercase port⟩
    | _, _ => .error (.incomplete side)
  | _ => .error (.missing side)

/-- A connection with data is an initial packet, whatever else it holds. -/
def readConnection (connection : Json) : Except ConnectionFault Connection :=
  match connection with
  | .object fields =>
    match Json.lookup "data" fields with
    | some data => do return .initial ⟨data, ← readEnd .target fields⟩
    | none => do
      let source ← readEnd .source fields
      return .edge ⟨source, ← readEnd .target fields⟩
  | _ => .error .notObject

def readFrom (index : Nat) : List Json → Except Fault (List Connection)
  | [] => .ok []
  | connection :: rest =>
    match readConnection connection with
    | .ok c => do return c :: (← readFrom (index + 1) rest)
    | .error fault => .error (.connection index fault)

def readConnections (fields : Fields) : Except Fault (List Connection) :=
  match Json.lookup "connections" fields with
  | none => .ok []
  | some (.array connections) => readFrom 0 connections
  | some _ => .error .connections

def decode (definition : Json) : Except Fault Graph :=
  match definition with
  | .object fields => do
    let name ← readName fields
    let nodes ← readNodes fields
    let connections ← readConnections fields
    return ⟨name, nodes, connections.filterMap (·.edge?), connections.filterMap (·.initial?)⟩
  | other => .error (.notObject other.kind)

end FlowGraph.Definition
