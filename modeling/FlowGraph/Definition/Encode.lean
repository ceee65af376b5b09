import FlowGraph.Graph.Basic

/-! The interchange layout: an object with the properties, the processes by id and the list of
connections, edges before initializers. -/

namespace FlowGraph.Definition

def ofEndpoint (e : Endpoint) : Json :=
  .object [("process", .string e.node), ("port", .string e.port)]

def ofNode (n : Node) : Json :=
  match n.display with
  | .null => .object [("component", n.component)]
  | display => .object [("component", n.component), ("display", display)]

def ofEdge (e : Edge) : Json :=
  .object [("src", ofEndpoint e.source), ("tgt", ofEndpoint e.target)]

def ofInitializer (i : Initializer) : Json :=
  .object [("data", i.data), ("tgt", ofEndpoint i.target)]

def ofConnection : Connection → Json
  | .edge e => ofEdge e
  | .initial i => ofInitializer i

/-- Nodes by id. Of several nodes with one id the last stands at the place of the first. -/
def processes (nodes : List Node) : List (String × Json) :=
  nodes.foldl (fun fields n => Json.put n.id (ofNode n) fields) []

def layout (name : String) (processes : List (String × Json)) (connections : List Json) : Json :=
  .object [("properties", .object [("name", .string name)]), ("processes", .object processes),
    ("connections", .array connections)]

def encode (g : Graph) : Json :=
  layout g.name (processes g.nodes) (g.edges.map ofEdge ++ g.initializers.map ofInitializer)

end FlowGraph.Definition
