import FlowGraph.Dot.Identifier
import FlowGraph.Graph.Basic
import FlowGraph.Text.Blank

/-! A graph as a DOT document: a box for every node, an edge from a node of its own for every
initial packet, then the edges. Edges carry the name of the port they leave or, for a packet,
enter. -/

namespace FlowGraph.Dot

inductive Statement where
  | node (id : String)
  | edge (tail head label : String)
  deriving DecidableEq, Repr

/-- Node ids lose all white space. -/
def nodeId (id : String) : String :=
  String.ofList (id.toList.filter (!Text.isBlank ·))

/-- Ports lose their dots. -/
def portLabel (port : String) : String :=
  String.ofList (port.toList.filter (· ≠ '.'))

def dataNode (index : Nat) : String :=
  s!"data{index}"

def ofInitializer (index : Nat) (i : Initializer) : Statement :=
  .edge (dataNode index) (nodeId i.target.node) (portLabel i.target.port)

def ofEdge (e : Edge) : Statement :=
  .edge (nodeId e.source.node) (nodeId e.target.node) (portLabel e.source.port)

def statements (g : Graph) : List Statement :=
  g.nodes.map (fun n => .node (nodeId n.id)) ++ g.initializers.mapIdx ofInitializer ++
    g.edges.map ofEdge

def Statement.text : Statement → List Char
  | .node id => '\t' :: identifier id.toList ++ " [shape=box]\n".toList
  | .edge tail head label =>
    '\t' :: identifier tail.toList ++ " -> ".toList ++ identifier head.toList ++
      " [label=".toList ++ identifier label.toList ++ "]\n".toList

def comment (name : String) : List Char :=
  if name = "" then [] else "// ".toList ++ name.toList ++ ['\n']

def document (g : Graph) : String :=
  String.ofList (comment g.name ++ "digraph \x7b\n".toList ++
    (statements g).flatMap Statement.text ++ "\x7d\n".toList)

end FlowGraph.Dot
