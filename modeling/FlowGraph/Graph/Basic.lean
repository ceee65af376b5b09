import FlowGraph.Json.Equality

/-! Flow-based programs as graphs: nodes that run components, edges between their ports, and
the initial packets sent to ports. Ids may repeat, and connections may name nodes that are not
there. -/

namespace FlowGraph

structure Endpoint where
  node : String
  port : String
  deriving DecidableEq, Repr

/-- The display data is null where there is none. -/
structure Node where
  id : String
  component : Json
  display : Json := .null
  deriving DecidableEq, Repr

structure Edge where
  source : Endpoint
  target : Endpoint
  deriving DecidableEq, Repr

structure Initializer where
  data : Json
  target : Endpoint
  deriving DecidableEq, Repr

structure Graph where
  name : String := ""
  nodes : List Node := []
  edges : List Edge := []
  initializers : List Initializer := []
  deriving DecidableEq, Repr

/-- What ends at a port: an edge from another port, or an initial packet. -/
inductive Connection where
  | edge (e : Edge)
  | initial (i : Initializer)
  deriving DecidableEq, Repr

def Edge.touches (e : Edge) (p : Endpoint) : Bool :=
  e.source == p || e.target == p

structure Sizes where
  nodes : Nat
  edges : Nat
  initializers : Nat
  deriving DecidableEq, Repr

def Graph.sizes (g : Graph) : Sizes :=
  ⟨g.nodes.length, g.edges.length, g.initializers.length⟩

def Connection.edge? : Connection → Option Edge
  | .edge e => some e
  | .initial _ => none

def Connection.initial? : Connection → Option Initializer
  | .edge _ => none
  | .initial i => some i

end FlowGraph
