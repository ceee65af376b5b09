import FlowGraph.Graph.Basic

/-! Graphs that are being edited. Every entity has a tag of its own, so two that look alike are
told apart, and listeners are subscribed to the events of the graph. -/

namespace FlowGraph

namespace Live

structure Tagged (α : Type) where
  tag : Nat
  value : α
  deriving DecidableEq, Repr

/-- Initial packets are announced as edges. -/
inductive Event where
  | addNode
  | removeNode
  | addEdge
  | removeEdge
  deriving DecidableEq, Repr

inductive Entity where
  | node (n : Tagged Node)
  | edge (e : Tagged Edge)
  | initializer (i : Tagged Initializer)
  deriving DecidableEq, Repr

def Event.all : List Event := [.addNode, .removeNode, .addEdge, .removeEdge]

def Event.name : Event → String
  | .addNode => "addNode"
  | .removeNode => "removeNode"
  | .addEdge => "addEdge"
  | .removeEdge => "removeEdge"

def Event.ofName? (name : String) : Option Event :=
  Event.all.find? (·.name == name)

/-- Whether two entities are one and the same, whatever they look like. -/
def Entity.is : Entity → Entity → Bool
  | .node m, .node n => m.tag == n.tag
  | .edge d, .edge e => d.tag == e.tag
  | .initializer i, .initializer j => i.tag == j.tag
  | _, _ => false

def Entity.among (x : Entity) (xs : List Entity) : Bool :=
  xs.any (·.is x)

end Live

open Live

/-- `fresh` is a tag that has not been given out, nor has any after it. -/
structure LiveGraph (L : Type) where
  name : String := ""
  nodes : List (Tagged Node) := []
  edges : List (Tagged Edge) := []
  initializers : List (Tagged Initializer) := []
  subscriptions : List (Event × L) := []
  fresh : Nat := 0
  deriving DecidableEq, Repr

namespace LiveGraph

variable {L : Type}

def graph (g : LiveGraph L) : Graph where
  name := g.name
  nodes := g.nodes.map (·.value)
  edges := g.edges.map (·.value)
  initializers := g.initializers.map (·.value)

def tagFrom {α : Type} (fresh : Nat) (values : List α) : List (Tagged α) :=
  values.mapIdx fun index value => ⟨fresh + index, value⟩

def ofGraph (g : Graph) (fresh : Nat := 0) : LiveGraph L where
  name := g.name
  nodes := tagFrom fresh g.nodes
  edges := tagFrom (fresh + g.nodes.length) g.edges
  initializers := tagFrom (fresh + g.nodes.length + g.edges.length) g.initializers
  fresh := fresh + g.nodes.length + g.edges.length + g.initializers.length

def find? (g : LiveGraph L) (id : String) : Option (Tagged Node) :=
  g.nodes.find? (·.value.id == id)

def entities (g : LiveGraph L) : List Entity :=
  g.nodes.map .node ++ g.edges.map .edge ++ g.initializers.map .initializer

/-- Whether this very entity is in the graph. -/
def holds (g : LiveGraph L) (x : Entity) : Bool :=
  x.among g.entities

/-- The listeners of an event, in the order of their subscriptions. -/
def listeners (g : LiveGraph L) (event : Event) : List L :=
  (g.subscriptions.filter (·.1 == event)).map (·.2)

def subscribe (g : LiveGraph L) (event : Event) (listener : L) : LiveGraph L :=
  { g with subscriptions := g.subscriptions ++ [(event, listener)] }

def unsubscribe [DecidableEq L] (g : LiveGraph L) (event : Event) (listener : L) : LiveGraph L :=
  { g with subscriptions := g.subscriptions.filter (· ≠ (event, listener)) }

def pushNode (g : LiveGraph L) (n : Node) : LiveGraph L :=
  { g with nodes := g.nodes ++ [⟨g.fresh, n⟩], fresh := g.fresh + 1 }

def pushEdge (g : LiveGraph L) (e : Edge) : LiveGraph L :=
  { g with edges := g.edges ++ [⟨g.fresh, e⟩], fresh := g.fresh + 1 }

def pushInitializer (g : LiveGraph L) (i : Initializer) : LiveGraph L :=
  { g with initializers := g.initializers ++ [⟨g.fresh, i⟩], fresh := g.fresh + 1 }

def edgesAt (g : LiveGraph L) (p : Endpoint) : List (Tagged Edge) :=
  g.edges.filter (·.value.touches p)

def initializersAt (g : LiveGraph L) (p : Endpoint) : List (Tagged Initializer) :=
  g.initializers.filter (·.value.target == p)

/-- What a removal at an endpoint takes: the edges there, then the packets sent to it. -/
def entitiesAt (g : LiveGraph L) (p : Endpoint) : List Entity :=
  (g.edgesAt p).map .edge ++ (g.initializersAt p).map .initializer

/-- The graph without some entities, which are known by their tags. -/
def drop (g : LiveGraph L) (xs : List Entity) : LiveGraph L :=
  { g with
    nodes := g.nodes.filter fun n => !(Entity.node n).among xs
    edges := g.edges.filter fun e => !(Entity.edge e).among xs
    initializers := g.initializers.filter fun i => !(Entity.initializer i).among xs }

def setDisplay (g : LiveGraph L) (id : String) (display : Json) : LiveGraph L :=
  match g.find? id with
  | none => g
  | some found =>
    { g with nodes := g.nodes.map fun n =>
        if n.tag = found.tag then ⟨n.tag, { n.value with display }⟩ else n }

end LiveGraph

end FlowGraph
