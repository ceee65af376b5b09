import FlowGraph.Graph.Basic
import FlowGraph.Json.Literal

/-! One-line descriptions of graphs and what they hold. -/

namespace FlowGraph

def Sizes.describe (s : Sizes) : String :=
  s!"{s.nodes} nodes, {s.edges} edges, {s.initializers} initializers"

def Graph.describe (g : Graph) : String :=
  s!"<Graph name='{g.name}' nodes={g.nodes.length} edges={g.edges.length} " ++
    s!"initializers={g.initializers.length}>"

def Endpoint.describe (e : Endpoint) : String :=
  s!"{e.node}.{e.port}"

def Node.describe (n : Node) : String :=
  s!"<Node id={n.id} component='{n.component.display}'>"

def Edge.describe (e : Edge) : String :=
  s!"<Edge {e.source.describe} -> {e.target.describe}>"

def Initializer.describe (i : Initializer) : String :=
  s!"<Initializer {String.ofList i.data.literal} -> {i.target.describe}>"

def Graph.descriptions (g : Graph) : List String :=
  g.describe :: g.nodes.map Node.describe ++ g.edges.map Edge.describe ++
    g.initializers.map Initializer.describe

end FlowGraph
