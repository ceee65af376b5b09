import FlowGraph.Graph.Basic

/-! A graph as a yUML activity diagram: arrows from the start for the initial packets, then one
arrow for each edge, labelled with the port it leaves. -/

namespace FlowGraph.Yuml

def arrow (source port target : String) : String :=
  s!"({source})[{port}]->({target})"

def ofInitializer (i : Initializer) : String :=
  arrow "start" i.target.port i.target.node

def ofEdge (e : Edge) : String :=
  arrow e.source.node e.source.port e.target.node

def arrows (g : Graph) : List String :=
  g.initializers.map ofInitializer ++ g.edges.map ofEdge

def document (g : Graph) : String :=
  ",".intercalate (arrows g)

end FlowGraph.Yuml
