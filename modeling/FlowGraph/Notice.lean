import FlowGraph.Files.Path
import FlowGraph.Graph.Description

/-! What is reported while graphs are loaded, saved and edited. -/

namespace FlowGraph

inductive Notice where
  | loaded (name : String) (sizes : Sizes)
  | saved (name : String) (path : Files.Path)
  | repeatedId (graph id : String)
  deriving DecidableEq, Repr

def Notice.line : Notice → String
  | .loaded name sizes =>
    s!"INFO fbpgraph.frontend.loader: Loaded graph '{name}' ({sizes.describe})"
  | .saved name path => s!"INFO fbpgraph.core.storage: Saved graph '{name}' to {path.text}"
  | .repeatedId graph id =>
    s!"WARNING fbpgraph.core.ir: Graph '{graph}' already has a node '{id}'; lookups return " ++
      "the first one"

end FlowGraph
