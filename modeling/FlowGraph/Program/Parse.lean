import FlowGraph.Program.Statement
import FlowGraph.Definition.Encode

/-! Programs in the line-oriented notation, and the definitions they stand for. -/

namespace FlowGraph

/-- A process has the component that was given to it first. -/
structure Program where
  name : String
  processes : List (String × String)
  connections : List Connection
  deriving DecidableEq, Repr

namespace Program

def defaultName : String := "main"

def declare (processes : List (String × String)) (declared : List (String × String)) :
    List (String × String) :=
  declared.foldl
    (fun known (id, component) =>
      if known.any (·.1 == id) then known else known ++ [(id, component)])
    processes

/-- Statements are joined in order; every connection is kept. -/
def ofStatements (name : String) (statements : List Statement) : Program where
  name := name
  processes := declare [] (statements.flatMap (·.declared))
  connections := statements.flatMap (·.connections)

def parse (text : String) (name : String := defaultName) : Except SyntaxError Program := do
  let statements ← tokenize text.toList
  return ofStatements name (← statements.mapM readStatement)

def definition (p : Program) : Json :=
  Definition.layout p.name
    (p.processes.map fun (id, component) => (id, .object [("component", .string component)]))
    (p.connections.map Definition.ofConnection)

end Program

end FlowGraph
