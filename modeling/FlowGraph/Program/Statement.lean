import FlowGraph.Program.Token
import FlowGraph.Graph.Basic

/-! A statement is a chain: a literal or a node with its outport, then links that each lead to
an inport of a node, with an outport after every node but the last. -/

namespace FlowGraph.Program

/-- The connections of a statement, and the components that it gives to nodes, both in order. -/
structure Statement where
  declared : List (String × String) := []
  connections : List Connection := []
  deriving DecidableEq, Repr

inductive Source where
  | literal (data : String)
  | port (e : Endpoint)
  deriving DecidableEq, Repr

/-- The tokens before the first arrow, and those after each arrow. -/
def segments : List Located → List Located × List (List Located)
  | [] => ([], [])
  | t :: rest =>
    let (first, others) := segments rest
    if t.token = .arrow then ([], first :: others) else (t :: first, others)

def readNode (t : Located) : Except SyntaxError (String × List (String × String)) :=
  match t.token with
  | .word id => .ok (id, [])
  | .node id component => .ok (id, if component = "" then [] else [(id, component)])
  | other => .error ⟨.notNode other.text, t.line⟩

def readPort (t : Located) : Except SyntaxError String :=
  match t.token with
  | .word port => .ok port
  | other => .error ⟨.notPort other.text, t.line⟩

def readStart (line : Nat) (segment : List Located) :
    Except SyntaxError (Source × List (String × String)) :=
  match segment with
  | [t] =>
    match t.token with
    | .literal data => .ok (.literal data, [])
    | _ => .error ⟨.badStart, line⟩
  | [n, p] => do
    let (id, declared) ← readNode n
    return (.port ⟨id, ← readPort p⟩, declared)
  | _ => .error ⟨.badStart, line⟩

def Source.connect (source : Source) (target : Endpoint) : Connection :=
  match source with
  | .literal data => .initial ⟨.string data, target⟩
  | .port e => .edge ⟨e, target⟩

def readLinks (line : Nat) (source : Source) : List (List Located) →
    Except SyntaxError Statement
  | [] => .ok {}
  | [[p, n]] => do
    let (id, declared) ← readNode n
    return ⟨declared, [source.connect ⟨id, ← readPort p⟩]⟩
  | [_] => .error ⟨.badLink true, line⟩
  | [p, n, q] :: rest => do
    let (id, declared) ← readNode n
    let target : Endpoint := ⟨id, ← readPort p⟩
    let after ← readLinks line (.port ⟨id, ← readPort q⟩) rest
    return ⟨declared ++ after.declared, source.connect target :: after.connections⟩
  | _ :: _ => .error ⟨.badLink false, line⟩

/-- Faults of the whole statement are reported on the line on which it starts. -/
def readStatement (tokens : List Located) : Except SyntaxError Statement :=
  let line := tokens.head?.elim 1 (·.line)
  match segments tokens with
  | (_, []) => .error ⟨.noConnection, line⟩
  | (first, links) => do
    let (source, declared) ← readStart line first
    let chain ← readLinks line source links
    return ⟨declared ++ chain.declared, chain.connections⟩

end FlowGraph.Program
