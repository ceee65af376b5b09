import FlowGraph.Live.Basic

/-! Scenarios: steps on a graph, with listeners whose reactions are steps themselves. -/

namespace FlowGraph.Scenario

mutual

inductive Step where
  | addNode (n : Node)
  | findNode (id : String)
  | removeNode (id : String)
  | addEdge (e : Edge)
  | removeEdge (p : Endpoint)
  | addInitial (i : Initializer)
  | subscribe (event listener : String) (reaction : Reaction)
  | unsubscribe (event listener : String) (reaction : Reaction)
  | rename (name : String)
  | setDisplay (id : String) (display : Json)
  | size
  | describe
  | definition
  | dot
  | yuml
  | reload

/-- The first `limit` calls perform the steps. The failure comes after them: at one call, or at
every one. -/
inductive Reaction where
  | mk (limit : Int) (steps : List Step) (failure : Option (String × Option Int))

end

instance : Inhabited Step := ⟨.reload⟩

def Reaction.limit : Reaction → Int
  | .mk limit _ _ => limit

def Reaction.steps : Reaction → List Step
  | .mk _ steps _ => steps

def Reaction.failure : Reaction → Option (String × Option Int)
  | .mk _ _ failure => failure

mutual

/-- A bound on the calls that perform steps: the limits of all reactions together. -/
def Step.activity : Step → Nat
  | .subscribe _ _ reaction => reaction.activity
  | .unsubscribe _ _ reaction => reaction.activity
  | _ => 0

def Reaction.activity : Reaction → Nat
  | .mk limit steps _ => limit.toNat + stepsActivity steps

def stepsActivity : List Step → Nat
  | [] => 0
  | step :: rest => step.activity + stepsActivity rest

end

end FlowGraph.Scenario
