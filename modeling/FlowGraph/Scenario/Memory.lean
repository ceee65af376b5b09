import FlowGraph.Scenario.Step

/-! What the listeners of a scenario remember. -/

namespace FlowGraph.Scenario

open Live

structure Sighting where
  listener : String
  entity : Entity
  present : Bool
  sizes : Sizes

/-- Everything that outlives a step: the reactions by name, the calls by name, the sightings of
this step, the newest first, display data by tag, the newest first, and the graph that has taken
the place of the one being edited. -/
structure Memory where
  reactions : List (String × Reaction) := []
  calls : List String := []
  sightings : List Sighting := []
  displays : List (Nat × Json) := []
  newer : Option (LiveGraph String) := none

namespace Memory

def callsOf (m : Memory) (listener : String) : Nat :=
  m.calls.count listener

def reaction? (m : Memory) (listener : String) : Option Reaction :=
  (m.reactions.find? (·.1 == listener)).map (·.2)

/-- Only the first reaction under a name counts. -/
def introduce (m : Memory) (listener : String) (reaction : Reaction) : Memory :=
  if (m.reaction? listener).isSome then m
  else { m with reactions := m.reactions ++ [(listener, reaction)] }

/-- The entity as it is now. A node that was removed keeps the display data set last. -/
def current (m : Memory) : Entity → Entity
  | .node n =>
    match m.displays.find? (·.1 == n.tag) with
    | some (_, display) => .node ⟨n.tag, { n.value with display }⟩
    | none => .node n
  | x => x

/-- Counts a call and notes what the listener saw. -/
def witness (m : Memory) (listener : String) (x : Entity) (g : LiveGraph String) : Memory :=
  { m with
    calls := listener :: m.calls
    sightings := ⟨listener, m.current x, g.holds x, g.graph.sizes⟩ :: m.sightings }

end Memory

end FlowGraph.Scenario
