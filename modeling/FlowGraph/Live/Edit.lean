import FlowGraph.Live.Script

/-! Editing a live graph. An edit calls the listeners of its event before it returns: those that
were subscribed when the event began, in the order of their subscriptions. Listeners of a
removal get the entity while it is still in the graph. -/

namespace FlowGraph.Live

variable {L σ ε : Type}

section

variable (behaviour : Behaviour L σ ε) (level : Nat)
  (inner : Command L → Action L σ ε Reply)

def call (event : Event) (x : Entity) (listener : L) : Action L σ ε Unit := do
  Action.record (.call level ⟨event, listener, x, ← Action.live⟩)
  fun s =>
    match (behaviour listener x s.live s.memory).run inner s with
    | (.raised error, s) =>
      (.raised error, { s with journal := .failed level listener :: s.journal })
    | finished => finished

def emit (event : Event) (x : Entity) : Action L σ ε Unit := do
  ((← Action.live).listeners event).forM (call behaviour level inner event x)

/-- Puts an entity into the graph, then announces it. -/
def enter (event : Event) (x : Entity) (push : LiveGraph L → LiveGraph L) :
    Action L σ ε Reply := do
  Action.modify push
  emit behaviour level inner event x
  return some x

/-- A node whose id is taken is added all the same. -/
def addNode (n : Node) : Action L σ ε Reply := do
  let g ← Action.live
  if (g.find? n.id).isSome then Action.record (.notice (.repeatedId g.name n.id))
  enter behaviour level inner .addNode (.node ⟨g.fresh, n⟩) (·.pushNode n)

def addEdge (e : Edge) : Action L σ ε Reply := do
  enter behaviour level inner .addEdge (.edge ⟨(← Action.live).fresh, e⟩) (·.pushEdge e)

def addInitial (i : Initializer) : Action L σ ε Reply := do
  enter behaviour level inner .addEdge (.initializer ⟨(← Action.live).fresh, i⟩)
    (·.pushInitializer i)

/-- Announces what is to go, and takes it out all at once after the last announcement. -/
def dismiss (event : Event) (xs : List Entity) : Action L σ ε Unit := do
  xs.forM (emit behaviour level inner event)
  Action.modify (·.drop xs)
  Action.record (.removed level xs)

def removeEdge (p : Endpoint) : Action L σ ε Unit := do
  let g ← Action.live
  Action.record (.removal level p g)
  dismiss behaviour level inner .removeEdge (g.entitiesAt p)

def detachEdge (id : String) (e : Tagged Edge) : Action L σ ε Unit := do
  if e.value.source.node = id then removeEdge behaviour level inner e.value.source
  if e.value.target.node = id then removeEdge behaviour level inner e.value.target

def detachInitializer (id : String) (i : Tagged Initializer) : Action L σ ε Unit := do
  if i.value.target.node = id then removeEdge behaviour level inner i.value.target

/-- Removes the first node with an id, after all connections of that id. -/
def removeNode (id : String) : Action L σ ε Unit := do
  match (← Action.live).find? id with
  | none => return ()
  | some n =>
    (← Action.live).edges.forM (detachEdge behaviour level inner id)
    (← Action.live).initializers.forM (detachInitializer behaviour level inner id)
    dismiss behaviour level inner .removeNode [.node n]

def perform [DecidableEq L] : Command L → Action L σ ε Reply
  | .addNode n => addNode behaviour level inner n
  | .removeNode id => do
    removeNode behaviour level inner id
    return none
  | .addEdge e => addEdge behaviour level inner e
  | .removeEdge p => do
    removeEdge behaviour level inner p
    return none
  | .addInitial i => addInitial behaviour level inner i
  | .subscribe event listener => do
    Action.modify (·.subscribe event listener)
    return none
  | .unsubscribe event listener => do
    Action.modify (·.unsubscribe event listener)
    return none
  | .rename name => do
    Action.modify ({ · with name })
    return none
  | .setDisplay id display => do
    Action.modify (·.setDisplay id display)
    return none
  | .report n => do
    Action.record (.notice n)
    return none

end

/-- Makes an edit in which calls of listeners nest at most `levels` deep, less one. -/
def edit [DecidableEq L] (behaviour : Behaviour L σ ε) : Nat → Command L → Action L σ ε Reply
  | 0, _ => Action.unfinished
  | levels + 1, command => do
    Action.record (.edit levels command (← Action.live))
    perform behaviour levels (edit behaviour levels) command

end FlowGraph.Live
