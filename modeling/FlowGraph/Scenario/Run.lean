import FlowGraph.Dot.Document
import FlowGraph.Graph.Description
import FlowGraph.Live.Edit
import FlowGraph.Load
import FlowGraph.Save
import FlowGraph.Scenario.Memory
import FlowGraph.Yuml

/-! Running a scenario. Listeners are known by their names, keep count of their calls, and note
what they see. A graph that is loaded anew takes the place of the old one, even while the old
one is being edited. -/

namespace FlowGraph.Scenario

open Live

inductive Failure where
  | unknownEvent (name : String)
  | raised (message : String)
  | malformed (cause : Malformed)
  | tooDeep
  deriving Repr

def Failure.message : Failure → String
  | .unknownEvent name =>
    let known := ", ".intercalate (Event.all.map Event.name)
    s!"Unknown graph event: {name}. Use one of: {known}"
  | .raised message => message
  | .malformed cause => cause.message
  | .tooDeep => "maximum recursion depth exceeded"

inductive Result where
  | nothing
  | entity (x : Entity)
  | number (n : Nat)
  | text (s : String)
  | texts (lines : List String)

abbrev Course (α : Type) := Script String Memory Failure α

/-- A graph that takes the place of another. Its tags continue those of the other. -/
def reloaded (g : LiveGraph String) : List Notice × Except Failure (LiveGraph String) :=
  let loading := loadDefinition (ε := Empty) (Definition.encode g.graph) none
  (loading.notices, match loading.result with
    | .ok graph => .ok (.ofGraph graph g.fresh)
    | .error (.malformed cause) => .error (.malformed cause)
    | .error _ => .error .tooDeep)

def look (m : Memory) (g : LiveGraph String) : Step → Result
  | .findNode id => (g.find? id).elim .nothing fun n => .entity (m.current (.node n))
  | .size => .number g.nodes.length
  | .describe => .texts g.graph.descriptions
  | .definition => .text (jsonText g.graph none)
  | .dot => .text (Dot.document g.graph)
  | .yuml => .text (Yuml.document g.graph)
  | _ => .nothing

abbrev Continuation (α : Type) :=
  Except Failure Result → LiveGraph String → Memory → Course α

variable {α : Type}

/-- Makes one edit and goes on with what it added. -/
def editThen (m : Memory) (command : Command String) (next : Continuation α) : Course α :=
  .edit m command fun reply g m =>
    next (reply.map fun added => added.elim .nothing fun x => .entity (m.current x)) g m

def reportThen (notices : List Notice) (m : Memory) (next : Memory → Course α) : Course α :=
  match notices with
  | [] => next m
  | n :: rest => .edit m (.report n) fun _ _ m => reportThen rest m next

/-- Performs a step on the graph that is being edited. -/
def stepHere (step : Step) (g : LiveGraph String) (m : Memory) (next : Continuation α) :
    Course α :=
  match step with
  | .addNode n => editThen m (.addNode n) next
  | .removeNode id => editThen m (.removeNode id) next
  | .addEdge e => editThen m (.addEdge e) next
  | .removeEdge p => editThen m (.removeEdge p) next
  | .addInitial i => editThen m (.addInitial i) next
  | .subscribe event listener reaction =>
    let m := m.introduce listener reaction
    match Event.ofName? event with
    | some event => editThen m (.subscribe event listener) next
    | none => next (.error (.unknownEvent event)) g m
  | .unsubscribe event listener reaction =>
    let m := m.introduce listener reaction
    match Event.ofName? event with
    | some event => editThen m (.unsubscribe event listener) next
    | none => next (.error (.unknownEvent event)) g m
  | .rename name => editThen m (.rename name) next
  | .setDisplay id display =>
    let displays := (g.find? id).elim m.displays fun n => (n.tag, display) :: m.displays
    editThen { m with displays } (.setDisplay id display) next
  | .reload =>
    let (notices, result) := reloaded g
    reportThen notices m fun m =>
      match result with
      | .ok newer => next (.ok .nothing) g { m with newer := some newer }
      | .error failure => next (.error failure) g m
  | step => next (.ok (look m g step)) g m

def noticesOf (journal : List (Entry String)) : List Notice :=
  journal.reverse.filterMap fun
    | .notice n => some n
    | _ => none

abbrev Performer :=
  Step → LiveGraph String → Memory → Outcome Failure Result × State String Memory

/-- Performs a step on the graph that counts: `other` does so where it is not the one being
edited. -/
def stepNow (other : Performer) (step : Step) (g : LiveGraph String) (m : Memory)
    (next : Continuation α) : Course α :=
  match m.newer with
  | none => stepHere step g m next
  | some newer =>
    let (outcome, s) := other step newer { m with newer := none }
    reportThen (noticesOf s.journal) { s.memory with newer := some (s.memory.newer.getD s.live) }
      fun m =>
        match outcome with
        | .returned result => next (.ok result) g m
        | .raised failure => next (.error failure) g m
        | .unfinished => next (.error .tooDeep) g m

def stepsNow (other : Performer) (next : LiveGraph String → Memory → Course α) :
    List Step → LiveGraph String → Memory → Course α
  | [], g, m => next g m
  | step :: rest, g, m =>
    stepNow other step g m fun result g m =>
      match result with
      | .ok _ => stepsNow other next rest g m
      | .error failure => .raise m failure

/-- A listener that is called counts the call, notes what it sees, and reacts. -/
def behaviour (other : Performer) : Behaviour String Memory Failure :=
  fun listener x g m =>
    let m := m.witness listener x (m.newer.getD g)
    match m.reaction? listener with
    | none => .done m ()
    | some reaction =>
      let steps := if m.callsOf listener ≤ reaction.limit then reaction.steps else []
      stepsNow other (fun _ m =>
        match reaction.failure with
        | none => .done m ()
        | some (message, place) =>
          if place.all fun n => n == (m.callsOf listener : Int) then .raise m (.raised message)
          else .done m ()) steps g m

def perform : Nat → Performer
  | 0, _, g, m => (.unfinished, ⟨g, m, []⟩)
  | depth + 1, step, g, m =>
    let other := perform depth
    let course := stepNow other step g m fun result _ m =>
      match result with
      | .ok result => .done m result
      | .error failure => .raise m failure
    course.run (edit (behaviour other) (depth + 1)) ⟨g, m, []⟩

structure Row where
  result : Except Failure Result
  sightings : List Sighting
  notices : List Notice
  graph : Graph

def runStep (depth : Nat) (step : Step) (g : LiveGraph String) (m : Memory) :
    Row × LiveGraph String × Memory :=
  let (outcome, s) := perform depth step g { m with sightings := [] }
  let g := s.memory.newer.getD s.live
  let result := match outcome with
    | .returned result => .ok result
    | .raised failure => .error failure
    | .unfinished => .error .tooDeep
  (⟨result, s.memory.sightings.reverse, noticesOf s.journal, g.graph⟩, g,
    { s.memory with newer := none })

def runFrom (depth : Nat) (g : LiveGraph String) (m : Memory) : List Step → List Row
  | [] => []
  | step :: rest =>
    let (row, g, m) := runStep depth step g m
    row :: runFrom depth g m rest

def run (name : String) (steps : List Step) : List Row :=
  runFrom (stepsActivity steps + 2) { name } {} steps

end FlowGraph.Scenario
