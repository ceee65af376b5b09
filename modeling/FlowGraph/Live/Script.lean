import FlowGraph.Live.Basic
import FlowGraph.Notice

/-! What listeners may do. A listener has a memory, which all listeners share, and when it is
called it edits the graph, step by step, after seeing what each edit led to. -/

namespace FlowGraph.Live

inductive Command (L : Type) where
  | addNode (n : Node)
  | removeNode (id : String)
  | addEdge (e : Edge)
  | removeEdge (p : Endpoint)
  | addInitial (i : Initializer)
  | subscribe (event : Event) (listener : L)
  | unsubscribe (event : Event) (listener : L)
  | rename (name : String)
  | setDisplay (id : String) (display : Json)
  | report (n : Notice)
  deriving DecidableEq

abbrev Reply := Option Entity

/-- A course of action with a memory in `σ`, errors in `ε` and a result in `α`. Every edit
leaves the memory for the listeners that it calls, and goes on with what they made of it. -/
inductive Script (L σ ε α : Type) where
  | done (memory : σ) (result : α)
  | raise (memory : σ) (error : ε)
  | edit (memory : σ) (command : Command L)
      (next : Except ε Reply → LiveGraph L → σ → Script L σ ε α)

abbrev Behaviour (L σ ε : Type) := L → Entity → LiveGraph L → σ → Script L σ ε Unit

/-- A call of a listener, with the graph as it was then. -/
structure Call (L : Type) where
  event : Event
  listener : L
  entity : Entity
  live : LiveGraph L
  deriving DecidableEq

/-- An edit, the removals that are part of it and the calls that it makes have one level. The
edits that those calls make have the level below. A removal at an endpoint is noted when it
chooses what goes, and what went is noted when it has gone. -/
inductive Entry (L : Type) where
  | notice (n : Notice)
  | edit (level : Nat) (command : Command L) (live : LiveGraph L)
  | removal (level : Nat) (p : Endpoint) (live : LiveGraph L)
  | removed (level : Nat) (xs : List Entity)
  | call (level : Nat) (c : Call L)
  | failed (level : Nat) (listener : L)
  deriving DecidableEq

/-- The journal holds what happened, the newest first. -/
structure State (L σ : Type) where
  live : LiveGraph L
  memory : σ
  journal : List (Entry L) := []

/-- Edits that nest deeper than is allowed for do not finish. -/
inductive Outcome (ε α : Type) where
  | returned (a : α)
  | raised (error : ε)
  | unfinished

/-- The state stays as a failure left it. -/
def Action (L σ ε α : Type) := State L σ → Outcome ε α × State L σ

namespace Action

variable {L σ ε α β : Type}

def pure (a : α) : Action L σ ε α :=
  fun s => (.returned a, s)

def bind (x : Action L σ ε α) (f : α → Action L σ ε β) : Action L σ ε β :=
  fun s =>
    match x s with
    | (.returned a, s) => f a s
    | (.raised error, s) => (.raised error, s)
    | (.unfinished, s) => (.unfinished, s)

instance : Monad (Action L σ ε) where
  pure := pure
  bind := bind

theorem bind_assoc {γ : Type} (x : Action L σ ε α) (f : α → Action L σ ε β)
    (g : β → Action L σ ε γ) : bind (bind x f) g = bind x fun a => bind (f a) g := by
  funext s
  unfold bind
  rcases x s with ⟨outcome, t⟩
  cases outcome <;> rfl

theorem bind_pure (x : Action L σ ε α) : bind x pure = x := by
  funext s
  unfold bind
  rcases x s with ⟨outcome, t⟩
  cases outcome <;> rfl

instance : LawfulMonad (Action L σ ε) :=
  LawfulMonad.mk' (Action L σ ε) bind_pure (fun _ _ => rfl) bind_assoc

def live : Action L σ ε (LiveGraph L) :=
  fun s => (.returned s.live, s)

def modify (f : LiveGraph L → LiveGraph L) : Action L σ ε Unit :=
  fun s => (.returned (), { s with live := f s.live })

def record (e : Entry L) : Action L σ ε Unit :=
  fun s => (.returned (), { s with journal := e :: s.journal })

def unfinished : Action L σ ε α :=
  fun s => (.unfinished, s)

end Action

/-- Follows a script; `inner` makes its edits. -/
def Script.run {L σ ε α : Type} (inner : Command L → Action L σ ε Reply) :
    Script L σ ε α → Action L σ ε α
  | .done memory result, s => (.returned result, { s with memory })
  | .raise memory error, s => (.raised error, { s with memory })
  | .edit memory command next, s =>
    match inner command { s with memory } with
    | (.returned reply, s) => (next (.ok reply) s.live s.memory).run inner s
    | (.raised error, s) => (next (.error error) s.live s.memory).run inner s
    | (.unfinished, s) => (.unfinished, s)

end FlowGraph.Live
