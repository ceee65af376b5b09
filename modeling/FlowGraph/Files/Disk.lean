import FlowGraph.Files.Operation

/-! Work on files as a tree of operations, each chosen after the answers to those before it.
It runs on a tree of files here, and on a real disk at the edge of the program. -/

namespace FlowGraph.Files

inductive Disk (α : Type) where
  | done (a : α)
  | step (o : Operation) (next : o.Answer → Disk α)

namespace Disk

def bind {α β : Type} : Disk α → (α → Disk β) → Disk β
  | .done a, f => f a
  | .step o next, f => .step o fun answer => (next answer).bind f

instance : Monad Disk where
  pure := .done
  bind := .bind

theorem bind_assoc {α β γ : Type} (d : Disk α) (f : α → Disk β) (g : β → Disk γ) :
    (d.bind f).bind g = d.bind fun a => (f a).bind g := by
  induction d with
  | done a => rfl
  | step o next ih => simp [bind, ih]

theorem bind_done {α : Type} (d : Disk α) : d.bind .done = d := by
  induction d with
  | done a => rfl
  | step o next ih => simp [bind, ih]

instance : LawfulMonad Disk := LawfulMonad.mk' Disk bind_done (fun _ _ => rfl) bind_assoc

def status (p : Path) : Disk (Except Fault (Option Kind)) := .step (.status p) .done

def read (p : Path) : Disk (Except Fault (List UInt8)) := .step (.read p) .done

def write (p : Path) (content : List UInt8) : Disk (Except Fault Unit) :=
  .step (.write p content) .done

def makeDirectory (p : Path) : Disk (Except Fault Unit) := .step (.makeDirectory p) .done

def createTemporary (target : Path) : Disk (Except Fault Path) :=
  .step (.createTemporary target) .done

def rename (source target : Path) : Disk (Except Fault Unit) :=
  .step (.rename source target) .done

def delete (p : Path) : Disk (Except Fault Unit) := .step (.delete p) .done

end Disk

namespace Disk

/-- Runs on a tree of files. Operations that meet an obstacle fail and change nothing. -/
def runAgainst {α : Type} (obstacle : Operation → Option Fault) : Disk α → Tree → α × Tree
  | .done a, t => (a, t)
  | .step o next, t =>
    match obstacle o with
    | some fault => (next (o.refuse fault)).runAgainst obstacle t
    | none =>
      let (answer, t) := t.perform o
      (next answer).runAgainst obstacle t

def run {α : Type} (d : Disk α) (t : Tree) : α × Tree :=
  d.runAgainst (fun _ => none) t

theorem runAgainst_bind {α β : Type} (obstacle : Operation → Option Fault) (d : Disk α)
    (f : α → Disk β) (t : Tree) :
    (d.bind f).runAgainst obstacle t =
      (f (d.runAgainst obstacle t).1).runAgainst obstacle (d.runAgainst obstacle t).2 := by
  induction d generalizing t with
  | done a => rfl
  | step o next ih => cases h : obstacle o <;> simp [bind, runAgainst, h, ih]

end Disk

end FlowGraph.Files
