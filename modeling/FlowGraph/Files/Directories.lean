import FlowGraph.Files.Disk

/-! Making directories together with their parents. -/

namespace FlowGraph.Files

/-- A directory that could not be made may be there already, which is as good. -/
def acceptExisting (p : Path) (fault : Fault) : Disk (Except Fault Unit) := do
  if fault.reason = .notFound ∨ fault.reason = .nulCharacter then return .error fault
  else match ← Disk.status p with
    | .ok (some .directory) => return .ok ()
    | .ok _ => return .error fault
    | .error fault => return .error fault

/-- Makes a directory and, if its parent is missing, that one first. `depth` bounds the number of
parents. -/
def makeDirectories : Nat → Path → Disk (Except Fault Unit)
  | 0, p => do
    match ← Disk.makeDirectory p with
    | .ok () => return .ok ()
    | .error fault => acceptExisting p fault
  | depth + 1, p => do
    match ← Disk.makeDirectory p with
    | .ok () => return .ok ()
    | .error fault =>
      if fault.reason = .notFound ∧ p.parent ≠ p then
        match ← makeDirectories depth p.parent with
        | .error fault => return .error fault
        | .ok () =>
          match ← Disk.makeDirectory p with
          | .ok () => return .ok ()
          | .error fault => acceptExisting p fault
      else acceptExisting p fault

def makeOrKeep (p : Path) : Disk (Except Fault Unit) := do
  match ← Disk.makeDirectory p with
  | .ok () => return .ok ()
  | .error fault =>
    match ← Disk.status p with
    | .ok (some .directory) => return .ok ()
    | _ => return .error fault

/-- Makes a directory after all the parents that are missing, the outermost first. -/
def makeFromTop : Nat → Path → Disk (Except Fault Unit)
  | 0, _ => return .ok ()
  | depth + 1, p => do
    let parent := p.parent
    if parent.parts = [] then makeOrKeep p
    else match ← Disk.status parent with
      | .ok (some _) => makeOrKeep p
      | _ =>
        match ← makeFromTop depth parent with
        | .ok () => makeOrKeep p
        | .error fault => if fault.reason = .exists then makeOrKeep p else return .error fault

end FlowGraph.Files
