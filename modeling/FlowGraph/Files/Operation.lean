import FlowGraph.Files.Tree

/-! The operations on files, and what they do to a tree. -/

namespace FlowGraph.Files

inductive Kind where
  | file
  | directory
  deriving DecidableEq, Repr

inductive Operation where
  | status (p : Path)
  | read (p : Path)
  | write (p : Path) (content : List UInt8)
  | makeDirectory (p : Path)
  /-- An empty file next to the target, under a name that is not in use. It is known by its path
  from the root. -/
  | createTemporary (target : Path)
  | rename (source target : Path)
  | delete (p : Path)
  deriving DecidableEq, Repr

/-- What an operation answers. Where there is nothing, the status is none. -/
def Operation.Answer : Operation → Type
  | .status _ => Except Fault (Option Kind)
  | .read _ => Except Fault (List UInt8)
  | .createTemporary _ => Except Fault Path
  | .write .. | .makeDirectory _ | .rename .. | .delete _ => Except Fault Unit

def Entry.kind : Entry → Kind
  | .directory => .directory
  | .file _ => .file

namespace Tree

def status (t : Tree) (p : Path) : Except Fault (Option Kind) :=
  match t.locate p with
  | .ok place => .ok ((t.find? place).map (·.kind))
  | .error .nameTooLong => .error ⟨.nameTooLong, p⟩
  | .error _ => .ok none

def read (t : Tree) (p : Path) : Except Fault (List UInt8) :=
  match t.locate p with
  | .error reason => .error ⟨reason, p⟩
  | .ok place =>
    match t.find? place with
    | some (.file content) => .ok content
    | some .directory => .error ⟨.isDirectory, p⟩
    | none => .error ⟨.notFound, p⟩

def write (t : Tree) (p : Path) (content : List UInt8) : Except Fault Unit × Tree :=
  match t.locate p with
  | .error reason => (.error ⟨reason, p⟩, t)
  | .ok place =>
    match t.find? place with
    | some .directory => (.error ⟨.isDirectory, p⟩, t)
    | _ => (.ok (), t.put place (.file content))

def makeDirectory (t : Tree) (p : Path) : Except Fault Unit × Tree :=
  match t.locate p with
  | .error reason => (.error ⟨reason, p⟩, t)
  | .ok place =>
    match t.find? place with
    | some _ => (.error ⟨.exists, p⟩, t)
    | none => (.ok (), t.put place .directory)

/-- A path for a temporary file: that of the target from the root, with a number in its name. -/
def temporaryPath (home : Place) (target : Path) (number : Nat) : Path :=
  let digits := Text.decimalDigits number
  let padded := String.ofList (List.replicate (8 - digits.length) '0' ++ digits)
  (target.parent.absolute home).child s!".{target.name}.{padded}.tmp"

/-- The first temporary path that is not in use. Of more paths than are in use one is free. -/
def freePath (t : Tree) (target : Path) : Path :=
  let candidates := (List.range (t.home.length + t.entries.length + 1)).map fun number =>
    temporaryPath t.home target number
  let free := candidates.find? fun p =>
    match t.locate p with
    | .ok place => (t.find? place).isNone
    | .error _ => true
  free.getD (temporaryPath t.home target 0)

def createTemporary (t : Tree) (target : Path) : Except Fault Path × Tree :=
  let p := t.freePath target
  match t.locate p with
  | .error reason => (.error ⟨reason, p⟩, t)
  | .ok place =>
    match t.find? place with
    | some _ => (.error ⟨.exists, p⟩, t)
    | none => (.ok p, t.put place (.file []))

/-- Moves a file over whatever file is at the target. -/
def rename (t : Tree) (source target : Path) : Except Fault Unit × Tree :=
  match t.locate source, t.locate target with
  | .error reason, _ => (.error ⟨reason, source⟩, t)
  | _, .error reason => (.error ⟨reason, target⟩, t)
  | .ok origin, .ok place =>
    match t.find? origin, t.find? place with
    | none, _ => (.error ⟨.notFound, source⟩, t)
    | _, some .directory => (.error ⟨.isDirectory, target⟩, t)
    | some e, _ => (.ok (), (t.erase origin).put place e)

def delete (t : Tree) (p : Path) : Except Fault Unit × Tree :=
  match t.locate p with
  | .error reason => (.error ⟨reason, p⟩, t)
  | .ok place =>
    match t.find? place with
    | some (.file _) => (.ok (), t.erase place)
    | some .directory => (.error ⟨.isDirectory, p⟩, t)
    | none => (.error ⟨.notFound, p⟩, t)

def perform (t : Tree) : (o : Operation) → o.Answer × Tree
  | .status p => (t.status p, t)
  | .read p => (t.read p, t)
  | .write p content => t.write p content
  | .makeDirectory p => t.makeDirectory p
  | .createTemporary target => t.createTemporary target
  | .rename source target => t.rename source target
  | .delete p => t.delete p

end Tree

def Operation.refuse (fault : Fault) : (o : Operation) → o.Answer
  | .status _ | .read _ | .createTemporary _ | .write .. | .makeDirectory _ | .rename ..
  | .delete _ => .error fault

end FlowGraph.Files
