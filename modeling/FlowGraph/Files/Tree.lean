import FlowGraph.Files.Fault
import FlowGraph.Text.Utf8

/-! A tree of files with a working directory. A place is named by the parts that lead to it from
the root. -/

namespace FlowGraph.Files

inductive Entry where
  | directory
  | file (content : List UInt8)
  deriving DecidableEq, Repr

abbrev Place := List String

/-- The working directory and those above it are always there, and are no entries. -/
structure Tree where
  home : Place := []
  entries : List (Place × Entry) := []
  deriving DecidableEq, Repr, Inhabited

namespace Tree

def find? (t : Tree) (place : Place) : Option Entry :=
  if place.isPrefixOf t.home then some .directory
  else (t.entries.find? (·.1 == place)).map (·.2)

def inside (t : Tree) : List (Place × Entry) :=
  t.entries.filterMap fun (place, e) =>
    if t.home.isPrefixOf place then some (place.drop t.home.length, e) else none

/-- Puts an entry at a place, instead of the one that is there. -/
def put (t : Tree) (place : Place) (e : Entry) : Tree :=
  { t with entries := t.entries.filter (·.1 != place) ++ [(place, e)] }

def erase (t : Tree) (place : Place) : Tree :=
  { t with entries := t.entries.filter (·.1 != place) }

def partLimit : Nat := 255

def pathLimit : Nat := 4095

/-- Goes on through directories. Two dots lead back, and stay at the root. -/
def enter (t : Tree) (here : Place) : List String → Except Reason Place
  | [] => .ok here
  | part :: rest =>
    if part = ".." then enter t here.dropLast rest
    else if partLimit < part.utf8ByteSize then .error .nameTooLong
    else match t.find? (here ++ [part]) with
      | some .directory => enter t (here ++ [part]) rest
      | some (.file _) => .error .notDirectory
      | none => .error .notFound

/-- The place that a path names; all its parts but the last must be directories. -/
def locate (t : Tree) (p : Path) : Except Reason Place :=
  if p.text.toList.contains '\x00' then .error .nulCharacter
  else if pathLimit < p.text.utf8ByteSize then .error .nameTooLong
  else
    let start := if p.root = "" then t.home else []
    match p.parts.getLast? with
    | none => .ok start
    | some last => do
      let here ← t.enter start p.parts.dropLast
      if last = ".." then return here.dropLast
      else if partLimit < last.utf8ByteSize then throw .nameTooLong
      else return here ++ [last]

end Tree

end FlowGraph.Files
