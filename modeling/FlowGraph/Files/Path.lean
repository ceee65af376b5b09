import FlowGraph.Text.Quoted

/-! Paths as roots and parts. Empty parts and parts that are a single dot drop out; two dots
stay. -/

namespace FlowGraph.Files

structure Path where
  root : String := ""
  parts : List String := []
  deriving DecidableEq, Repr, Inhabited

namespace Path

def splitSlashes : List Char → List (List Char)
  | [] => [[]]
  | '/' :: rest => [] :: splitSlashes rest
  | c :: rest =>
    match splitSlashes rest with
    | [] => [[c]]
    | piece :: pieces => (c :: piece) :: pieces

/-- Exactly two slashes at the start are a root of their own. -/
def rootOf (s : List Char) : String :=
  match (s.takeWhile (· = '/')).length with
  | 0 => ""
  | 2 => "//"
  | _ => "/"

def ofString (s : String) : Path where
  root := rootOf s.toList
  parts := ((splitSlashes s.toList).map String.ofList).filter fun p => p ≠ "" ∧ p ≠ "."

def text (p : Path) : String :=
  if p.root = "" ∧ p.parts = [] then "." else p.root ++ "/".intercalate p.parts

def child (p : Path) (name : String) : Path :=
  { p with parts := p.parts ++ [name] }

/-- The top is its own parent. -/
def parent (p : Path) : Path :=
  { p with parts := p.parts.dropLast }

/-- The path from the root to what `p` names in the directory `home`. Two dots take away the part
before them, whatever it is. -/
def absolute (home : List String) (p : Path) : Path where
  root := if p.root = "" then "/" else p.root
  parts := p.parts.foldl (fun parts part => if part = ".." then parts.dropLast else parts ++ [part])
    (if p.root = "" then home else [])

def name (p : Path) : String :=
  p.parts.getLast?.getD ""

/-- The end of a name from its last dot on, if the dot is neither its first nor its last
character. -/
def suffixOf (name : List Char) : List Char :=
  let after := name.reverse.takeWhile (· ≠ '.')
  match name.reverse.dropWhile (· ≠ '.') with
  | '.' :: _ :: _ => if after = [] then [] else '.' :: after.reverse
  | _ => []

def suffix (p : Path) : String :=
  String.ofList (suffixOf p.name.toList)

end Path

end FlowGraph.Files
