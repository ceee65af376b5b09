/-! The DOT language as far as directed graphs without subgraphs go: the tokens of a text, and the
statements that they make. Strings are not joined by plus signs, and markup is only balanced. -/

namespace FlowGraph.Dot.Language

/-- A name. Markup is told apart from a string with the same characters. -/
inductive Id where
  | text (s : List Char)
  | markup (s : List Char)
  deriving DecidableEq, Repr

inductive Keyword where
  | node
  | edge
  | graph
  | digraph
  | subgraph
  | strict
  deriving DecidableEq, Repr

inductive Token where
  | id (i : Id)
  | keyword (k : Keyword)
  | mark (c : Char)
  | arrow
  | line
  deriving DecidableEq, Repr

def Keyword.all : List Keyword := [.node, .edge, .graph, .digraph, .subgraph, .strict]

def Keyword.name : Keyword → String
  | .node => "node"
  | .edge => "edge"
  | .graph => "graph"
  | .digraph => "digraph"
  | .subgraph => "subgraph"
  | .strict => "strict"

/-- The case of a keyword does not matter. -/
def keyword? (s : List Char) : Option Keyword :=
  Keyword.all.find? (·.name.toList == s.map Char.toLower)

def isBlank (c : Char) : Bool :=
  c == ' ' || c == '\t' || c == '\r' || c == '\n'

def isMark (c : Char) : Bool :=
  ['\x7b', '\x7d', '[', ']', ';', ',', ':', '='].contains c

def isNameStart (c : Char) : Bool :=
  c.isAlpha || c == '_' || 128 ≤ c.toNat

def isNameChar (c : Char) : Bool :=
  isNameStart c || c.isDigit

/-- The rest of a string up to its closing quote. A backslash keeps a quote from closing it and
takes a line feed away; with any other character it stays. -/
def quotedBody : List Char → Option (List Char × List Char)
  | [] => none
  | '"' :: rest => some ([], rest)
  | '\\' :: '"' :: rest => (quotedBody rest).map fun (s, after) => ('"' :: s, after)
  | '\\' :: '\\' :: rest => (quotedBody rest).map fun (s, after) => ('\\' :: '\\' :: s, after)
  | '\\' :: '\n' :: rest => quotedBody rest
  | c :: rest => (quotedBody rest).map fun (s, after) => (c :: s, after)

/-- The rest of some markup up to its last bracket, where `depth` brackets are open inside. -/
def markupBody : Nat → List Char → Option (List Char × List Char)
  | _, [] => none
  | depth, '<' :: rest => (markupBody (depth + 1) rest).map fun (s, after) => ('<' :: s, after)
  | 0, '>' :: rest => some ([], rest)
  | depth + 1, '>' :: rest => (markupBody depth rest).map fun (s, after) => ('>' :: s, after)
  | depth, c :: rest => (markupBody depth rest).map fun (s, after) => (c :: s, after)

/-- A numeral without sign, as long as it can be. -/
def numeral? (s : List Char) : Option (List Char × List Char) :=
  let whole := s.takeWhile Char.isDigit
  match s.dropWhile Char.isDigit with
  | '.' :: rest =>
    let fraction := rest.takeWhile Char.isDigit
    if whole = [] ∧ fraction = [] then none
    else some (whole ++ '.' :: fraction, rest.dropWhile Char.isDigit)
  | rest => if whole = [] then none else some (whole, rest)

def word (s : List Char) : Token :=
  match keyword? s with
  | some k => .keyword k
  | none => .id (.text s)

def token? : List Char → Option (Token × List Char)
  | [] => none
  | '"' :: rest => (quotedBody rest).map fun (s, after) => (.id (.text s), after)
  | '<' :: rest => (markupBody 0 rest).map fun (s, after) => (.id (.markup s), after)
  | '-' :: '>' :: rest => some (.arrow, rest)
  | '-' :: '-' :: rest => some (.line, rest)
  | '-' :: rest => (numeral? rest).map fun (s, after) => (.id (.text ('-' :: s)), after)
  | c :: rest =>
    if isMark c then some (.mark c, rest)
    else if isNameStart c then
      some (word ((c :: rest).takeWhile isNameChar), (c :: rest).dropWhile isNameChar)
    else (numeral? (c :: rest)).map fun (s, after) => (.id (.text s), after)

def commentEnd? : List Char → Option (List Char)
  | [] => none
  | '*' :: '/' :: rest => some rest
  | _ :: rest => commentEnd? rest

/-- What comes after a blank, a comment, or a line that begins with a number sign. -/
def gap? : List Char → Option (List Char)
  | '/' :: '/' :: rest => some (rest.dropWhile (· ≠ '\n'))
  | '/' :: '*' :: rest => commentEnd? rest
  | '\n' :: '#' :: rest => some (rest.dropWhile (· ≠ '\n'))
  | c :: rest => if isBlank c then some rest else none
  | [] => none

/-- The tokens of a text, if it has at most `fuel` tokens and gaps. -/
def lexFor : Nat → List Char → Option (List Token)
  | _, [] => some []
  | 0, _ :: _ => none
  | fuel + 1, s =>
    match gap? s with
    | some rest => lexFor fuel rest
    | none =>
      match token? s with
      | some (t, rest) => (lexFor fuel rest).map (t :: ·)
      | none => none

/-- The start of a text is the start of a line. -/
def lex (s : List Char) : Option (List Token) :=
  lexFor (s.length + 1) ('\n' :: s)

/-- A node, and where edges meet it. -/
structure Place where
  id : Id
  ports : List Id := []
  deriving DecidableEq, Repr

inductive Item where
  | node (place : Place) (attributes : List (Id × Id))
  | edge (places : List Place) (attributes : List (Id × Id))
  | default (of : Keyword) (attributes : List (Id × Id))
  | setting (name value : Id)
  deriving DecidableEq, Repr

def ports : List Token → List Id × List Token
  | .mark ':' :: .id p :: .mark ':' :: .id q :: rest => ([p, q], rest)
  | .mark ':' :: .id p :: rest => ([p], rest)
  | rest => ([], rest)

/-- The places after the first in an edge statement. -/
def heads : List Token → List Place × List Token
  | .arrow :: .id i :: .mark ':' :: .id p :: .mark ':' :: .id q :: rest =>
    let (places, after) := heads rest
    (⟨i, [p, q]⟩ :: places, after)
  | .arrow :: .id i :: .mark ':' :: .id p :: rest =>
    let (places, after) := heads rest
    (⟨i, [p]⟩ :: places, after)
  | .arrow :: .id i :: rest =>
    let (places, after) := heads rest
    (⟨i, []⟩ :: places, after)
  | rest => ([], rest)

/-- Attributes up to the last bracket. One list may follow another. -/
def attributeBody : List Token → Option (List (Id × Id) × List Token)
  | .mark ']' :: .mark '[' :: rest => attributeBody rest
  | .mark ']' :: rest => some ([], rest)
  | .id name :: .mark '=' :: .id value :: .mark ',' :: rest =>
    (attributeBody rest).map fun (attributes, after) => ((name, value) :: attributes, after)
  | .id name :: .mark '=' :: .id value :: .mark ';' :: rest =>
    (attributeBody rest).map fun (attributes, after) => ((name, value) :: attributes, after)
  | .id name :: .mark '=' :: .id value :: rest =>
    (attributeBody rest).map fun (attributes, after) => ((name, value) :: attributes, after)
  | _ => none

def attributes : List Token → Option (List (Id × Id) × List Token)
  | .mark '[' :: rest => attributeBody rest
  | rest => some ([], rest)

def statement? : List Token → Option (Item × List Token)
  | .id name :: .mark '=' :: .id value :: rest => some (.setting name value, rest)
  | .id i :: rest =>
    let (portsOfFirst, rest) := ports rest
    let (others, rest) := heads rest
    (attributes rest).map fun (given, after) =>
      (if others = [] then .node ⟨i, portsOfFirst⟩ given
        else .edge (⟨i, portsOfFirst⟩ :: others) given, after)
  | .keyword k :: .mark '[' :: rest =>
    if k = .node ∨ k = .edge ∨ k = .graph then
      (attributeBody rest).map fun (given, after) => (.default k given, after)
    else none
  | _ => none

def afterSemicolon : List Token → List Token
  | .mark ';' :: rest => rest
  | rest => rest

/-- The statements up to the closing brace, if there are fewer than `fuel` of them. -/
def statementsFor : Nat → List Token → Option (List Item)
  | 0, _ => none
  | fuel + 1, tokens =>
    if tokens = [.mark '\x7d'] then some []
    else match statement? tokens with
      | some (item, rest) => (statementsFor fuel (afterSemicolon rest)).map (item :: ·)
      | none => none

/-- The tokens after the opening brace. -/
def body? : List Token → Option (List Token)
  | .keyword .strict :: .keyword .digraph :: .id _ :: .mark '\x7b' :: rest => some rest
  | .keyword .strict :: .keyword .digraph :: .mark '\x7b' :: rest => some rest
  | .keyword .digraph :: .id _ :: .mark '\x7b' :: rest => some rest
  | .keyword .digraph :: .mark '\x7b' :: rest => some rest
  | _ => none

/-- The statements of a directed graph, in order; none if the text is not well-formed. -/
def read (s : List Char) : Option (List Item) := do
  let body ← body? (← lex s)
  statementsFor body.length body

end FlowGraph.Dot.Language
