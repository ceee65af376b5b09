import FlowGraph.Program.Lexeme
import FlowGraph.Text.Newlines
import FlowGraph.Text.Quoted

/-! Tokens and the statements they stand in. A separator ends a statement, and statements
without tokens do not count. -/

namespace FlowGraph.Program

inductive Token where
  | literal (data : String)
  | arrow
  | node (id component : String)
  | word (text : String)
  deriving DecidableEq, Repr

/-- A token and the line on which it starts. -/
structure Located where
  token : Token
  line : Nat
  deriving DecidableEq, Repr

inductive Cause where
  | unexpected (c : Char)
  | noConnection
  | badStart
  | badLink (last : Bool)
  | notNode (found : String)
  | notPort (found : String)
  deriving DecidableEq, Repr

structure SyntaxError where
  cause : Cause
  line : Nat
  deriving DecidableEq, Repr

def Token.text : Token → String
  | .literal data => data
  | .arrow => "->"
  | .node id _ => id
  | .word text => text

def Cause.message : Cause → String
  | .unexpected c => s!"unexpected character {Text.quoted (String.singleton c)}"
  | .noConnection => "statement has no connection ('->')"
  | .badStart => "a connection must start with 'data' or 'Node PORT'"
  | .badLink true => "expected 'PORT Node' after '->'"
  | .badLink false => "expected 'PORT Node PORT' after '->'"
  | .notNode found => s!"expected a node, got {Text.quoted found}"
  | .notPort found => s!"expected a port name, got {Text.quoted found}"

def SyntaxError.message (e : SyntaxError) : String :=
  s!"line {e.line}: {e.cause.message}"

/-- A backslash stands for the character after it. -/
def unescape : List Char → List Char
  | '\\' :: c :: rest => c :: unescape rest
  | c :: rest => c :: unescape rest
  | [] => []

/-- Comments, separators and blanks are no tokens. -/
def Lexeme.token? : Lexeme → Option Token
  | .literal body => some (.literal (String.ofList (unescape body)))
  | .arrow => some .arrow
  | .node id component => some (.node (String.ofList id) (String.ofList component))
  | .word text => some (.word (String.ofList text))
  | .comment _ | .separator _ | .blanks _ => none

def Lexeme.separates : Lexeme → Bool
  | .separator _ => true
  | _ => false

/-- The statements of the lexemes that start on a line, the first one begun by `current`. -/
def group (line : Nat) (current : List Located) : List Lexeme → List (List Located)
  | [] => if current = [] then [] else [current]
  | l :: rest =>
    let next := line + Text.countNewlines l.text
    match l.token? with
    | some token => group next (current ++ [⟨token, line⟩]) rest
    | none =>
      if l.separates && current ≠ [] then current :: group next [] rest
      else group next current rest

def lineAfter (lexemes : List Lexeme) : Nat :=
  lexemes.foldl (fun line l => line + Text.countNewlines l.text) 1

def tokenize (s : List Char) : Except SyntaxError (List (List Located)) :=
  let (lexemes, rest) := scan s
  match rest with
  | [] => .ok (group 1 [] lexemes)
  | c :: _ => .error ⟨.unexpected c, lineAfter lexemes⟩

end FlowGraph.Program
