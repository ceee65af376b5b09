import FlowGraph.Text.Alphanumeric
import FlowGraph.Text.Blank

/-! The lexemes of the line-oriented notation. At each place the first form that fits is taken,
in the order comment, literal, arrow, node, word, separator, blanks. -/

namespace FlowGraph.Program

/-- A literal holds what stands between its quotes, with the backslashes. -/
inductive Lexeme where
  | comment (body : List Char)
  | literal (body : List Char)
  | arrow
  | node (id component : List Char)
  | word (text : List Char)
  | separator (c : Char)
  | blanks (text : List Char)
  deriving DecidableEq, Repr

def Lexeme.text : Lexeme → List Char
  | .comment body => '#' :: body
  | .literal body => '\x27' :: body ++ ['\x27']
  | .arrow => ['-', '>']
  | .node id component => id ++ '(' :: component ++ [')']
  | .word text => text
  | .separator c => [c]
  | .blanks text => text

def isNameChar (c : Char) : Bool :=
  c == '.' || Text.isWord c

/-- The characters of a component: neither parentheses nor white space. -/
def isComponentChar (c : Char) : Bool :=
  c != '(' && c != ')' && !Text.isBlank c

def isGap (c : Char) : Bool :=
  c == ' ' || c == '\t' || c == '\r'

/-- Splits the rest of a literal at its closing quote. A backslash takes away the meaning of the
character after it, which may be any but a line feed. -/
def literalBody? : List Char → Option (List Char × List Char)
  | [] => none
  | '\x27' :: rest => some ([], rest)
  | '\\' :: c :: rest =>
    if c = '\n' then none
    else (literalBody? rest).map fun (body, after) => ('\\' :: c :: body, after)
  | '\\' :: [] => none
  | c :: rest => (literalBody? rest).map fun (body, after) => (c :: body, after)

/-- The rest of a name. A hyphen belongs to it unless it begins an arrow. -/
def nameRest : List Char → List Char × List Char
  | [] => ([], [])
  | c :: rest =>
    if isNameChar c || c == '-' && rest.head? != some '>' then
      let (name, after) := nameRest rest
      (c :: name, after)
    else ([], c :: rest)

def component? : List Char → Option (List Char × List Char)
  | '(' :: rest =>
    match rest.dropWhile isComponentChar with
    | ')' :: after => some (rest.takeWhile isComponentChar, after)
    | _ => none
  | _ => none

def lexeme? : List Char → Option (Lexeme × List Char)
  | [] => none
  | '#' :: rest => some (.comment (rest.takeWhile (· ≠ '\n')), rest.dropWhile (· ≠ '\n'))
  | '\x27' :: rest => (literalBody? rest).map fun (body, after) => (.literal body, after)
  | '-' :: '>' :: rest => some (.arrow, rest)
  | c :: rest =>
    if isNameChar c then
      let (name, after) := nameRest rest
      match component? after with
      | some (component, after) => some (.node (c :: name) component, after)
      | none => some (.word (c :: name), after)
    else if c = ',' ∨ c = '\n' then some (.separator c, rest)
    else if isGap c then some (.blanks (c :: rest.takeWhile isGap), rest.dropWhile isGap)
    else none

/-- At most `fuel` lexemes from the start of a text, and what is left after them. -/
def scanFor : Nat → List Char → List Lexeme × List Char
  | 0, s => ([], s)
  | fuel + 1, s =>
    match lexeme? s with
    | none => ([], s)
    | some (l, after) =>
      let (lexemes, rest) := scanFor fuel after
      (l :: lexemes, rest)

/-- The lexemes of a text up to the first place where none begins, and what is left there. -/
def scan (s : List Char) : List Lexeme × List Char :=
  scanFor s.length s

end FlowGraph.Program
