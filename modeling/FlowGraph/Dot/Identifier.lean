import FlowGraph.Text.Digits
import FlowGraph.Text.Lowercase

/-! Identifiers in DOT. A plain name or numeral stands bare, unless it is a keyword; a text in
angle brackets is taken as markup; everything else is quoted. -/

namespace FlowGraph.Dot

def isLetter (c : Char) : Bool :=
  'a' ≤ c && c ≤ 'z' || 'A' ≤ c && c ≤ 'Z' || c == '_'

def isPlainName : List Char → Bool
  | [] => false
  | c :: rest => isLetter c && rest.all fun d => isLetter d || Text.isDigit d

def isUnsignedNumeral (s : List Char) : Bool :=
  let rest := s.dropWhile Text.isDigit
  match rest with
  | [] => !s.isEmpty
  | '.' :: fraction => fraction.all Text.isDigit && (fraction != [] || rest != s)
  | _ => false

def isNumeral : List Char → Bool
  | '-' :: rest => isUnsignedNumeral rest
  | s => isUnsignedNumeral s

def dropLastNewline (s : List Char) : List Char :=
  if s.getLast? = some '\n' then s.dropLast else s

/-- One line feed at the end does not count. -/
def isBare (s : List Char) : Bool :=
  let s := dropLastNewline s
  isPlainName s || isNumeral s

/-- One line feed at the end does not count. -/
def isMarkup (s : List Char) : Bool :=
  match s with
  | '<' :: rest => (dropLastNewline rest).getLast? = some '>'
  | _ => false

def keywords : List String :=
  ["node", "edge", "graph", "digraph", "subgraph", "strict"]

def isKeyword (s : List Char) : Bool :=
  keywords.contains (Text.lowercase (String.ofList s))

/-- Escapes the double quotes that no backslash escapes yet. `odd` says whether an odd number
of backslashes stands before the text. -/
def escapeQuotes (odd : Bool) : List Char → List Char
  | [] => []
  | '"' :: rest => (if odd then ['"'] else ['\\', '"']) ++ escapeQuotes false rest
  | '\\' :: rest => '\\' :: escapeQuotes (!odd) rest
  | c :: rest => c :: escapeQuotes false rest

def identifier (s : List Char) : List Char :=
  if isMarkup s || isBare s && !isKeyword s then s
  else '"' :: escapeQuotes false s ++ ['"']

end FlowGraph.Dot
