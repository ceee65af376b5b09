import FlowGraph.Json.Basic

/-! Writing JSON text in ASCII, on one line or with one item on each line. -/

namespace FlowGraph.Json

inductive Layout where
  | oneLine
  | indented (width : Nat)
  deriving DecidableEq, Repr

/-- No width puts all on one line; a negative one counts as zero. -/
def Layout.ofIndent : Option Int → Layout
  | none => .oneLine
  | some n => .indented n.toNat

def names : Binary64.Names := ⟨"Infinity", "NaN"⟩

def unitEscape (n : Nat) : List Char :=
  '\\' :: 'u' :: Text.hexDigits 4 n

/-- A character inside a string. Only visible ASCII and the space stand as they are; characters
above the basic plane are escaped by their two surrogates. -/
def escapeChar (c : Char) : List Char :=
  if c = '"' then ['\\', '"']
  else if c = '\\' then ['\\', '\\']
  else if c = '\n' then ['\\', 'n']
  else if c = '\r' then ['\\', 'r']
  else if c = '\t' then ['\\', 't']
  else if c = '\x08' then ['\\', 'b']
  else if c = '\x0c' then ['\\', 'f']
  else
    let n := c.toNat
    if 0x20 ≤ n ∧ n < 0x7f then [c]
    else if n < 0x10000 then unitEscape n
    else
      unitEscape (0xd800 + (n - 0x10000) / 0x400) ++ unitEscape (0xdc00 + (n - 0x10000) % 0x400)

def writeString (s : String) : List Char :=
  '"' :: s.toList.flatMap escapeChar ++ ['"']

def Layout.lineBreak (layout : Layout) (depth : Nat) : List Char :=
  match layout with
  | .oneLine => []
  | .indented width => '\n' :: List.replicate (width * depth) ' '

def Layout.comma (layout : Layout) (depth : Nat) : List Char :=
  match layout with
  | .oneLine => [',', ' ']
  | .indented _ => ',' :: layout.lineBreak depth

mutual

def write (layout : Layout) (depth : Nat) : Json → List Char
  | .null => ['n', 'u', 'l', 'l']
  | .bool true => ['t', 'r', 'u', 'e']
  | .bool false => ['f', 'a', 'l', 's', 'e']
  | .int n => Text.signedDigits n
  | .float x => x.render names
  | .string s => writeString s
  | .array [] => ['[', ']']
  | .array (item :: items) =>
    '[' :: layout.lineBreak (depth + 1) ++ write layout (depth + 1) item ++
      writeItems layout (depth + 1) items ++ layout.lineBreak depth ++ [']']
  | .object [] => ['\x7b', '\x7d']
  | .object ((key, value) :: fields) =>
    '\x7b' :: layout.lineBreak (depth + 1) ++ writeString key ++ ':' :: ' ' ::
      write layout (depth + 1) value ++ writeFields layout (depth + 1) fields ++
      layout.lineBreak depth ++ ['\x7d']

/-- The items after the first, each with the comma before it. -/
def writeItems (layout : Layout) (depth : Nat) : List Json → List Char
  | [] => []
  | item :: items =>
    layout.comma depth ++ write layout depth item ++ writeItems layout depth items

def writeFields (layout : Layout) (depth : Nat) : List (String × Json) → List Char
  | [] => []
  | (key, value) :: fields =>
    layout.comma depth ++ writeString key ++ ':' :: ' ' :: write layout depth value ++
      writeFields layout depth fields

end

def toText (layout : Layout) (value : Json) : String :=
  String.ofList (write layout 0 value)

end FlowGraph.Json
