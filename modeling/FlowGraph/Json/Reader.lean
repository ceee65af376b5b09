import FlowGraph.Json.Numbers
import FlowGraph.Json.Strings

/-! Reading JSON text. A reader takes the text that is left and returns a value with the text
after it; an error points at the text that was left where it arose. -/

namespace FlowGraph.Json

def isSpace (c : Char) : Bool :=
  c == ' ' || c == '\t' || c == '\n' || c == '\r'

def skipSpace (s : List Char) : List Char :=
  s.dropWhile isSpace

/-- Reads a word that stands for a value, or else a number. -/
def readScalar (s : List Char) : Except ReadError (Json × List Char) :=
  match s with
  | 'n' :: 'u' :: 'l' :: 'l' :: rest => .ok (.null, rest)
  | 't' :: 'r' :: 'u' :: 'e' :: rest => .ok (.bool true, rest)
  | 'f' :: 'a' :: 'l' :: 's' :: 'e' :: rest => .ok (.bool false, rest)
  | 'N' :: 'a' :: 'N' :: rest => .ok (.float .nan, rest)
  | 'I' :: 'n' :: 'f' :: 'i' :: 'n' :: 'i' :: 't' :: 'y' :: rest =>
    .ok (.float (.infinity false), rest)
  | '-' :: 'I' :: 'n' :: 'f' :: 'i' :: 'n' :: 'i' :: 't' :: 'y' :: rest =>
    .ok (.float (.infinity true), rest)
  | _ => readNumber s

mutual

/-- Reads one value. The fuel bounds the steps; twice the length of the text is enough. -/
def readValue : Nat → List Char → Except ReadError (Json × List Char)
  | 0, s => .error ⟨.value, s⟩
  | fuel + 1, s =>
    match s with
    | '"' :: rest => do
      let (text, after) ← readString s rest
      return (.string text, after)
    | '[' :: rest =>
      match skipSpace rest with
      | ']' :: after => .ok (.array [], after)
      | inner => do
        let (items, after) ← readItems fuel inner
        return (.array items, after)
    | '\x7b' :: rest =>
      match skipSpace rest with
      | '\x7d' :: after => .ok (.object [], after)
      | inner => do
        let (fields, after) ← readFields fuel [] inner
        return (.object fields, after)
    | _ => readScalar s

def readItems : Nat → List Char → Except ReadError (List Json × List Char)
  | 0, s => .error ⟨.value, s⟩
  | fuel + 1, s => do
    let (item, after) ← readValue fuel s
    match skipSpace after with
    | ']' :: rest => return ([item], rest)
    | ',' :: rest =>
      let (items, after) ← readItems fuel (skipSpace rest)
      return (item :: items, after)
    | rest => throw ⟨.comma, rest⟩

/-- Reads the fields of an object, at least one, and its closing brace, and puts them to the
fields before them. -/
def readFields : Nat → List (String × Json) → List Char →
    Except ReadError (List (String × Json) × List Char)
  | 0, _, s => .error ⟨.propertyName, s⟩
  | fuel + 1, fields, s =>
    match s with
    | '"' :: rest => do
      let (key, after) ← readString s rest
      match skipSpace after with
      | ':' :: rest =>
        let (value, after) ← readValue fuel (skipSpace rest)
        let fields := put key value fields
        match skipSpace after with
        | '\x7d' :: rest => return (fields, rest)
        | ',' :: rest => readFields fuel fields (skipSpace rest)
        | rest => throw ⟨.comma, rest⟩
      | rest => throw ⟨.colon, rest⟩
    | _ => .error ⟨.propertyName, s⟩

end

def readAll (s : List Char) : Except ReadError Json :=
  match s with
  | '\ufeff' :: _ => .error ⟨.byteOrderMark, s⟩
  | _ => do
    let (value, after) ← readValue (2 * s.length + 2) (skipSpace s)
    match skipSpace after with
    | [] => return value
    | rest => throw ⟨.extraData, rest⟩

end FlowGraph.Json
