import FlowGraph.Json.Basic

/-! What is wrong with a text that is not JSON, and where. -/

namespace FlowGraph.Json

inductive Cause where
  | byteOrderMark
  | value
  | propertyName
  | colon
  | comma
  | extraData
  | unterminatedString
  | controlCharacter
  | escape
  | unicodeEscape
  | tooManyDigits (count : Nat)
  deriving DecidableEq, Repr

/-- `rest` is the text that was left where the error arose. -/
structure ReadError where
  cause : Cause
  rest : List Char
  deriving DecidableEq, Repr

def digitLimit : Nat := 4300

def Cause.message : Cause → String
  | .byteOrderMark => "Unexpected UTF-8 BOM (decode using utf-8-sig)"
  | .value => "Expecting value"
  | .propertyName => "Expecting property name enclosed in double quotes"
  | .colon => "Expecting ':' delimiter"
  | .comma => "Expecting ',' delimiter"
  | .extraData => "Extra data"
  | .unterminatedString => "Unterminated string starting at"
  | .controlCharacter => "Invalid control character at"
  | .escape => "Invalid \\escape"
  | .unicodeEscape => "Invalid \\uXXXX escape"
  | .tooManyDigits count =>
    s!"Exceeds the limit ({digitLimit} digits) for integer string conversion: value has " ++
      s!"{count} digits; use sys.set_int_max_str_digits() to increase the limit"

/-- Line and column of the character after `before`, both from 1. -/
def lineAndColumn (before : List Char) : Nat × Nat :=
  (before.count '\n' + 1, (before.reverse.takeWhile (· ≠ '\n')).length + 1)

def ReadError.message (e : ReadError) (text : List Char) : String :=
  match e.cause with
  | .tooManyDigits _ => e.cause.message
  | _ =>
    let offset := text.length - e.rest.length
    let (line, column) := lineAndColumn (text.take offset)
    s!"{e.cause.message}: line {line} column {column} (char {offset})"

end FlowGraph.Json
