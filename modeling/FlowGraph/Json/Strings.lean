import FlowGraph.Json.ReadError

/-! Reading JSON strings. -/

namespace FlowGraph.Json

def unescape? : Char → Option Char
  | '"' => some '"'
  | '\\' => some '\\'
  | '/' => some '/'
  | 'b' => some '\x08'
  | 'f' => some '\x0c'
  | 'n' => some '\n'
  | 'r' => some '\r'
  | 't' => some '\t'
  | _ => none

def hexUnit? (a b c d : Char) : Option Nat := do
  return 4096 * (← Text.hexValue? a) + 256 * (← Text.hexValue? b) + 16 * (← Text.hexValue? c) +
    (← Text.hexValue? d)

/-- The code units of a string up to its closing quote. Escapes may stand for surrogates.
`opening` is the text from the opening quote on. -/
def readUnits (opening : List Char) : List Char → Except ReadError (List Nat × List Char)
  | [] => .error ⟨.unterminatedString, opening⟩
  | '"' :: rest => .ok ([], rest)
  | '\\' :: rest =>
    match rest with
    | [] => .error ⟨.unterminatedString, opening⟩
    | 'u' :: a :: b :: c :: d :: e :: more =>
      match hexUnit? a b c d with
      | some n => do
        let (units, after) ← readUnits opening (e :: more)
        return (n :: units, after)
      | none => .error ⟨.unicodeEscape, rest⟩
    | 'u' :: _ => .error ⟨.unicodeEscape, rest⟩
    | e :: more =>
      match unescape? e with
      | some c => do
        let (units, after) ← readUnits opening more
        return (c.toNat :: units, after)
      | none => .error ⟨.escape, '\\' :: rest⟩
  | c :: rest =>
    if c.toNat < 0x20 then .error ⟨.controlCharacter, c :: rest⟩
    else do
      let (units, after) ← readUnits opening rest
      return (c.toNat :: units, after)

def isHighSurrogate (n : Nat) : Bool := 0xd800 ≤ n && n < 0xdc00

def isLowSurrogate (n : Nat) : Bool := 0xdc00 ≤ n && n < 0xe000

def replacement : Char := '\ufffd'

/-- A high and a low surrogate next to each other are one character. One that stands alone is
no character, and the replacement character takes its place. -/
def joinSurrogates : List Nat → List Char
  | [] => []
  | [n] => [if isHighSurrogate n || isLowSurrogate n then replacement else Char.ofNat n]
  | m :: n :: rest =>
    if isHighSurrogate m && isLowSurrogate n then
      Char.ofNat (0x10000 + 0x400 * (m - 0xd800) + (n - 0xdc00)) :: joinSurrogates rest
    else
      (if isHighSurrogate m || isLowSurrogate m then replacement else Char.ofNat m) ::
        joinSurrogates (n :: rest)

/-- Reads a string of which the opening quote has been taken. -/
def readString (opening rest : List Char) : Except ReadError (String × List Char) := do
  let (units, after) ← readUnits opening rest
  return (String.ofList (joinSurrogates units), after)

end FlowGraph.Json
