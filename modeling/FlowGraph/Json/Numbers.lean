import FlowGraph.Json.ReadError

/-! Reading JSON numbers. -/

namespace FlowGraph.Json

def splitDigits (s : List Char) : List Char × List Char :=
  (s.takeWhile Text.isDigit, s.dropWhile Text.isDigit)

def readDigits (s : List Char) : Option (List Char × List Char) :=
  match splitDigits s with
  | ([], _) => none
  | found => some found

def readFraction : List Char → Option (List Char × List Char)
  | '.' :: rest => readDigits rest
  | _ => none

/-- Whether a power is negative, and the text after its sign. -/
def readPowerSign : List Char → Bool × List Char
  | '-' :: rest => (true, rest)
  | '+' :: rest => (false, rest)
  | rest => (false, rest)

def applySign (negative : Bool) (n : Int) : Int :=
  if negative then -n else n

def readPower : List Char → Option (Int × List Char)
  | c :: rest =>
    if c = 'e' ∨ c = 'E' then
      let (negative, rest) := readPowerSign rest
      (readDigits rest).map fun (digits, after) =>
        (applySign negative (Text.decimalValue digits), after)
    else none
  | [] => none

/-- The whole part of a number: a zero, or digits that do not start with one. -/
def readWhole : List Char → Option (List Char × List Char)
  | '0' :: rest => some (['0'], rest)
  | s => readDigits s

def readSign : List Char → Bool × List Char
  | '-' :: rest => (true, rest)
  | rest => (false, rest)

/-- A number from its parts. Without a fraction and a power it is an integer. -/
def makeNumber (s : List Char) (negative : Bool) (whole rest : List Char) :
    Option (List Char × List Char) → Option (Int × List Char) → Except ReadError (Json × List Char)
  | none, none =>
    if digitLimit < whole.length then .error ⟨.tooManyDigits whole.length, s⟩
    else .ok (.int (applySign negative (Text.decimalValue whole)), rest)
  | fraction, power =>
    let places := fraction.elim [] (·.1)
    let afterFraction := fraction.elim rest (·.2)
    let exponent := power.elim 0 (·.1) - places.length
    .ok (.float (Binary64.ofDecimal negative (Text.decimalValue (whole ++ places)) exponent),
      power.elim afterFraction (·.2))

/-- Reads the longest number at the start of `s`. -/
def readNumber (s : List Char) : Except ReadError (Json × List Char) :=
  match readWhole (readSign s).2 with
  | none => .error ⟨.value, s⟩
  | some (whole, rest) =>
    let fraction := readFraction rest
    makeNumber s (readSign s).1 whole rest fraction (readPower (fraction.elim rest (·.2)))

end FlowGraph.Json
