import FlowGraph.Text.Digits

/-! Floating-point numbers of 53 bits. A decimal is read as the nearest of them, and a number is
written with the fewest digits that are read as that number again. -/

namespace FlowGraph

/-- A finite number is `mantissa * 2 ^ exponent`. -/
inductive Binary64 where
  | finite (negative : Bool) (mantissa : Nat) (exponent : Int)
  | infinity (negative : Bool)
  | nan
  deriving DecidableEq, Repr

namespace Binary64

def leastExponent : Int := -1074

def greatestExponent : Int := 971

/-- The quotient rounded to the nearest integer, a half to the even one. -/
def roundDiv (num den : Nat) : Nat :=
  let low := num / den
  let rest := 2 * (num % den)
  if rest < den ∨ rest = den ∧ low % 2 = 0 then low else low + 1

/-- The fraction `num / den * base ^ exponent` as numerator and denominator. -/
def scale (base num den : Nat) (exponent : Int) : Nat × Nat :=
  if exponent < 0 then (num, den * base.pow exponent.natAbs)
  else (num * base.pow exponent.natAbs, den)

def ofRatio (negative : Bool) (num den : Nat) : Binary64 :=
  if num = 0 then .finite negative 0 leastExponent
  else
    let guess := max leastExponent ((num.log2 : Int) - den.log2 - 52)
    let (n, d) := scale 2 num den (-guess)
    let exponent := if n / d < Nat.pow 2 52 ∧ leastExponent < guess then guess - 1 else guess
    let (n, d) := scale 2 num den (-exponent)
    let rounded := roundDiv n d
    let (mantissa, exponent) :=
      if rounded = Nat.pow 2 53 then (Nat.pow 2 52, exponent + 1) else (rounded, exponent)
    if greatestExponent < exponent then .infinity negative
    else .finite negative mantissa exponent

/-- The number nearest to `digits * 10 ^ exponent`. Far outside the range the answer is known
without the power of ten. -/
def ofDecimal (negative : Bool) (digits : Nat) (exponent : Int) : Binary64 :=
  let point := (Text.decimalDigits digits).length + exponent
  if digits = 0 ∨ point < -400 then .finite negative 0 leastExponent
  else if 400 < point then .infinity negative
  else
    let (num, den) := scale 10 digits 1 exponent
    ofRatio negative num den

/-- The place of the decimal point: `num / den` lies in `[10 ^ (point - 1), 10 ^ point)`. -/
def decimalPoint (num den : Nat) : Int :=
  if den ≤ num then (Text.decimalDigits (num / den)).length
  else
    let width := (Text.decimalDigits (den / num)).length
    if den ≤ num * Nat.pow 10 (width - 1) then 2 - width else 1 - width

/-- The reals that are read as `mantissa * 2 ^ exponent`, in units of `2 ^ (exponent - 2)`. Below
a power of two the neighbours lie closer. -/
def bounds (mantissa : Nat) (exponent : Int) : Nat × Nat :=
  (if mantissa = Nat.pow 2 52 ∧ leastExponent < exponent then 4 * mantissa - 1
    else 4 * mantissa - 2,
   4 * mantissa + 2)

/-- Whether `c * 10 ^ place` is read as `mantissa * 2 ^ exponent`. The ends of the interval
belong to it if the mantissa is even. -/
def readsBack (mantissa : Nat) (exponent : Int) (c : Nat) (place : Int) : Bool :=
  let (low, high) := bounds mantissa exponent
  let (cn, cd) := scale 10 c 1 place
  let (un, ud) := scale 2 1 1 (exponent - 2)
  let value := cn * ud
  let unit := un * cd
  if mantissa % 2 = 0 then low * unit ≤ value && value ≤ high * unit
  else low * unit < value && value < high * unit

/-- The decimal with digits down to `10 ^ place` that is nearest to the number, if one is read
as the number. Of two equally near the even one is taken. -/
def onGrid? (mantissa : Nat) (exponent : Int) (place : Int) : Option Nat :=
  let (vn, vd) := scale 2 mantissa 1 exponent
  let (n, d) := scale 10 vn vd (-place)
  let below := n / d
  let nearest := roundDiv n d
  let other := if nearest = below then below + 1 else below
  if readsBack mantissa exponent nearest place then some nearest
  else if readsBack mantissa exponent other place then some other
  else none

/-- Removes the zeros at the end, at most `fuel` of them. -/
def stripZeros : Nat → Nat → Int → Nat × Int
  | 0, c, place => (c, place)
  | fuel + 1, c, place => if c % 10 = 0 then stripZeros fuel (c / 10) (place + 1) else (c, place)

/-- The fewest digits that are read as `mantissa * 2 ^ exponent`, and the place of the last. -/
def shortest (mantissa : Nat) (exponent : Int) : Nat × Int :=
  let (vn, vd) := scale 2 mantissa 1 exponent
  let point := decimalPoint vn vd
  let found := (List.range 17).findSome? fun (count : Nat) =>
    let place := point - (count + 1)
    (onGrid? mantissa exponent place).map (·, place)
  match found with
  | some (c, place) => stripZeros 17 c place
  | none => (0, 0)

/-- The names that a format gives to the numbers without digits. -/
structure Names where
  infinity : String
  nan : String

/-- Digits with the decimal point in its place, from `0.0001` up to below `10 ^ 16`; otherwise
one digit before the point and a power of ten of at least two digits. -/
def layout (digits : List Char) (point : Int) : List Char :=
  let zeros (n : Int) := List.replicate n.toNat '0'
  if -4 < point ∧ point ≤ 16 then
    if point ≤ 0 then '0' :: '.' :: zeros (-point) ++ digits
    else
      let whole := digits.take point.toNat ++ zeros (point - digits.length)
      let rest := digits.drop point.toNat
      whole ++ '.' :: (if rest = [] then ['0'] else rest)
  else
    let power := Text.decimalDigits (point - 1).natAbs
    let fraction := digits.drop 1
    digits.take 1 ++ (if fraction = [] then [] else '.' :: fraction) ++
      'e' :: (if point - 1 < 0 then '-' else '+') ::
        (if power.length < 2 then '0' :: power else power)

def magnitude (mantissa : Nat) (exponent : Int) : List Char :=
  if mantissa = 0 then ['0', '.', '0']
  else
    let (c, place) := shortest mantissa exponent
    let digits := Text.decimalDigits c
    layout digits (digits.length + place)

def signed (negative : Bool) (s : List Char) : List Char :=
  if negative then '-' :: s else s

def render (names : Names) : Binary64 → List Char
  | .finite negative mantissa exponent => signed negative (magnitude mantissa exponent)
  | .infinity negative => signed negative names.infinity.toList
  | .nan => names.nan.toList

end Binary64

end FlowGraph
