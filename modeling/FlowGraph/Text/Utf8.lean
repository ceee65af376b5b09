import FlowGraph.Text.Digits

/-! UTF-8. Reading stops at the first byte that does not fit and reports the bytes of the
unfinished character before it. -/

namespace FlowGraph.Text

namespace Utf8

inductive Reason where
  | startByte
  | continuationByte
  | endOfData
  deriving DecidableEq, Repr

/-- The unreadable bytes start at `position`; the first of them is `byte`. -/
structure Fault where
  byte : UInt8
  position : Nat
  width : Nat
  reason : Reason
  deriving DecidableEq, Repr

def Reason.message : Reason → String
  | .startByte => "invalid start byte"
  | .continuationByte => "invalid continuation byte"
  | .endOfData => "unexpected end of data"

def Fault.message (f : Fault) : String :=
  let place :=
    if f.width = 1 then
      "byte 0x" ++ String.ofList (hexDigits 2 f.byte.toNat) ++ s!" in position {f.position}"
    else s!"bytes in position {f.position}-{f.position + f.width - 1}"
  s!"'utf-8' codec can't decode {place}: {f.reason.message}"

/-- A character of which `width` bytes have been read and `missing` are to come, the next
between `low` and `high`. -/
structure Pending where
  byte : UInt8
  width : Nat
  missing : Nat
  value : Nat
  low : Nat
  high : Nat

/-- What a first byte announces. The bounds of the second byte keep out overlong forms,
surrogates and values above the last code point. -/
def leading? (b : UInt8) : Option Pending :=
  let n := b.toNat
  if 0xc2 ≤ n ∧ n ≤ 0xdf then some ⟨b, 1, 1, n - 0xc0, 0x80, 0xbf⟩
  else if n = 0xe0 then some ⟨b, 1, 2, 0, 0xa0, 0xbf⟩
  else if n = 0xed then some ⟨b, 1, 2, 0xd, 0x80, 0x9f⟩
  else if 0xe1 ≤ n ∧ n ≤ 0xef then some ⟨b, 1, 2, n - 0xe0, 0x80, 0xbf⟩
  else if n = 0xf0 then some ⟨b, 1, 3, 0, 0x90, 0xbf⟩
  else if n = 0xf4 then some ⟨b, 1, 3, 4, 0x80, 0x8f⟩
  else if 0xf1 ≤ n ∧ n ≤ 0xf3 then some ⟨b, 1, 3, n - 0xf0, 0x80, 0xbf⟩
  else none

/-- Reads on from `position`, where the pending character starts or the next one will. -/
def decodeFrom (position : Nat) : Option Pending → List UInt8 → Except Fault (List Char)
  | none, [] => .ok []
  | some p, [] => .error ⟨p.byte, position, p.width, .endOfData⟩
  | none, b :: rest =>
    if b.toNat < 0x80 then
      return Char.ofNat b.toNat :: (← decodeFrom (position + 1) none rest)
    else match leading? b with
      | some p => decodeFrom position (some p) rest
      | none => .error ⟨b, position, 1, .startByte⟩
  | some p, b :: rest =>
    if p.low ≤ b.toNat ∧ b.toNat ≤ p.high then
      let value := 64 * p.value + b.toNat % 64
      if p.missing = 1 then
        return Char.ofNat value :: (← decodeFrom (position + p.width + 1) none rest)
      else
        decodeFrom position (some ⟨p.byte, p.width + 1, p.missing - 1, value, 0x80, 0xbf⟩) rest
    else .error ⟨p.byte, position, p.width, .continuationByte⟩

def decode (bytes : List UInt8) : Except Fault (List Char) :=
  decodeFrom 0 none bytes

def encodeChar (c : Char) : List UInt8 :=
  let n := c.toNat
  if n < 0x80 then [n.toUInt8]
  else if n < 0x800 then [(0xc0 + n / 64).toUInt8, (0x80 + n % 64).toUInt8]
  else if n < 0x10000 then
    [(0xe0 + n / 4096).toUInt8, (0x80 + n / 64 % 64).toUInt8, (0x80 + n % 64).toUInt8]
  else
    [(0xf0 + n / 262144).toUInt8, (0x80 + n / 4096 % 64).toUInt8, (0x80 + n / 64 % 64).toUInt8,
     (0x80 + n % 64).toUInt8]

def encode (s : List Char) : List UInt8 :=
  s.flatMap encodeChar

end Utf8

end FlowGraph.Text
