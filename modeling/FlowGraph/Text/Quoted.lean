import FlowGraph.Text.Digits
import FlowGraph.Text.Printable

/-! Text as messages show it: between quotes, with everything invisible escaped. -/

namespace FlowGraph.Text

/-- Single quotes stand around a text, unless it holds a single quote and no double one. -/
def quoteMark (s : List Char) : Char :=
  if s.contains '\x27' && !s.contains '"' then '"' else '\x27'

/-- An invisible character is shown by its code point, in the shortest of three forms. -/
def codePoint (c : Char) : List Char :=
  let n := c.toNat
  if n < 0x100 then '\\' :: 'x' :: hexDigits 2 n
  else if n < 0x10000 then '\\' :: 'u' :: hexDigits 4 n
  else '\\' :: 'U' :: hexDigits 8 n

def shown (mark c : Char) : List Char :=
  if c = mark ∨ c = '\\' then ['\\', c]
  else if c = '\n' then ['\\', 'n']
  else if c = '\r' then ['\\', 'r']
  else if c = '\t' then ['\\', 't']
  else if isPrintable c then [c]
  else codePoint c

def quotedChars (s : List Char) : List Char :=
  let mark := quoteMark s
  mark :: s.flatMap (shown mark) ++ [mark]

def quoted (s : String) : String :=
  String.ofList (quotedChars s.toList)

end FlowGraph.Text
