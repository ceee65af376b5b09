import FlowGraph.Files.Path

/-! What can go wrong with a file. Faults have the numbers and texts of the operating system. -/

namespace FlowGraph.Files

inductive Reason where
  | notFound
  | exists
  | notDirectory
  | isDirectory
  | nameTooLong
  | nulCharacter
  | other (number : Nat) (text : String)
  deriving DecidableEq, Repr

structure Fault where
  reason : Reason
  path : Path
  deriving DecidableEq, Repr

def Reason.number : Reason → Nat
  | .notFound => 2
  | .exists => 17
  | .notDirectory => 20
  | .isDirectory => 21
  | .nameTooLong => 36
  | .nulCharacter => 22
  | .other number _ => number

def Reason.text : Reason → String
  | .notFound => "No such file or directory"
  | .exists => "File exists"
  | .notDirectory => "Not a directory"
  | .isDirectory => "Is a directory"
  | .nameTooLong => "File name too long"
  | .nulCharacter => "embedded null byte"
  | .other _ text => text

def Fault.message (f : Fault) : String :=
  match f.reason with
  | .nulCharacter => f.reason.text
  | reason => s!"[Errno {reason.number}] {reason.text}: {Text.quoted f.path.text}"

end FlowGraph.Files
