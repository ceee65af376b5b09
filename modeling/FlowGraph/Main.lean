import FlowGraph.CommandLine.Run

/-! The command on a real disk. -/

namespace FlowGraph.Files

def Reason.ofError : IO.Error → Reason
  | .noFileOrDirectory _ number text => .other number.toNat text
  | .alreadyExists _ number text => .other number.toNat text
  | .permissionDenied _ number text => .other number.toNat text
  | .inappropriateType _ number text => .other number.toNat text
  | .invalidArgument _ number text => .other number.toNat text
  | .resourceExhausted _ number text => .other number.toNat text
  | unnumbered => .other 0 (toString unnumbered)

/-- The reason with a number, where that is one of the known ones. -/
def Reason.known : Reason → Reason
  | .other number text =>
    ([.notFound, .exists, .notDirectory, .isDirectory, .nameTooLong].find?
      (·.number == number)).getD (.other number text)
  | reason => reason

def attempt {α : Type} (p : Path) (action : IO α) : IO (Except Fault α) := do
  match ← action.toBaseIO with
  | .ok a => return .ok a
  | .error error => return .error ⟨(Reason.ofError error).known, p⟩

def kindOnDisk (p : Path) : IO (Option Kind) := do
  match ← (IO.FS.realPath p.text).toBaseIO with
  | .error _ => return none
  | .ok place =>
    if ← place.isDir then return some .directory
    else if ← place.pathExists then return some .file
    else return none

/-- Creates the first of some temporary files whose name is not in use. -/
def createOnDisk (target : Path) : IO (Except Fault Path) := do
  let home := Path.ofString (← IO.currentDir).toString
  for number in [0:10000] do
    let p := Tree.temporaryPath home.parts target number
    match ← attempt p (IO.FS.Handle.mk p.text .writeNew) with
    | .ok _ => return .ok p
    | .error fault => if fault.reason ≠ .exists then return .error fault
  return .error ⟨.exists, target⟩

def Operation.onDisk : (o : Operation) → IO o.Answer
  | .status p => attempt p (kindOnDisk p)
  | .read p => attempt p do return (← IO.FS.readBinFile p.text).toList
  | .write p content => attempt p (IO.FS.writeBinFile p.text ⟨content.toArray⟩)
  | .makeDirectory p => attempt p (IO.FS.createDir p.text)
  | .createTemporary target => createOnDisk target
  | .rename source target => attempt target (IO.FS.rename source.text target.text)
  | .delete p => attempt p (IO.FS.removeFile p.text)

def Disk.onDisk {α : Type} : Disk α → IO α
  | .done a => return a
  | .step o next => do (next (← o.onDisk)).onDisk

end FlowGraph.Files

def main (words : List String) : IO UInt32 := do
  let finish ← (FlowGraph.CommandLine.run words).onDisk
  (← IO.getStdout).putStr finish.output
  (← IO.getStderr).putStr finish.errors
  match finish.ending with
  | .ok status => return status.toUInt32
  | .error unhandled =>
    (← IO.getStderr).putStrLn unhandled.message
    return 1
