import FlowGraph.Definition.Encode
import FlowGraph.Files.Disk
import FlowGraph.Json.Writer
import FlowGraph.Notice

/-! Saving a graph as JSON. The text goes to a temporary file, which then takes the place of the
target; so the target is written completely or not at all. -/

namespace FlowGraph

def jsonText (g : Graph) (indent : Option Int) : String :=
  Json.toText (Json.Layout.ofIndent indent) (Definition.encode g)

def defaultIndent : Option Int := some 4

def jsonSuffix : String := ".json"

/-- A receiver of paths fails with an error of type `ε`. -/
inductive SaveError (ε : Type) where
  | unwritable (target : Files.Path) (fault : Files.Fault)
  /-- The fault comes out as it is: no file can have the path, or the temporary file stays. -/
  | badPath (fault : Files.Fault)
  | receiver (error : ε)

structure Saving (ε : Type) where
  notices : List Notice := []
  received : List String := []
  result : Except (SaveError ε) Files.Path

variable {ε : Type}

def SaveError.ofFault (target : Files.Path) (fault : Files.Fault) : SaveError ε :=
  if fault.reason = .nulCharacter then .badPath fault else .unwritable target fault

def saveTarget (path : String) : Files.Path :=
  Files.Path.ofString (path ++ jsonSuffix)

/-- After a fault of the system the temporary file is deleted, if it is there. A path that no file
can have is no fault of the system, and then the temporary file stays. -/
def giveUp (target temporary : Files.Path) (fault : Files.Fault) :
    Files.Disk (SaveError ε) := do
  if fault.reason = .nulCharacter then return .badPath fault
  else match ← Files.Disk.status temporary with
    | .ok (some _) =>
      match ← Files.Disk.delete temporary with
      | .ok () => return .unwritable target fault
      | .error other => return .badPath other
    | _ => return .unwritable target fault

/-- Writes the temporary file and moves it to the target. -/
def replaceFile (target : Files.Path) (content : List UInt8) :
    Files.Disk (Except (SaveError ε) Unit) := do
  match ← Files.Disk.createTemporary target with
  | .error fault => return .error (.ofFault target fault)
  | .ok temporary =>
    match ← Files.Disk.write temporary content with
    | .error fault => return .error (← giveUp target temporary fault)
    | .ok () =>
      match ← Files.Disk.rename temporary target with
      | .error fault => return .error (← giveUp target temporary fault)
      | .ok () => return .ok ()

/-- The receiver gets the path as it was given. -/
def save (g : Graph) (path : String) (receiver : Option (String → Option ε)) :
    Files.Disk (Saving ε) := do
  let target := saveTarget path
  match ← replaceFile target (Text.Utf8.encode (jsonText g defaultIndent).toList) with
  | .error error => return { result := .error error }
  | .ok () =>
    let notices := [.saved g.name target]
    match receiver with
    | none => return ⟨notices, [], .ok target⟩
    | some r =>
      match r path with
      | none => return ⟨notices, [path], .ok target⟩
      | some error => return ⟨notices, [path], .error (.receiver error)⟩

end FlowGraph
