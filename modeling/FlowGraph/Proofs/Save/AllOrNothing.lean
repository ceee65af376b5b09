import FlowGraph.Proofs.Json.Plain
import FlowGraph.Proofs.Load.FixedPoint
import FlowGraph.Proofs.Save.Replace
import FlowGraph.Proofs.Save.Target
import FlowGraph.Proofs.Text.Newlines
import FlowGraph.Proofs.Text.Utf8

/-! Saving a graph. Whatever fails, either the target holds the text of the graph and nothing else
has changed, or nothing has changed at all; and the target is read back as the text is. -/

namespace FlowGraph

open Files

variable {ε : Type} {g : Graph} {path : String} {t t' : Tree} {s : Saving ε}

/-- All operations may fail but those that take the temporary file away again. -/
def exceptCleanup : Operation → Prop
  | .status _ | .delete _ => False
  | _ => True

/-- The text of the graph is in the target, and that is all that has changed. -/
structure Saved (g : Graph) (path : String) (receiver : Option (String → Option ε)) (t t' : Tree)
    (s : Saving ε) : Prop where
  home : t'.home = t.home
  written : ∃ place, t.locate (saveTarget path) = .ok place ∧
    t'.find? place = some (.file (Text.Utf8.encode (jsonText g defaultIndent).toList)) ∧
    ∀ q, q ≠ place → t'.find? q = t.find? q
  received : s.received = receiver.toList.map fun _ => path
  result : s.result = match receiver.bind (· path) with
    | none => .ok (saveTarget path)
    | some error => .error (.receiver error)
  readBack : g.Readable → ∃ g', ofJsonText (jsonText g defaultIndent) = .ok g' ∧
    ((loadFile (saveTarget path) none none).run t').1.result = (.ok g' : Except (LoadError ε) Graph)

/-- A fault of the system: all is as it was. -/
structure Unsaved (path : String) (t t' : Tree) (s : Saving ε) : Prop where
  same : t' = t
  notices : s.notices = []
  received : s.received = []
  result : ∃ fault, fault.reason ≠ .nulCharacter ∧
    s.result = .error (.unwritable (saveTarget path) fault)

/-- No file can have the path: the fault comes out as it is, and every file stays as it was. -/
structure Unnameable (path : String) (t t' : Tree) (s : Saving ε) : Prop where
  nul : '\x00' ∈ path.toList ∨ ∃ part ∈ t.home, '\x00' ∈ part.toList
  keeps : ∀ q e, t.find? q = some e → t'.find? q = some e
  received : s.received = []
  result : ∃ fault, fault.reason = .nulCharacter ∧ s.result = .error (.badPath fault)

/-- No line end of the text is taken for another when it is read. -/
theorem unifyNewlines_jsonText (g : Graph) (indent : Option Int) :
    Text.unifyNewlines (jsonText g indent).toList = (jsonText g indent).toList := by
  have hreturn : '\r' ∉ (jsonText g indent).toList := fun h =>
    absurd (Json.plain_toText _ _ _ h) (by decide)
  exact (Text.Returned.refl _).unifyNewlines_eq hreturn

theorem run_loadFile (p : Path) (t : Tree) : ((loadFile p none none).run t).1 =
    (loadContent p (t.read p) none none : Loading ε) :=
  rfl

theorem loadFile_target {g' : Graph} {place : Place}
    (hplace : t.locate (saveTarget path) = .ok place)
    (hfound : t.find? place = some (.file (Text.Utf8.encode (jsonText g defaultIndent).toList)))
    (hread : ofJsonText (jsonText g defaultIndent) = .ok g') :
    ((loadFile (saveTarget path) none none).run t).1.result =
      (.ok g' : Except (LoadError ε) Graph) := by
  have hbytes : t.read (saveTarget path) =
      .ok (Text.Utf8.encode (jsonText g defaultIndent).toList) := by
    simp only [Tree.read, hplace, hfound]
  rw [run_loadFile, hbytes]
  simp only [loadContent, Text.Utf8.decode_encode, unifyNewlines_jsonText, loadText,
    suffix_saveTarget, if_false]
  obtain ⟨d, htext, hdecode⟩ := decode_of_ofJsonText hread
  simp only [htext, loadDefinition, hdecode]
  rfl

/-- A save follows the end that replacing the target came to. -/
theorem save_runs {receiver : Option (String → Option ε)} {mayFail : Operation → Prop}
    (h : (save g path receiver).Runs mayFail t s t') : ∃ r : Except (SaveError ε) Unit,
      (replaceFile (saveTarget path) (Text.Utf8.encode (jsonText g defaultIndent).toList)).Runs
        mayFail t r t' ∧
      s = match r with
        | .error error => { result := .error error }
        | .ok () => {
          notices := [.saved g.name (saveTarget path)]
          received := receiver.toList.map fun _ => path
          result := match receiver.bind (· path) with
            | none => .ok (saveTarget path)
            | some error => .error (.receiver error) } := by
  obtain ⟨r, u, hreplace, hend⟩ := Disk.runs_bind_iff.mp h
  cases r with
  | error error =>
    obtain ⟨rfl, rfl⟩ := Disk.runs_pure_iff.mp hend
    exact ⟨_, hreplace, rfl⟩
  | ok =>
    cases receiver with
    | none =>
      obtain ⟨rfl, rfl⟩ := Disk.runs_pure_iff.mp hend
      exact ⟨_, hreplace, rfl⟩
    | some r =>
      cases hr : r path with
      | none =>
        simp only [hr] at hend
        obtain ⟨rfl, rfl⟩ := Disk.runs_pure_iff.mp hend
        exact ⟨_, hreplace, by simp [hr]⟩
      | some error =>
        simp only [hr] at hend
        obtain ⟨rfl, rfl⟩ := Disk.runs_pure_iff.mp hend
        exact ⟨_, hreplace, by simp [hr]⟩

theorem saved_of_replaced {receiver : Option (String → Option ε)} {goal : Place}
    (hgoal : t.locate (saveTarget path) = .ok goal) (hfile : t.find? goal ≠ some .directory)
    (notices : List Notice) : Saved g path receiver t
      (t.put goal (.file (Text.Utf8.encode (jsonText g defaultIndent).toList)))
      ⟨notices, receiver.toList.map (fun _ => path), match receiver.bind (· path) with
        | none => .ok (saveTarget path)
        | some error => .error (.receiver error)⟩ where
  home := rfl
  written := ⟨goal, hgoal, Tree.find?_put_self hfile, fun q hq => Tree.find?_put_of_ne hq⟩
  received := rfl
  result := rfl
  readBack := by
    intro hg
    have hread := (ofJsonText_jsonText hg defaultIndent).1
    obtain ⟨stem, hlast⟩ := getLast?_saveTarget path
    have hplace := Tree.locate_put hfile
      (.file (Text.Utf8.encode (jsonText g defaultIndent).toList)) hlast (ne_dots stem) hgoal
    exact ⟨_, hread, loadFile_target hplace (Tree.find?_put_self hfile) hread⟩

theorem not_mem_of_locate {p : Path} {place : Place} (h : t.locate p = .ok place) :
    '\x00' ∉ p.text.toList := by
  intro hnul
  rw [Tree.locate, if_pos (by simpa using hnul)] at h
  cases h

theorem not_mem_of_createTemporary {target temporary : Path}
    (h : (t.createTemporary target).1 = .ok temporary) :
    '\x00' ∉ (t.freePath target).text.toList := by
  unfold Tree.createTemporary at h
  cases hplace : t.locate (t.freePath target) with
  | ok place => exact not_mem_of_locate hplace
  | error reason =>
    simp only [hplace] at h
    cases h

/-- However the operations of a save go, as long as the temporary file can be taken away: the
target is written, received and read back, and nothing else changes; or nothing changes at all and
the fault is told; or no file can have the path. And if no operation fails, there is a name for the
temporary file and a place for the target, then the graph is saved. -/
theorem save_all_or_nothing (g : Graph) (path : String) (receiver : Option (String → Option ε))
    (t : Tree) :
    (∀ s t', (save g path receiver).Runs exceptCleanup t s t' →
      Saved g path receiver t t' s ∨ Unsaved path t t' s ∨ Unnameable path t t' s) ∧
    ((∃ temporary, (t.createTemporary (saveTarget path)).1 = .ok temporary) →
      (∃ place, t.locate (saveTarget path) = .ok place ∧ t.find? place ≠ some .directory) →
      Saved g path receiver t ((save g path receiver).run t).2
        ((save g path receiver).run t).1) := by
  obtain ⟨stem, hlast⟩ := getLast?_saveTarget path
  constructor
  · intro s t' h
    obtain ⟨r, hreplace, rfl⟩ := save_runs h
    cases replaceFile_runs (fun _ => id) (fun _ => id) hlast (ne_dots stem) hreplace with
    | replaced hgoal hfile => exact .inl (saved_of_replaced hgoal hfile _)
    | kept hnul => exact .inr (.inl ⟨rfl, rfl, rfl, _, hnul, rfl⟩)
    | impossible hnul hcause hkeeps =>
      refine .inr (.inr ⟨?_, hkeeps, rfl, _, hnul, rfl⟩)
      exact hcause.elim (fun htarget => .inl (nul_of_saveTarget htarget)) nul_of_freePath
  · rintro ⟨temporary, htemporary⟩ ⟨place, hplace, hfile⟩
    -- A run in which nothing may fail but by the tree itself.
    have hrun : (save g path receiver).Runs (fun _ => False) t _ _ := Disk.runs_run _ t
    obtain ⟨r, hreplace, hs⟩ := save_runs hrun
    generalize ((save g path receiver).run t).2 = t' at hreplace
    rw [hs]
    cases replaceFile_runs (fun _ => id) (fun _ => id) hlast (ne_dots stem) hreplace with
    | replaced hgoal hfile => exact saved_of_replaced hgoal hfile _
    | kept hnul hcause =>
      rcases hcause with ⟨-, ⟨⟩⟩ | hcreate | hblocked
      · cases hcreate.symm.trans htemporary
      · exact absurd (hblocked place hplace) hfile
    | impossible hnul hcause =>
      rcases hcause with hcause | hcause
      · exact absurd hcause (not_mem_of_locate hplace)
      · exact absurd hcause (not_mem_of_createTemporary htemporary)

/-- There is an older target, and a file with the first name for a temporary one. -/
def busyTree : Tree where
  home := ["work"]
  entries := [(["work", "out"], .directory), (["work", "out", "g.json"], .file [123, 125]),
    (["work", "out", ".g.json.00000000.tmp"], .file [0])]

def finishedSave : Saving String × Tree :=
  (save sampleGraph "out/g" (some fun _ => some "no")).run busyTree

/-- The temporary file is written and cannot be moved. -/
def stoppedSave : Saving String × Tree :=
  (save sampleGraph "out/g" (some fun _ => some "no")).runAgainst
    (fun
      | .rename _ target => some ⟨.other 28 "No space left on device", target⟩
      | _ => none) busyTree

theorem stoppedSave_runs : (save sampleGraph "out/g" (some fun _ => some "no")).Runs exceptCleanup
    busyTree stoppedSave.1 stoppedSave.2 := by
  refine Disk.runs_runAgainst (fun o fault h => ?_) _ busyTree
  cases o <;> cases h
  exact ⟨trivial, nofun⟩

theorem busyTree_saved_or_kept : sampleGraph.Readable ∧
    Saved sampleGraph "out/g" (some fun _ => some "no") busyTree finishedSave.2 finishedSave.1 ∧
    Unsaved "out/g" busyTree stoppedSave.2 stoppedSave.1 := by
  have hcreate : (busyTree.createTemporary (saveTarget "out/g")).1 =
      .ok ⟨"/", ["work", "out", ".g.json.00000001.tmp"]⟩ := by decide
  have hplace : busyTree.locate (saveTarget "out/g") = .ok ["work", "out", "g.json"] := by
    decide
  have hfile : busyTree.find? ["work", "out", "g.json"] ≠ some .directory := by decide
  have hreceived : stoppedSave.1.received = [] := by decide
  have hplain : ¬ ('\x00' ∈ "out/g".toList ∨ ∃ part ∈ busyTree.home, '\x00' ∈ part.toList) := by
    decide
  obtain ⟨hends, hsaves⟩ :=
    save_all_or_nothing sampleGraph "out/g" (some fun _ => some "no") busyTree
  refine ⟨sampleGraph_readable, hsaves ⟨_, hcreate⟩ ⟨_, hplace, hfile⟩, ?_⟩
  rcases hends _ _ stoppedSave_runs with h | h | h
  · cases hreceived.symm.trans h.received
  · exact h
  · exact absurd h.nul hplain

end FlowGraph
