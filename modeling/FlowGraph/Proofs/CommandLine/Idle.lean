import FlowGraph.Proofs.CommandLine.Ending
import Mathlib.Data.String.Basic

/-! What the command leaves alone. It makes no directory and writes no file before there is a graph
to export; so a run that finds no input, cannot load it or lists it changes nothing. -/

namespace FlowGraph.CommandLine

open Files

variable {mayFail : Operation → Prop} {s : Settings} {t t' u : Tree} {verdict : Verdict}
  {finish : Finish} {g : Graph}

/-- The input is not there or could not be loaded. -/
def Verdict.NoGraph : Verdict → Prop
  | .failed (.missing _) | .failed (.loading _) => True
  | .done | .failed (.exporting ..) | .unhandled _ => False

/-- Only where a graph is loaded to be exported is anything changed. -/
theorem reaches_of_ne (h : Course mayFail s t verdict t') (hne : t' ≠ t) :
    ¬ verdict.NoGraph ∧ ∃ g directory made u, Reaches mayFail s t g directory made u := by
  cases h with
  | unchecked | missing | unloaded | listed | nowhere => exact absurd rfl hne
  | unmade h => exact ⟨id, _, _, _, _, h⟩
  | unexported h => exact ⟨id, _, _, _, _, h⟩
  | exported h => exact ⟨id, _, _, _, _, h⟩

theorem missing_of_status (hstatus : ¬ mayFail (.status s.source))
    (hfile : t.status s.source ≠ .ok (some .file)) (h : Course mayFail s t verdict t') :
    verdict.ending = .ok 1 ↔ t.locate s.source ≠ .error .nameTooLong := by
  cases h with
  | unchecked h =>
    refine iff_of_false (by rintro ⟨⟩) fun hshort => hshort ?_
    exact status_error_iff.mp ⟨_, (status_of_check hstatus h).symm⟩
  | missing h => exact iff_of_true rfl (locate_of_status (status_of_check hstatus h).symm)
  | unloaded h | listed h | nowhere h => exact absurd (status_of_loads h) hfile
  | unmade h | unexported h | exported h => exact absurd (status_of_loads h.loads) hfile

theorem unloaded_of_gives (hstatus : ¬ mayFail (.status s.source))
    (hread : ¬ mayFail (.read s.source)) (hfile : t.status s.source = .ok (some .file))
    (hgives : ∀ g, ¬ s.Gives t g) (h : Course mayFail s t verdict t') :
    verdict.ending = .ok 1 := by
  cases h with
  | unchecked h => cases (status_of_check hstatus h).trans hfile
  | missing | unloaded => rfl
  | listed h | nowhere h => exact absurd (result_of_loads hread h) (hgives _)
  | unmade h | unexported h | exported h =>
    exact absurd (result_of_loads hread h.loads) (hgives _)

theorem status_of_gives (h : s.Gives t g) : t.status s.source = .ok (some .file) := by
  cases hstatus : t.status s.source with
  | error fault =>
    have hlong := status_error_iff.mp ⟨fault, hstatus⟩
    rw [Settings.Gives, Tree.read, hlong] at h
    cases h
  | ok kind =>
    by_cases hkind : kind = some .file
    · rw [hkind]
    · exact absurd h (not_gives_of_status hstatus hkind g)

/-- A graph that is to be listed is summarized, and that is all. -/
theorem listed_of_gives (hstatus : ¬ mayFail (.status s.source))
    (hread : ¬ mayFail (.read s.source)) (hgives : s.Gives t g) (hlist : s.list = true)
    (h : (runSettings s).Runs mayFail t finish t') :
    finish.ending = .ok 0 ∧ finish.output = summary s.source g := by
  obtain ⟨found, u, hlook, hchecked⟩ := Disk.runs_bind_iff.mp h
  have hfound := Disk.runs_single_iff.mp hlook
  obtain ⟨rfl, -⟩ := hfound.status_cases
  obtain rfl := (status_of_check hstatus hfound).trans (status_of_gives hgives)
  obtain ⟨loading, v, hload, hend⟩ := Disk.runs_bind_iff.mp hchecked
  obtain ⟨content, hcontent, -⟩ := runs_loadFile_iff.mp hload
  obtain ⟨rfl, -⟩ := hcontent.read_cases
  have hresult : loading.result = .ok g :=
    (result_of_loads hread ⟨hfound, loading, hload, rfl⟩).symm.trans hgives
  simp only [hresult, if_pos hlist] at hend
  obtain ⟨rfl, rfl⟩ := Disk.runs_pure_iff.mp hend
  exact ⟨rfl, rfl⟩

/-- A word that does not begin with a hyphen is the input. -/
theorem parse_single {word : String} (h : ∀ rest, word.toList ≠ '-' :: rest) :
    parse [word] = .ok { input := word } := by
  have hdashes : word ≠ "--" := by
    rintro rfl
    exact h ['-'] rfl
  have hargument : classify word = .ok .argument := by
    unfold classify
    split
    · next hword => exact absurd hword (h _)
    · rfl
    · next hword => exact absurd hword (h _)
    · rfl
  simp only [parse, classifyAll, if_neg hdashes, hargument]
  rfl

def longName : String :=
  String.ofList (List.replicate 256 'a')

theorem run_of_long {word : String} (hword : parse [word] = .ok { input := word })
    (h : t.locate (Path.ofString word) = .error .nameTooLong) : ((run [word]).run t).1 =
      { ending := .error (.fault ⟨.nameTooLong, Path.ofString word⟩) } := by
  have hstatus : t.status (Path.ofString word) =
      .error ⟨.nameTooLong, Path.ofString word⟩ := by
    rw [Tree.status, h]
  rw [run, hword]
  change (Disk.runAgainst _ (Disk.bind (Disk.status _) _) t).1 = _
  simp only [Disk.runAgainst_bind, Disk.status, Disk.runAgainst, Tree.perform, hstatus]
  rfl

/-- A program, a text that is none, and a directory for exports. -/
def deskTree : Tree where
  home := ["work"]
  entries := [(["work", "in.fbp"], .file (Text.Utf8.encode "A(B) OUT -> IN C(D)".toList)),
    (["work", "bad.json"], .file (Text.Utf8.encode "\x7b\"processes\": 3\x7d".toList)),
    (["work", "out"], .directory)]

def listSettings : Settings where
  input := "in.fbp"
  output := some "new/out"
  list := true

def badSettings : Settings where
  input := "bad.json"
  output := some "out"

def strayWords : List String :=
  ["out", "-o", "new"]

def straySettings : Settings where
  input := "out"
  output := some "new"

end FlowGraph.CommandLine
