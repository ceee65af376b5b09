import FlowGraph.CommandLine.Run
import FlowGraph.Proofs.Files.Directories

/-! How the command ends. What goes wrong with loading or exporting is told and gives the exit
status; the check of the input and the making of the directory stand outside of that. -/

namespace FlowGraph.CommandLine

open Files

variable {mayFail : Operation → Prop} {s : Settings} {t t' u : Tree}

def Settings.source (s : Settings) : Path :=
  Path.ofString s.input

/-- Exporting to a directory that is there. -/
def Settings.exporting (s : Settings) (directory : Path) (g : Graph) : Disk Exporting :=
  match s.format with
  | some format => exportGraph g directory format.name
  | none => pure { result := .error .noFormat }

/-- A failure that the command tells of. -/
inductive Failure where
  | missing (source : Path)
  | loading (error : LoadError Empty)
  | exporting (source : Path) (error : ExportError)

def Failure.line : Failure → String
  | .missing source => s!"Error: File not found: {source.text}\n"
  | .loading error => s!"Error loading file: {loadMessage error}\n"
  | .exporting source error => s!"Error exporting {source.text}: {error.message}\n"

inductive Verdict where
  | done
  | failed (failure : Failure)
  | unhandled (what : Unhandled)

def Verdict.ending : Verdict → Except Unhandled Nat
  | .done => .ok 0
  | .failed _ => .ok 1
  | .unhandled what => .error what

def Verdict.line : Verdict → String
  | .failed failure => failure.line
  | .done | .unhandled _ => ""

/-- The input is there and loading it comes to this. -/
structure Loads (mayFail : Operation → Prop) (s : Settings) (t : Tree)
    (result : Except (LoadError Empty) Graph) : Prop where
  found : Attempt mayFail t (.status s.source) (.ok (some .file)) t
  loaded : ∃ loading : Loading Empty,
    (loadFile s.source none none).Runs mayFail t loading t ∧ loading.result = result

/-- The graph is loaded and to be exported to this directory; making that comes to what is given. -/
structure Reaches (mayFail : Operation → Prop) (s : Settings) (t : Tree) (g : Graph)
    (directory : Path) (made : Except Fault Unit) (u : Tree) : Prop where
  loads : Loads mayFail s t (.ok g)
  exports : s.list = false
  output : ∃ text, s.output = some text ∧ directory = Path.ofString text
  made : (makeDirectories directory.parts.length directory).Runs mayFail t made u

/-- All that a run of the command can come to, and why. -/
inductive Course (mayFail : Operation → Prop) (s : Settings) (t : Tree) : Verdict → Tree → Prop
  | unchecked {fault : Fault} (h : Attempt mayFail t (.status s.source) (.error fault) t) :
    Course mayFail s t (.unhandled (.fault fault)) t
  | missing {kind : Option Kind} (h : Attempt mayFail t (.status s.source) (.ok kind) t)
    (hkind : kind ≠ some .file) : Course mayFail s t (.failed (.missing s.source)) t
  | unloaded {error : LoadError Empty} (h : Loads mayFail s t (.error error))
    (hpath : ∀ fault, error ≠ .badPath fault) : Course mayFail s t (.failed (.loading error)) t
  | listed {g : Graph} (h : Loads mayFail s t (.ok g)) (hlist : s.list = true) :
    Course mayFail s t .done t
  | nowhere {g : Graph} (h : Loads mayFail s t (.ok g)) (hlist : s.list = false)
    (hout : s.output = none) : Course mayFail s t (.unhandled .noDirectory) t
  | unmade {g : Graph} {directory : Path} {fault : Fault} {u : Tree}
    (h : Reaches mayFail s t g directory (.error fault) u) :
    Course mayFail s t (.unhandled (.fault fault)) u
  | unexported {g : Graph} {directory : Path} {u v : Tree} {e : Exporting} {error : ExportError}
    (h : Reaches mayFail s t g directory (.ok ()) u)
    (hexport : (s.exporting directory g).Runs mayFail u e v) (herror : e.result = .error error) :
    Course mayFail s t (.failed (.exporting s.source error)) v
  | exported {g : Graph} {directory path : Path} {u v : Tree} {e : Exporting}
    (h : Reaches mayFail s t g directory (.ok ()) u)
    (hexport : (s.exporting directory g).Runs mayFail u e v) (hpath : e.result = .ok path) :
    Course mayFail s t .done v

/-- What is printed for errors are the notices, if they are asked for, and the failure. -/
structure Tells (s : Settings) (verdict : Verdict) (finish : Finish) : Prop where
  ending : finish.ending = verdict.ending
  errors : ∃ notices, finish.errors = report s notices ++ verdict.line

theorem report_nil (s : Settings) : report s [] = "" := by
  unfold report
  split <;> rfl

theorem report_append (s : Settings) (notices more : List Notice) :
    report s notices ++ report s more = report s (notices ++ more) := by
  unfold report
  split
  · rw [List.map_append, String.join_append]
  · rfl

theorem runs_loadFile_iff {p : Path} {loading : Loading Empty} :
    (loadFile p none none).Runs mayFail t loading u ↔
      ∃ content, Attempt mayFail t (.read p) content u ∧
        loading = loadContent p content none none := by
  constructor
  · intro h
    obtain ⟨content, v, hread, hend⟩ := Disk.runs_bind_iff.mp h
    obtain ⟨rfl, rfl⟩ := Disk.runs_pure_iff.mp hend
    exact ⟨content, Disk.runs_single_iff.mp hread, rfl⟩
  · rintro ⟨content, hread, rfl⟩
    exact Disk.runs_bind_iff.mpr ⟨content, u, Disk.runs_single_iff.mpr hread, .done _ u⟩

theorem nul_of_badPath {p : Path} {content : Except Fault (List UInt8)} {fault : Fault}
    (h : (loadContent p content none none : Loading Empty).result = .error (.badPath fault)) :
    content = .error fault ∧ fault.reason = .nulCharacter := by
  have hdefinition (d : Json) :
      (loadDefinition d none : Loading Empty).result ≠ .error (.badPath fault) := by
    unfold loadDefinition
    split <;> simp [deliver, failed]
  cases content with
  | error f =>
    simp only [loadContent] at h
    by_cases hnul : f.reason = .nulCharacter
    · rw [if_pos hnul] at h
      obtain rfl := LoadError.badPath.inj (Except.error.inj h)
      exact ⟨rfl, hnul⟩
    · rw [if_neg hnul] at h
      cases h
  | ok bytes =>
    simp only [loadContent] at h
    split at h
    · cases h
    unfold loadText at h
    split at h
    · unfold loadProgram at h
      split at h
      · exact absurd h (hdefinition _)
      · cases h
    · split at h
      · exact absurd h (hdefinition _)
      · cases h

theorem status_of_loads {result : Except (LoadError Empty) Graph} (h : Loads mayFail s t result) :
    t.status s.source = .ok (some .file) := by
  obtain ⟨-, hstatus | ⟨_, hfault, -⟩⟩ := h.found.status_cases
  · exact hstatus.symm
  · cases hfault

/-- A file that is there has a path that a file can have. -/
theorem ne_badPath_of_loads {error : LoadError Empty} (h : Loads mayFail s t (.error error))
    (fault : Fault) : error ≠ .badPath fault := by
  rintro rfl
  have hfits : s.source.Fits := by
    have hstatus := status_of_loads h
    cases hlocate : t.locate s.source with
    | ok place => exact Tree.fits_of_locate hlocate
    | error reason =>
      rw [Tree.status, hlocate] at hstatus
      cases reason <;> cases hstatus
  obtain ⟨loading, hload, hresult⟩ := h.loaded
  obtain ⟨content, hread, rfl⟩ := runs_loadFile_iff.mp hload
  obtain ⟨rfl, hnul⟩ := nul_of_badPath hresult
  obtain ⟨-, hread | ⟨other, hother, hreason, -⟩⟩ := hread.read_cases
  · exact Tree.read_ne_nul hfits.nul hread.symm hnul
  · obtain rfl := Except.error.inj hother
    exact hreason hnul

/-- What is printed after exporting. -/
def finishOf (s : Settings) (g : Graph) (log : String) (e : Exporting) : Finish :=
  match e.result with
  | .error error => {
      errors := log ++ report s e.notices ++ (Failure.exporting s.source error).line
      ending := .ok 1 }
  | .ok path => {
      output := if s.verbose then s!"Exported '{g.name}' -> {path.text}\n" else path.text ++ "\n"
      errors := log ++ report s e.notices
      ending := .ok 0 }

theorem exportTo_eq (directory : Path) (s : Settings) (g : Graph) (log : String) :
    exportTo directory s s.source g log = (do
      match ← makeDirectories directory.parts.length directory with
      | .error fault => return { errors := log, ending := .error (.fault fault) }
      | .ok () => return finishOf s g log (← s.exporting directory g)) := by
  refine bind_congr fun made => ?_
  cases made with
  | error fault => rfl
  | ok =>
    unfold Settings.exporting
    cases s.format with
    | none => rfl
    | some format =>
      refine bind_congr fun e => ?_
      obtain ⟨notices, result⟩ := e
      cases result <;> rfl

theorem exportTo_course {g : Graph} {text : String} {notices : List Notice} {finish : Finish}
    (hloads : Loads mayFail s t (.ok g)) (hlist : s.list = false) (hout : s.output = some text)
    (h : (exportTo (Path.ofString text) s s.source g (report s notices)).Runs mayFail t finish t') :
    ∃ verdict, Course mayFail s t verdict t' ∧ Tells s verdict finish := by
  rw [exportTo_eq] at h
  obtain ⟨made, u, hmake, hend⟩ := Disk.runs_bind_iff.mp h
  have hreaches : Reaches mayFail s t g (Path.ofString text) made u :=
    ⟨hloads, hlist, ⟨text, hout, rfl⟩, hmake⟩
  cases made with
  | error fault =>
    obtain ⟨rfl, rfl⟩ := Disk.runs_pure_iff.mp hend
    exact ⟨_, .unmade hreaches, rfl, notices, (String.append_empty).symm⟩
  | ok =>
    obtain ⟨e, v, hexport, hend⟩ := Disk.runs_bind_iff.mp hend
    obtain ⟨rfl, rfl⟩ := Disk.runs_pure_iff.mp hend
    unfold finishOf
    split
    · next error herror =>
      refine ⟨_, .unexported hreaches hexport herror, rfl, notices ++ e.notices, ?_⟩
      rw [← report_append]
      rfl
    · next path hpath =>
      refine ⟨_, .exported hreaches hexport hpath, rfl, notices ++ e.notices, ?_⟩
      rw [← report_append]
      exact (String.append_empty).symm

theorem runSettings_course {finish : Finish} (h : (runSettings s).Runs mayFail t finish t') :
    ∃ verdict, Course mayFail s t verdict t' ∧ Tells s verdict finish := by
  obtain ⟨found, u, hlook, hchecked⟩ := Disk.runs_bind_iff.mp h
  have hfound := Disk.runs_single_iff.mp hlook
  obtain ⟨rfl, -⟩ := hfound.status_cases
  cases found with
  | error fault =>
    obtain ⟨rfl, rfl⟩ := Disk.runs_pure_iff.mp hchecked
    exact ⟨_, .unchecked hfound, rfl, [], by rw [report_nil]; rfl⟩
  | ok kind =>
    by_cases hkind : kind = some .file
    · subst hkind
      obtain ⟨loading, v, hload, hend⟩ := Disk.runs_bind_iff.mp hchecked
      obtain ⟨content, hread, -⟩ := runs_loadFile_iff.mp hload
      obtain ⟨rfl, -⟩ := hread.read_cases
      have hloads : Loads mayFail s v loading.result := ⟨hfound, loading, hload, rfl⟩
      cases hresult : loading.result with
      | error error =>
        simp only [hresult] at hend
        obtain ⟨rfl, rfl⟩ := Disk.runs_pure_iff.mp hend
        rw [hresult] at hloads
        exact ⟨_, .unloaded hloads (ne_badPath_of_loads hloads), rfl, loading.notices, rfl⟩
      | ok g =>
        simp only [hresult] at hend
        rw [hresult] at hloads
        by_cases hlist : s.list = true
        · rw [if_pos hlist] at hend
          obtain ⟨rfl, rfl⟩ := Disk.runs_pure_iff.mp hend
          exact ⟨_, .listed hloads hlist, rfl, loading.notices, (String.append_empty).symm⟩
        · rw [if_neg hlist] at hend
          rw [Bool.not_eq_true] at hlist
          unfold exportLoaded at hend
          cases hout : s.output with
          | some text =>
            simp only [hout] at hend
            exact exportTo_course hloads hlist hout hend
          | none =>
            simp only [hout] at hend
            obtain ⟨rfl, rfl⟩ := Disk.runs_pure_iff.mp hend
            exact ⟨_, .nowhere hloads hlist hout, rfl, loading.notices, (String.append_empty).symm⟩
    · have hmissing : Disk.Runs mayFail (pure {
          errors := (Failure.missing s.source).line, ending := .ok 1 }) u finish t' := by
        rcases kind with _ | ⟨_ | _⟩
        · exact hchecked
        · exact absurd rfl hkind
        · exact hchecked
      obtain ⟨rfl, rfl⟩ := Disk.runs_pure_iff.mp hmissing
      exact ⟨_, .missing hfound hkind, rfl, [], by rw [report_nil]; rfl⟩

/-! Runs in which nothing fails by itself. -/

/-- What the file of the input holds is loaded as this graph. -/
def Settings.Gives (s : Settings) (t : Tree) (g : Graph) : Prop :=
  (loadContent s.source (t.read s.source) none none : Loading Empty).result = .ok g

/-- The input can be looked for; and if there is a graph to export, there is a directory for it or
room for one. -/
structure Clear (s : Settings) (t : Tree) : Prop where
  input : t.locate s.source ≠ .error .nameTooLong
  output : ∀ g, s.Gives t g → s.list = false →
    ∃ directory, s.output = some directory ∧ t.Admits (Path.ofString directory)

theorem result_of_loads (hread : ¬ mayFail (.read s.source))
    {result : Except (LoadError Empty) Graph} (h : Loads mayFail s t result) :
    (loadContent s.source (t.read s.source) none none : Loading Empty).result = result := by
  obtain ⟨loading, hload, rfl⟩ := h.loaded
  obtain ⟨content, hcontent, rfl⟩ := runs_loadFile_iff.mp hload
  obtain ⟨-, rfl | ⟨_, -, -, hfail⟩⟩ := hcontent.read_cases
  · rfl
  · exact absurd hfail hread

theorem status_of_check (hstatus : ¬ mayFail (.status s.source))
    {answer : Except Fault (Option Kind)} (h : Attempt mayFail t (.status s.source) answer u) :
    answer = t.status s.source := by
  obtain ⟨-, hanswer | ⟨_, -, hfail⟩⟩ := h.status_cases
  · exact hanswer
  · exact absurd hfail hstatus

theorem made_iff (hsure : ∀ o, ¬ mayFail o) {g : Graph} {directory : Path}
    {made : Except Fault Unit} (h : Reaches mayFail s t g directory made u) :
    made = .ok () ↔ t.Admits directory :=
  makeDirectories_ok_iff (fun o _ => hsure o) h.made

theorem status_error_iff {p : Path} : (∃ fault, t.status p = .error fault) ↔
    t.locate p = .error .nameTooLong := by
  unfold Tree.status
  cases t.locate p with
  | ok place => simp
  | error reason => cases reason <;> simp

theorem locate_of_status {p : Path} {kind : Option Kind} (h : t.status p = .ok kind) :
    t.locate p ≠ .error .nameTooLong := by
  intro hlong
  obtain ⟨fault, hfault⟩ := status_error_iff.mpr hlong
  cases h.symm.trans hfault

theorem read_error_of_status {p : Path} {kind : Option Kind} (h : t.status p = .ok kind)
    (hkind : kind ≠ some .file) : ∃ fault, t.read p = .error fault := by
  unfold Tree.status at h
  unfold Tree.read
  cases hlocate : t.locate p with
  | error reason => exact ⟨_, rfl⟩
  | ok place =>
    rw [hlocate] at h
    cases hfound : t.find? place with
    | none => exact ⟨⟨.notFound, p⟩, by simp only [hfound]⟩
    | some e =>
      cases e with
      | directory => exact ⟨⟨.isDirectory, p⟩, by simp only [hfound]⟩
      | file content =>
        simp only [hfound] at h
        exact absurd (Except.ok.inj h).symm hkind

theorem not_gives_of_status {kind : Option Kind} (h : t.status s.source = .ok kind)
    (hkind : kind ≠ some .file) (g : Graph) : ¬ s.Gives t g := by
  obtain ⟨fault, hread⟩ := read_error_of_status h hkind
  rw [Settings.Gives, hread]
  simp only [loadContent]
  split <;> simp [failed]

theorem clear_of_reaches (hsure : ∀ o, ¬ mayFail o) {g : Graph} {directory : Path}
    (h : Reaches mayFail s t g directory (.ok ()) u) : Clear s t := by
  obtain ⟨text, hout, hdirectory⟩ := h.output
  have hadmits := (made_iff hsure h).mp rfl
  exact ⟨locate_of_status (status_of_loads h.loads), fun _ _ _ =>
    ⟨text, hout, hdirectory ▸ hadmits⟩⟩

theorem handled_iff_clear (hsure : ∀ o, ¬ mayFail o) {verdict : Verdict}
    (h : Course mayFail s t verdict t') :
    (∃ status, verdict.ending = .ok status) ↔ Clear s t := by
  cases h with
  | unchecked h =>
    refine iff_of_false (by rintro ⟨_, ⟨⟩⟩) fun hclear => hclear.input ?_
    exact status_error_iff.mp ⟨_, (status_of_check (hsure _) h).symm⟩
  | missing h hkind =>
    have hstatus := (status_of_check (hsure _) h).symm
    exact iff_of_true ⟨1, rfl⟩ ⟨locate_of_status hstatus, fun g hg =>
      absurd hg (not_gives_of_status hstatus hkind g)⟩
  | unloaded h =>
    refine iff_of_true ⟨1, rfl⟩ ⟨locate_of_status (status_of_loads h), fun g hg => ?_⟩
    cases (result_of_loads (hsure _) h).symm.trans hg
  | listed h hlist =>
    refine iff_of_true ⟨0, rfl⟩ ⟨locate_of_status (status_of_loads h), fun _ _ hexport => ?_⟩
    cases hlist.symm.trans hexport
  | nowhere h hlist hout =>
    refine iff_of_false (by rintro ⟨_, ⟨⟩⟩) fun hclear => ?_
    obtain ⟨directory, hsome, -⟩ := hclear.output _ (result_of_loads (hsure _) h) hlist
    cases hout.symm.trans hsome
  | unmade h =>
    refine iff_of_false (by rintro ⟨_, ⟨⟩⟩) fun hclear => ?_
    obtain ⟨text, hout, hdirectory⟩ := h.output
    obtain ⟨directory, hsome, hadmits⟩ :=
      hclear.output _ (result_of_loads (hsure _) h.loads) h.exports
    obtain rfl := Option.some.inj (hout.symm.trans hsome)
    cases (made_iff hsure h).mpr (hdirectory ▸ hadmits)
  | unexported h => exact iff_of_true ⟨1, rfl⟩ (clear_of_reaches hsure h)
  | exported h => exact iff_of_true ⟨0, rfl⟩ (clear_of_reaches hsure h)

/-- A program, and a file where a directory might be. -/
def officeTree : Tree where
  home := ["work"]
  entries := [(["work", "in.fbp"], .file (Text.Utf8.encode "A(B) OUT -> IN C(D)".toList)),
    (["work", "out"], .file [])]

def officeWords : List String :=
  ["in.fbp", "-o", "new/out", "-fdot"]

def officeSettings : Settings where
  input := "in.fbp"
  output := some "new/out"
  format := some .dot

def stoppedExport : Finish × Tree :=
  (run officeWords).runAgainst Disk.full officeTree

end FlowGraph.CommandLine
