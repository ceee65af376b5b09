import FlowGraph.Export
import FlowGraph.Proofs.Files.Directories
import FlowGraph.Proofs.Save.AllOrNothing

/-! What a failed export leaves behind. Saving takes away what it wrote, and texts are written in
one step; but the document for the renderer stays in the place of whatever file was there. -/

namespace FlowGraph

open Files

variable {mayFail : Operation → Prop} {g : Graph} {directory p : Path} {t t' u : Tree}
  {place : Place} {content : List UInt8}

/-! File names. -/

theorem isWord_of_mem_fileName {name : String} {c : Char} (h : c ∈ (fileName name).toList) :
    Text.isWord c = true := by
  have hfallback : fallbackName.toList.all Text.isWord = true := by decide
  unfold fileName at h
  dsimp only at h
  generalize Text.lowercase _ = lowered at h
  split at h
  · exact List.all_eq_true.mp hfallback c h
  · rw [String.toList_ofList] at h
    exact (List.mem_filter.mp h).2

theorem fileName_ne_dots (name : String) : fileName name ≠ ".." := by
  intro h
  have hdot : Text.isWord '.' = false := by decide
  have hmem : '.' ∈ (fileName name).toList := by
    rw [h]
    decide
  exact Bool.false_ne_true (hdot.symm.trans (isWord_of_mem_fileName hmem))

/-- The file that comes before the extension. -/
def exportBase (g : Graph) (directory : Path) : Path :=
  directory.child (fileName g.name)

theorem getLast?_exportBase (g : Graph) (directory : Path) :
    (exportBase g directory).parts.getLast? = some (fileName g.name) :=
  List.getLast?_concat

theorem nul_of_exportBase (h : '\x00' ∈ (exportBase g directory).text.toList) :
    '\x00' ∈ directory.text.toList := by
  have hnul : Text.isWord '\x00' = false := by decide
  have hname : '\x00' ∉ (fileName g.name).toList := fun h =>
    Bool.false_ne_true (hnul.symm.trans (isWord_of_mem_fileName h))
  have hslash : '\x00' ∉ "/".toList := by decide
  rcases directory.text_child (fileName g.name) with ⟨-, htext⟩ | htext | htext <;>
    rw [exportBase, htext] at h
  · exact absurd h hname
  · simpa [hname] using h
  · simpa [hname, hslash] using h

/-! Files that stay. -/

/-- Every file has its content still, and there is no other one. -/
def SameFiles (t t' : Tree) : Prop :=
  ∀ place content, t'.find? place = some (.file content) ↔ t.find? place = some (.file content)

theorem sameFiles_of_gains (h : t.Gains t') : SameFiles t t' :=
  fun _ _ => h.file_iff

theorem sameFiles_put_iff (h : t.Gains u) (hfile : u.find? place ≠ some .directory) :
    SameFiles t (u.put place (.file content)) ↔ t.find? place = some (.file content) := by
  constructor
  · intro hsame
    exact (hsame place content).mp (Tree.find?_put_self hfile)
  · intro hthere q c
    by_cases hq : q = place
    · subst hq
      rw [Tree.find?_put_self hfile, hthere]
    · rw [Tree.find?_put_of_ne hq, h.file_iff]

theorem write_outcome {answer : Except Fault Unit}
    (h : Attempt mayFail t (.write p content) answer u) :
    (∃ place, answer = .ok () ∧ t.locate p = .ok place ∧ t.find? place ≠ some .directory ∧
      u = t.put place (.file content)) ∨
    ∃ fault, answer = .error fault ∧ (u = t ∨ mayFail (.write p content) ∧ ∃ place left,
      t.locate p = .ok place ∧ t.find? place ≠ some .directory ∧ u = t.put place (.file left)) := by
  cases h with
  | failed fault hfail => exact .inr ⟨fault, rfl, .inl rfl⟩
  | torn left fault hfail _ hplace hfile =>
    exact .inr ⟨fault, rfl, .inr ⟨hfail, _, left, hplace, hfile, rfl⟩⟩
  | performed =>
    simp only [Tree.perform, Tree.write]
    cases hplace : t.locate p with
    | error reason => exact .inr ⟨_, rfl, .inl rfl⟩
    | ok place =>
      cases hfound : t.find? place with
      | none =>
        simp only [hfound]
        exact .inl ⟨place, trivial, rfl, by simp [hfound], rfl⟩
      | some e =>
        cases e with
        | directory =>
          simp only [hfound]
          exact .inr ⟨_, rfl, .inl trivial⟩
        | file old =>
          simp only [hfound]
          exact .inl ⟨place, trivial, rfl, by simp [hfound], rfl⟩

/-! Failed exports. -/

/-- The file that the formats write themselves. -/
def writtenFile (g : Graph) (directory : Path) : Format → Path
  | .json => saveTarget (exportBase g directory).text
  | .dot => directory.child (fileName g.name ++ ".dot")
  | .yuml => directory.child (fileName g.name ++ ".yuml")
  | .png | .svg => exportBase g directory

/-- What is different after a failed export. Directories may have been made for the renderer. -/
inductive Leftover (mayFail : Operation → Prop) (g : Graph) (directory : Path) (t : Tree) :
    Option Format → ExportError → Tree → Prop
  | nothing {format : Option Format} {error : ExportError} {u : Tree} (hgains : t.Gains u)
    (herror : error ≠ .noRenderer) : Leftover mayFail g directory t format error u
  /-- A write that fails may leave anything in the file. -/
  | torn {format : Format} {fault : Fault} {u : Tree} {place : Place} {content left : List UInt8}
    (hfail : mayFail (.write (writtenFile g directory format) content)) (hgains : t.Gains u)
    (hplace : u.locate (writtenFile g directory format) = .ok place)
    (hfile : u.find? place ≠ some .directory) :
    Leftover mayFail g directory t (some format) (.file fault) (u.put place (.file left))
  | document {format : Format} {u : Tree} {place : Place}
    (hformat : format = .png ∨ format = .svg) (hgains : t.Gains u)
    (hplace : u.locate (exportBase g directory) = .ok place)
    (hfile : u.find? place ≠ some .directory) :
    Leftover mayFail g directory t (some format) .noRenderer
      (u.put place (.file (Text.Utf8.encode (Dot.document g).toList)))
  /-- No file can have the path. A temporary file may stay. -/
  | unnameable {fault : Fault} {t' : Tree}
    (hnul : '\x00' ∈ directory.text.toList ∨ ∃ part ∈ t.home, '\x00' ∈ part.toList)
    (hkeeps : ∀ q e, t.find? q = some e → t'.find? q = some e) :
    Leftover mayFail g directory t (some .json) (.save (.badPath fault)) t'

variable {e : Exporting} {error : ExportError}

theorem writeText_leftover {format : Format} {text : String}
    (h : (writeText (writtenFile g directory format) text).Runs mayFail t e t')
    (herror : e.result = .error error) : Leftover mayFail g directory t (some format) error t' := by
  obtain ⟨answer, u, hwrite, hend⟩ := Disk.runs_bind_iff.mp h
  rcases write_outcome (Disk.runs_single_iff.mp hwrite) with ⟨place, rfl, -⟩ | ⟨fault, rfl, hleft⟩
  · obtain ⟨rfl, rfl⟩ := Disk.runs_pure_iff.mp hend
    cases herror
  · obtain ⟨rfl, rfl⟩ := Disk.runs_pure_iff.mp hend
    obtain rfl := Except.error.inj herror
    rcases hleft with rfl | ⟨hfail, place, left, hplace, hfile, rfl⟩
    · exact .nothing (.refl t') (by simp)
    · exact .torn hfail (.refl t) hplace hfile

def makeParents (base : Path) : Disk (Except Fault Unit) :=
  if base.parent = {} then pure (.ok ())
  else makeFromTop base.parent.parts.length base.parent

theorem makeParents_only (base : Path) : (makeParents base).Only MakesDirectories := by
  unfold makeParents
  split
  · exact .done _
  · exact makeFromTop_only _ _

theorem render_eq (base : Path) (g : Graph) : render base g = (do
    match ← makeParents base with
    | .error fault => return { result := .error (.file fault) }
    | .ok () =>
      match ← Disk.write base (Text.Utf8.encode (Dot.document g).toList) with
      | .error fault => return { result := .error (.file fault) }
      | .ok () => return { result := .error .noRenderer }) := by
  unfold render makeParents
  dsimp only
  split <;> rfl

theorem render_leftover {format : Format} (hformat : format = .png ∨ format = .svg)
    (h : (render (exportBase g directory) g).Runs mayFail t e t')
    (herror : e.result = .error error) : Leftover mayFail g directory t (some format) error t' := by
  have hwritten : writtenFile g directory format = exportBase g directory := by
    rcases hformat with rfl | rfl <;> rfl
  rw [render_eq] at h
  obtain ⟨made, u, hmake, hmade⟩ := Disk.runs_bind_iff.mp h
  have hgains := (makeParents_only _).gains hmake
  cases made with
  | error fault =>
    obtain ⟨rfl, rfl⟩ := Disk.runs_pure_iff.mp hmade
    obtain rfl := Except.error.inj herror
    exact .nothing hgains (by simp)
  | ok =>
    obtain ⟨answer, v, hwrite, hend⟩ := Disk.runs_bind_iff.mp hmade
    rcases write_outcome (Disk.runs_single_iff.mp hwrite) with
      ⟨place, rfl, hplace, hfile, rfl⟩ | ⟨fault, rfl, hleft⟩
    · obtain ⟨rfl, rfl⟩ := Disk.runs_pure_iff.mp hend
      obtain rfl := Except.error.inj herror
      exact .document hformat hgains hplace hfile
    · obtain ⟨rfl, rfl⟩ := Disk.runs_pure_iff.mp hend
      obtain rfl := Except.error.inj herror
      rcases hleft with rfl | ⟨hfail, place, left, hplace, hfile, rfl⟩
      · exact .nothing hgains (by simp)
      · rw [← hwritten] at hfail hplace
        exact .torn hfail hgains hplace hfile

theorem save_leftover (hstatus : ∀ p, ¬ mayFail (.status p)) (hdelete : ∀ p, ¬ mayFail (.delete p))
    {s : Saving Empty} {error : SaveError Empty}
    (h : (save g (exportBase g directory).text none).Runs mayFail t s t')
    (herror : s.result = .error error) :
    Leftover mayFail g directory t (some .json) (.save error) t' := by
  obtain ⟨stem, hlast⟩ := getLast?_saveTarget (exportBase g directory).text
  obtain ⟨r, hreplace, rfl⟩ := save_runs h
  cases replaceFile_runs hstatus hdelete hlast (ne_dots stem) hreplace with
  | replaced => cases herror
  | kept =>
    obtain rfl := Except.error.inj herror
    exact .nothing (.refl t) (by simp)
  | impossible hnul hcause hkeeps =>
    obtain rfl := Except.error.inj herror
    refine .unnameable ?_ hkeeps
    rcases hcause with htarget | hfree
    · exact .inl (nul_of_exportBase (nul_of_saveTarget htarget))
    · exact (nul_of_freePath hfree).imp_left nul_of_exportBase

theorem exportGraph_leftover (hstatus : ∀ p, ¬ mayFail (.status p))
    (hdelete : ∀ p, ¬ mayFail (.delete p)) {format : String}
    (h : (exportGraph g directory format).Runs mayFail t e t')
    (herror : e.result = .error error) :
    Leftover mayFail g directory t (Format.ofName? format) error t' := by
  unfold exportGraph at h
  cases hformat : Format.ofName? format with
  | none =>
    rw [hformat] at h
    obtain ⟨rfl, rfl⟩ := Disk.runs_pure_iff.mp h
    obtain rfl := Except.error.inj herror
    exact .nothing (.refl t') (by simp)
  | some format =>
    rw [hformat] at h
    cases format with
    | dot => exact writeText_leftover h herror
    | yuml => exact writeText_leftover h herror
    | png => exact render_leftover (.inl rfl) h herror
    | svg => exact render_leftover (.inr rfl) h herror
    | json =>
      obtain ⟨s, u, hsave, hend⟩ := Disk.runs_bind_iff.mp h
      obtain ⟨rfl, rfl⟩ := Disk.runs_pure_iff.mp hend
      cases hresult : s.result with
      | ok path =>
        rw [hresult] at herror
        cases herror
      | error saveError =>
        rw [hresult] at herror
        obtain rfl := Except.error.inj herror
        exact save_leftover hstatus hdelete hsave hresult

/-- The document is in its place already. -/
def DocumentThere (g : Graph) (directory : Path) (t t' : Tree) : Prop :=
  ∃ place, t'.locate (exportBase g directory) = .ok place ∧
    t.find? place = some (.file (Text.Utf8.encode (Dot.document g).toList))

theorem sameFiles_iff (hsure : ∀ o, ¬ mayFail o) (hdirectory : '\x00' ∉ directory.text.toList)
    (hhome : ∀ part ∈ t.home, '\x00' ∉ part.toList) {format : Option Format}
    (h : Leftover mayFail g directory t format error t') :
    SameFiles t t' ↔ (error = .noRenderer → DocumentThere g directory t t') := by
  cases h with
  | nothing hgains hother =>
    exact iff_of_true (sameFiles_of_gains hgains) fun hsame => absurd hsame hother
  | torn hfail => exact absurd hfail (hsure _)
  | unnameable hnul =>
    rcases hnul with hnul | ⟨part, hpart, hnul⟩
    · exact absurd hnul hdirectory
    · exact absurd hnul (hhome part hpart)
  | document hformat hgains hplace hfile =>
    have hthere := Tree.locate_put hfile
      (.file (Text.Utf8.encode (Dot.document g).toList)) (getLast?_exportBase g directory)
      (fileName_ne_dots g.name) hplace
    rw [sameFiles_put_iff hgains hfile]
    constructor
    · intro hsame _
      exact ⟨_, hthere, hsame⟩
    · intro hsame
      obtain ⟨place, hlocate, hfound⟩ := hsame rfl
      obtain rfl := Except.ok.inj (hthere.symm.trans hlocate)
      exact hfound

/-- A directory with the text of another file under the name of the graph, and no room for its DOT
document under the extension. -/
def shelfTree : Tree where
  home := ["work"]
  entries := [(["work", "out"], .directory), (["work", "out", "g"], .file [107]),
    (["work", "out", "g.dot"], .directory)]

def shelfGraph : Graph where
  name := "g"

def renderedShelf : Exporting × Tree :=
  (exportGraph shelfGraph (Path.ofString "out") "png").run shelfTree

def stoppedShelf : Exporting × Tree :=
  (exportGraph shelfGraph (Path.ofString "out") "png").runAgainst Disk.full shelfTree

end FlowGraph
