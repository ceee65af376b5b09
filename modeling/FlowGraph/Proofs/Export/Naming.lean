import FlowGraph.Proofs.Export.Failure
import FlowGraph.Proofs.Files.Way
import FlowGraph.Proofs.Text.Lowercase

/-! The names of exported files. Only characters of words are left of the name of a graph, and no
more is taken from it when it is a file name already; so an export is a file right in its
directory. -/

namespace FlowGraph

open Files

variable {name : String} {c : Char}

theorem settled_of_mem_fallbackName (hc : c ∈ fallbackName.toList) : Text.Settled c := by
  have hall : fallbackName.toList.all fun d => d.toNat.blt 0x80 && !d.isUpper := by decide
  have hsmall : c.toNat < 0x80 ∧ ¬ c.isUpper = true := by simpa using List.all_eq_true.mp hall c hc
  exact Text.settled_of_ascii hsmall.1 hsmall.2

/-- A file name is what is left of a lower case, or the one for a name of which nothing is left. -/
theorem fileName_cases (name : String) : fileName name = fallbackName ∨
    ∃ lowered : String, (∃ given, lowered = Text.lowercase given) ∧
      (lowered.toList.map underscore).filter Text.isWord ≠ [] ∧ fileName name =
        String.ofList ((lowered.toList.map underscore).filter Text.isWord) := by
  unfold fileName
  dsimp only
  generalize hlowered : Text.lowercase _ = lowered
  by_cases hsafe : (lowered.toList.map underscore).filter Text.isWord = []
  · exact .inl (if_pos hsafe)
  · exact .inr ⟨lowered, ⟨_, hlowered.symm⟩, hsafe, if_neg hsafe⟩

theorem fileName_ne_empty (name : String) : fileName name ≠ "" := by
  rcases fileName_cases name with h | ⟨lowered, -, hsafe, h⟩
  · rw [h]
    decide
  · rw [h]
    exact fun hempty => hsafe (String.ofList_eq_empty_iff.mp hempty)

/-- No character of a file name has another lower case. -/
theorem settled_of_mem_fileName (hc : c ∈ (fileName name).toList) : Text.Settled c := by
  rcases fileName_cases name with h | ⟨lowered, ⟨given, rfl⟩, -, h⟩
  · rw [h] at hc
    exact settled_of_mem_fallbackName hc
  · rw [h, String.toList_ofList] at hc
    obtain ⟨d, hd, rfl⟩ := List.mem_map.mp (List.mem_filter.mp hc).1
    unfold underscore
    split
    · exact Text.settled_of_ascii (by decide) (by decide)
    · rw [Text.lowercase, String.toList_ofList] at hd
      exact Text.settled_of_mem_lowerAfter hd

theorem underscore_of_isWord (h : Text.isWord c = true) : underscore c = c := by
  have hseparators : Text.isWord ' ' = false ∧ Text.isWord '/' = false := by decide
  unfold underscore
  split
  · next hc =>
    rcases hc with rfl | rfl
    · cases h.symm.trans hseparators.1
    · cases h.symm.trans hseparators.2
  · rfl

theorem fileName_eq_self (hempty : name ≠ "")
    (h : ∀ c ∈ name.toList, Text.Settled c ∧ Text.isWord c = true) : fileName name = name := by
  have hlowered : Text.lowercase name = name := by
    rw [Text.lowercase, Text.lowerAfter_of_settled fun c hc => (h c hc).1, String.ofList_toList]
  have hmapped : name.toList.map underscore = name.toList :=
    (List.map_congr_left fun c hc => underscore_of_isWord (h c hc).2).trans (List.map_id _)
  have hsafe : name.toList.filter Text.isWord = name.toList :=
    List.filter_eq_self.mpr fun c hc => (h c hc).2
  have hsome : name.toList ≠ [] := fun hnil => hempty (String.toList_eq_nil_iff.mp hnil)
  simp only [fileName, if_neg hempty, hlowered, hmapped, hsafe, if_neg hsome, String.ofList_toList]

theorem fileName_fileName (name : String) : fileName (fileName name) = fileName name :=
  fileName_eq_self (fileName_ne_empty name) fun _ hc =>
    ⟨settled_of_mem_fileName hc, isWord_of_mem_fileName hc⟩

/-! The paths of exported files. -/

namespace Files.Path

/-- The path that a text names from the directory of another one. A text that begins with a slash
names it from the root. -/
def join (p : Path) (s : String) : Path :=
  if (ofString s).root = "" then ⟨p.root, p.parts ++ (ofString s).parts⟩ else ofString s

/-- The path with another suffix instead of the one that its name has. -/
def withSuffix (p : Path) (suffix : String) : Path :=
  p.parent.child (String.ofList (p.name.toList.take (p.name.length - p.suffix.length)) ++ suffix)

theorem join_eq_child (p : Path) {name : String} (hempty : name ≠ "") (hdot : name ≠ ".")
    (hslash : '/' ∉ name.toList) : p.join name = p.child name := by
  rw [join, ofString_eq_child hempty hdot hslash]
  rfl

theorem withSuffix_child (p : Path) {name : String} (hdot : '.' ∉ name.toList) (suffix : String) :
    (p.child name).withSuffix suffix = p.child (name ++ suffix) := by
  have hname : (p.child name).name = name := by
    simp [Path.name, child]
  have hnone : (p.child name).suffix = "" := by
    have hdropped : name.toList.reverse.dropWhile (· ≠ '.') = [] := by
      rw [List.dropWhile_eq_nil_iff]
      intro c hc
      have hne : c ≠ '.' := fun h => hdot (h ▸ List.mem_reverse.mp hc)
      simpa using hne
    unfold Path.suffix suffixOf
    rw [hname, hdropped]
  have hparent : (p.child name).parent = p := by
    simp [parent, child]
  have hall : name.toList.take (name.length - "".length) = name.toList :=
    List.take_of_length_le (by simp [String.length_toList])
  rw [withSuffix, hparent, hname, hnone, hall, String.ofList_toList]

end Files.Path

theorem not_mem_fileName (name : String) {c : Char} (h : Text.isWord c = false) :
    c ∉ (fileName name).toList :=
  fun hc => Bool.false_ne_true (h.symm.trans (isWord_of_mem_fileName hc))

theorem isWord_separators : ∀ c ∈ ['/', '.', '\x00'], Text.isWord c = false := by
  have hall : ['/', '.', '\x00'].all (!Text.isWord ·) = true := by decide
  simpa using hall

def exportName (g : Graph) (format : Format) : String :=
  fileName g.name ++ "." ++ format.name

/-- The text that the program itself writes for a format. -/
def exportText (g : Graph) : Format → Option String
  | .json => some (jsonText g defaultIndent)
  | .dot => some (Dot.document g)
  | .yuml => some (Yuml.document g)
  | .png | .svg => none

/-- The path of an export as it is put together. The suffix for definitions goes to the text of the
path, the others take the place of the suffix that its name has. -/
def builtFile (g : Graph) (directory : Path) (format : Format) : Path :=
  let base := directory.join (fileName g.name)
  if format = .json then saveTarget base.text else base.withSuffix ("." ++ format.name)

variable {g : Graph} {format : Format} {text path : String}

theorem exportName_eq (g : Graph) (format : Format) :
    fileName g.name ++ ("." ++ format.name) = exportName g format :=
  String.append_assoc.symm

theorem slash_not_mem_exportName (g : Graph) (format : Format) :
    '/' ∉ (exportName g format).toList := by
  have hname := not_mem_fileName g.name (isWord_separators '/' (by simp))
  have hsuffix : '/' ∉ ("." ++ format.name).toList := by
    cases format <;> decide
  rw [← exportName_eq, String.toList_append, List.mem_append, not_or]
  exact ⟨hname, hsuffix⟩

theorem length_exportName (g : Graph) (format : Format) :
    2 < (exportName g format).length := by
  have hsuffix : 2 < ("." ++ format.name).length := by
    cases format <;> decide
  rw [← exportName_eq, String.length_append]
  omega

theorem exportName_ne (g : Graph) (format : Format) {s : String} (hs : s.length ≤ 2) :
    exportName g format ≠ s := by
  rintro rfl
  exact absurd hs (Nat.not_le.mpr (length_exportName g format))

theorem join_fileName (p : Path) (name : String) :
    p.join (fileName name) = p.child (fileName name) := by
  have hdot := not_mem_fileName name (isWord_separators '.' (by simp))
  refine p.join_eq_child (fileName_ne_empty name) (fun h => ?_)
    (not_mem_fileName name (isWord_separators '/' (by simp)))
  rw [h] at hdot
  exact hdot (by decide)

/-- Both ways to put the suffix lead to a child of the directory, by the name of the graph. -/
theorem builtFile_eq_child (g : Graph) (path : String) (format : Format) :
    builtFile g (Path.ofString path) format =
      (Path.ofString path).child (exportName g format) := by
  have hplain : ((Path.ofString path).child (exportName g format)).Plain :=
    (Path.plain_ofString path).child (exportName_ne g format (by decide))
      (exportName_ne g format (by decide)) (slash_not_mem_exportName g format)
  unfold builtFile
  dsimp only
  rw [join_fileName]
  split
  · next hjson =>
    have hname : fileName g.name ++ jsonSuffix = exportName g format := by
      rw [hjson, ← exportName_eq]
      rfl
    rw [saveTarget, Path.text_child_append, hname]
    exact hplain.ofString_text
  · rw [Path.withSuffix_child _ (not_mem_fileName g.name (isWord_separators '.' (by simp))),
      exportName_eq]

theorem writtenFile_eq_child (htext : exportText g format = some text) :
    writtenFile g (Path.ofString path) format =
      (Path.ofString path).child (exportName g format) := by
  cases format with
  | json =>
    rw [← builtFile_eq_child, builtFile, join_fileName]
    rfl
  | dot =>
    rw [← exportName_eq]
    rfl
  | yuml =>
    rw [← exportName_eq]
    rfl
  | png => cases htext
  | svg => cases htext

/-! Runs of an export. -/

variable {mayFail : Operation → Prop} {t t' : Tree} {e : Exporting} {p directory : Path}
  {content : List UInt8}

theorem ofName?_name (format : Format) : Format.ofName? format.name = some format := by
  cases format <;> decide

/-- The path leads to a file that has the content afterwards, and the rest is as it was. -/
def Puts (t : Tree) (p : Path) (content : List UInt8) (t' : Tree) : Prop :=
  ∃ place, t.locate p = .ok place ∧ t.find? place ≠ some .directory ∧
    t' = t.put place (.file content)

theorem writeText_runs (h : (writeText p text).Runs mayFail t e t') :
    e.result = .ok p ∧ Puts t p (Text.Utf8.encode text.toList) t' ∨
    (∃ error, e.result = .error error) ∧ (t' = t ∨ ∃ left, Puts t p left t') := by
  obtain ⟨answer, u, hwrite, hend⟩ := Disk.runs_bind_iff.mp h
  rcases write_outcome (Disk.runs_single_iff.mp hwrite) with
    ⟨place, rfl, hplace, hfile, rfl⟩ | ⟨fault, rfl, hleft⟩
  · obtain ⟨rfl, rfl⟩ := Disk.runs_pure_iff.mp hend
    exact .inl ⟨rfl, place, hplace, hfile, rfl⟩
  · obtain ⟨rfl, rfl⟩ := Disk.runs_pure_iff.mp hend
    refine .inr ⟨⟨_, rfl⟩, hleft.imp_right ?_⟩
    rintro ⟨-, place, left, hplace, hfile, rfl⟩
    exact ⟨left, place, hplace, hfile, rfl⟩

/-- The JSON export comes to the end that replacing its file came to. -/
theorem jsonExport_runs (h : (exportGraph g directory Format.json.name).Runs mayFail t e t') :
    ∃ r : Except (SaveError Empty) Unit, (replaceFile (writtenFile g directory .json)
        (Text.Utf8.encode (jsonText g defaultIndent).toList)).Runs mayFail t r t' ∧
      e.result = (r.map fun _ => writtenFile g directory .json).mapError .save := by
  rw [exportGraph, ofName?_name] at h
  obtain ⟨s, u, hsave, hend⟩ := Disk.runs_bind_iff.mp h
  obtain ⟨rfl, rfl⟩ := Disk.runs_pure_iff.mp hend
  obtain ⟨r, hreplace, rfl⟩ := save_runs hsave
  refine ⟨r, hreplace, ?_⟩
  cases r <;> rfl

/-- The other exports that the program writes itself only write a text. -/
theorem textExport_runs (hjson : format ≠ .json) (htext : exportText g format = some text)
    (h : (exportGraph g directory format.name).Runs mayFail t e t') :
    (writeText (writtenFile g directory format) text).Runs mayFail t e t' := by
  rw [exportGraph, ofName?_name] at h
  cases format with
  | json => exact absurd rfl hjson
  | dot =>
    obtain rfl := Option.some.inj htext
    exact h
  | yuml =>
    obtain rfl := Option.some.inj htext
    exact h
  | png => cases htext
  | svg => cases htext

/-- Whatever may fail, an export that has not failed has put its text in its file. -/
theorem exportGraph_ok (htext : exportText g format = some text)
    (h : (exportGraph g directory format.name).Runs mayFail t e t') (hp : e.result = .ok p) :
    p = writtenFile g directory format ∧ Puts t p (Text.Utf8.encode text.toList) t' := by
  by_cases hjson : format = .json
  · subst hjson
    obtain rfl := Option.some.inj htext
    obtain ⟨stem, hlast⟩ := getLast?_saveTarget (exportBase g directory).text
    obtain ⟨r, hreplace, hresult⟩ := jsonExport_runs h
    cases r with
    | error error => cases hp.symm.trans hresult
    | ok =>
      obtain rfl := Except.ok.inj (hp.symm.trans hresult)
      exact ⟨rfl, replaceFile_ok hlast (ne_dots stem) hreplace⟩
  · rcases writeText_runs (textExport_runs hjson htext h) with ⟨hok, hputs⟩ | ⟨⟨error, herror⟩, -⟩
    · obtain rfl := Except.ok.inj (hp.symm.trans hok)
      exact ⟨rfl, hputs⟩
    · cases hp.symm.trans herror

/-- However an export ends, as long as its temporary file can be taken away, it has changed nothing
but its file. -/
theorem exportGraph_keeps (hstatus : ∀ p, ¬ mayFail (.status p))
    (hdelete : ∀ p, ¬ mayFail (.delete p)) (hdirectory : '\x00' ∉ directory.text.toList)
    (hhome : ∀ part ∈ t.home, '\x00' ∉ part.toList) (htext : exportText g format = some text)
    (h : (exportGraph g directory format.name).Runs mayFail t e t') :
    t' = t ∨ ∃ left, Puts t (writtenFile g directory format) left t' := by
  by_cases hjson : format = .json
  · subst hjson
    obtain ⟨stem, hlast⟩ := getLast?_saveTarget (exportBase g directory).text
    obtain ⟨r, hreplace, -⟩ := jsonExport_runs h
    cases replaceFile_runs hstatus hdelete hlast (ne_dots stem) hreplace with
    | replaced hgoal hfile => exact .inr ⟨_, _, hgoal, hfile, rfl⟩
    | kept => exact .inl rfl
    | impossible hnul hcause =>
      rcases hcause with htarget | hfree
      · exact absurd (nul_of_exportBase (nul_of_saveTarget htarget)) hdirectory
      · rcases nul_of_freePath hfree with hnul | ⟨part, hpart, hnul⟩
        · exact absurd (nul_of_exportBase hnul) hdirectory
        · exact absurd hnul (hhome part hpart)
  · have hwritten := writeText_runs (textExport_runs hjson htext h)
    exact hwritten.elim (fun hok => .inr ⟨_, hok.2⟩) And.right

/-- There is a file of that name right in the directory, it has the content, and that is all that
has changed. -/
structure Filed (directory : Path) (name : String) (content : List UInt8) (t t' : Tree)
    (here : Place) : Prop where
  leads : t.locate directory = .ok here
  inside : t.find? here = some .directory
  written : t'.find? (here ++ [name]) = some (.file content)
  others : ∀ q, q ≠ here ++ [name] → t'.find? q = t.find? q

theorem filed_of_puts {name : String} (hname : name ≠ "..")
    (h : Puts t (directory.child name) content t') :
    ∃ here, Filed directory name content t t' here := by
  obtain ⟨place, hplace, hfile, rfl⟩ := h
  obtain ⟨here, hhere, hinside, rfl⟩ := Tree.locate_child hname hplace
  exact ⟨here, hhere, hinside, Tree.find?_put_self hfile, fun q hq => Tree.find?_put_of_ne hq⟩

/-- Exports stay in the directory. Whatever the name of the graph, its file name has only characters
of words and is stable; and the file of an export is the child of the directory by that name and the
suffix of the format. If nothing stops it the text is there and all else is as it was, and if
something does there is no other place where anything has changed. -/
theorem export_stays_inside :
    (∀ name, fileName name ≠ "" ∧
      (∀ c ∈ (fileName name).toList, Text.isWord c = true ∧ c ∉ ['/', '.', '\x00']) ∧
      fileName (fileName name) = fileName name) ∧
    ∀ (g : Graph) (path : String) (format : Format) (text : String),
      exportText g format = some text →
      builtFile g (Path.ofString path) format =
        (Path.ofString path).child (exportName g format) ∧
      ∀ mayFail t e t',
        (exportGraph g (Path.ofString path) format.name).Runs mayFail t e t' →
        (∀ p, e.result = .ok p → p = (Path.ofString path).child (exportName g format) ∧
          ∃ here, Filed (Path.ofString path) (exportName g format)
            (Text.Utf8.encode text.toList) t t' here) ∧
        ((∀ p, ¬ mayFail (.status p)) → (∀ p, ¬ mayFail (.delete p)) →
          '\x00' ∉ (Path.ofString path).text.toList → (∀ part ∈ t.home, '\x00' ∉ part.toList) →
          ∀ q, t'.find? q ≠ t.find? q → ∃ here, t.locate (Path.ofString path) = .ok here ∧
            q = here ++ [exportName g format]) := by
  refine ⟨fun name => ⟨fileName_ne_empty name, fun c hc => ⟨isWord_of_mem_fileName hc, fun h => ?_⟩,
    fileName_fileName name⟩, fun g path format text htext => ⟨builtFile_eq_child g path format, ?_⟩⟩
  · exact not_mem_fileName name (isWord_separators c h) hc
  have hback := exportName_ne g format (by decide : "..".length ≤ 2)
  have hfile : writtenFile g (Path.ofString path) format =
      (Path.ofString path).child (exportName g format) := writtenFile_eq_child htext
  intro mayFail t e t' h
  constructor
  · intro p hp
    obtain ⟨rfl, hputs⟩ := exportGraph_ok htext h hp
    rw [hfile] at hputs ⊢
    exact ⟨rfl, filed_of_puts hback hputs⟩
  · intro hstatus hdelete hdirectory hhome q hq
    rcases exportGraph_keeps hstatus hdelete hdirectory hhome htext h with rfl | ⟨left, hputs⟩
    · exact absurd rfl hq
    · rw [hfile] at hputs
      obtain ⟨here, hfiled⟩ := filed_of_puts hback hputs
      exact ⟨here, hfiled.leads, Decidable.byContradiction fun hne => hq (hfiled.others q hne)⟩

/-- A name with a final sigma among what is not of words, and a directory that leads up first. -/
def slyGraph : Graph where
  name := "../ΑΣ.\x00 İ"

def slyTree : Tree where
  home := ["work"]
  entries := [(["out"], .directory), (["out", "_ας_i.yuml"], .file [107])]

def slyExport (format : Format) : Exporting × Tree :=
  (exportGraph slyGraph (Path.ofString "./../out//") format.name).run slyTree

def stoppedExport : Exporting × Tree :=
  (exportGraph slyGraph (Path.ofString "./../out//") "json").runAgainst Disk.full slyTree

theorem slyGraph_stays_inside : exportName slyGraph .yuml = "_ας_i.yuml" ∧
    (∃ here, Filed (Path.ofString "./../out//") (exportName slyGraph .yuml)
      (Text.Utf8.encode (Yuml.document slyGraph).toList) slyTree (slyExport .yuml).2 here) ∧
    (∃ here, Filed (Path.ofString "./../out//") (exportName slyGraph .json)
      (Text.Utf8.encode (jsonText slyGraph defaultIndent).toList) slyTree (slyExport .json).2
      here) ∧
    ∀ q, stoppedExport.2.find? q ≠ slyTree.find? q →
      ∃ here, slyTree.locate (Path.ofString "./../out//") = .ok here ∧
        q = here ++ [exportName slyGraph .json] := by
  have hyuml : (slyExport .yuml).1.result = .ok ⟨"", ["..", "out", "_ας_i.yuml"]⟩ := rfl
  have hjson : (slyExport .json).1.result = .ok ⟨"", ["..", "out", "_ας_i.json"]⟩ := rfl
  have hstopped : (exportGraph slyGraph (Path.ofString "./../out//") "json").Runs exceptCleanup
      slyTree stoppedExport.1 stoppedExport.2 :=
    Disk.runs_runAgainst_full (fun _ _ => trivial) _ slyTree
  have hdirectory : '\x00' ∉ (Path.ofString "./../out//").text.toList := by decide
  have hhome : ∀ part ∈ slyTree.home, '\x00' ∉ part.toList := by decide
  have h := export_stays_inside.2 slyGraph "./../out//"
  refine ⟨by decide, ?_, ?_, ?_⟩
  · exact (((h .yuml _ rfl).2 (fun _ => False) _ _ _ (Disk.runs_run _ slyTree)).1 _ hyuml).2
  · exact (((h .json _ rfl).2 (fun _ => False) _ _ _ (Disk.runs_run _ slyTree)).1 _ hjson).2
  · exact ((h .json _ rfl).2 _ _ _ _ hstopped).2 (fun _ => id) (fun _ => id) hdirectory hhome

end FlowGraph
