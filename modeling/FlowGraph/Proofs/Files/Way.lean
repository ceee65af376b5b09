import FlowGraph.Proofs.Files.Path
import FlowGraph.Proofs.Files.Tree
import Mathlib.Data.List.Infix

/-! The way that a path takes. What it comes by are directories, and those that are missing can be
made just if no file stands in their place. -/

namespace FlowGraph.Files

/-- A file system takes the path, wherever it leads. -/
structure Path.Fits (p : Path) : Prop where
  nul : '\x00' ∉ p.text.toList
  short : ¬ Tree.pathLimit < p.text.utf8ByteSize

instance : DecidablePred Path.Fits := fun p =>
  decidable_of_iff ('\x00' ∉ p.text.toList ∧ ¬ Tree.pathLimit < p.text.utf8ByteSize)
    ⟨fun ⟨hnul, hshort⟩ => ⟨hnul, hshort⟩, fun ⟨hnul, hshort⟩ => ⟨hnul, hshort⟩⟩

theorem Path.Fits.of_child {p : Path} {name : String} (h : (p.child name).Fits) : p.Fits := by
  obtain ⟨hnul, hshort⟩ := h
  rcases p.text_child name with ⟨hdot, -⟩ | hmore | hmore
  · exact ⟨by rw [hdot]; decide, by rw [hdot]; decide⟩
  all_goals
    rw [hmore] at hnul hshort
    simp only [String.toList_append, List.mem_append, not_or] at hnul
    simp only [String.utf8ByteSize_append] at hshort
  · exact ⟨hnul.1, by omega⟩
  · exact ⟨hnul.1.1, by omega⟩

theorem Path.Fits.parent {p : Path} (h : p.Fits) : p.parent.Fits := by
  cases hlast : p.parts.getLast? with
  | none =>
    have hparts : p.parts = [] := List.getLast?_eq_none_iff.mp hlast
    have hself : p.parent = p := by
      cases p
      simp_all [Path.parent]
    rwa [hself]
  | some last => exact (Path.eq_child_of_getLast? hlast ▸ h).of_child

namespace Tree

variable {t u : Tree} {here q : Place} {part : String} {parts : List String} {p : Path}

/-- The place that a path starts from. -/
def start (t : Tree) (p : Path) : Place :=
  if p.root = "" then t.home else []

theorem enter_up (t : Tree) (here : Place) : t.enter here [".."] = .ok here.dropLast :=
  rfl

theorem enter_part (hpart : part ≠ "..") : t.enter here [part] = .ok q ↔
    ¬ partLimit < part.utf8ByteSize ∧ t.find? (here ++ [part]) = some .directory ∧
      q = here ++ [part] := by
  rw [enter, if_neg hpart]
  by_cases hlong : partLimit < part.utf8ByteSize
  · simp [hlong]
  simp only [hlong, if_false, not_false_eq_true, true_and]
  cases t.find? (here ++ [part]) with
  | none => simp
  | some e => cases e <;> simp [enter, eq_comm]

theorem enter_cons (t : Tree) (here : Place) (part : String) (rest : List String) :
    t.enter here (part :: rest) = (t.enter here [part]).bind fun q => t.enter q rest := by
  simp only [enter]
  by_cases hup : part = ".."
  · simp only [hup, if_true]
    rfl
  by_cases hlong : partLimit < part.utf8ByteSize
  · simp only [hup, hlong, if_false, if_true]
    rfl
  simp only [hup, hlong, if_false]
  cases t.find? (here ++ [part]) with
  | none => rfl
  | some e => cases e <;> rfl

theorem enter_append (t : Tree) (here : Place) (parts rest : List String) :
    t.enter here (parts ++ rest) = (t.enter here parts).bind fun q => t.enter q rest := by
  induction parts generalizing here with
  | nil => rfl
  | cons part parts ih =>
    rw [List.cons_append, enter_cons, enter_cons t here part parts]
    cases t.enter here [part] with
    | error reason => rfl
    | ok q => exact ih q

/-! Places that are directories with all above them. -/

def Reached (t : Tree) (here : Place) : Prop :=
  ∀ q, q <+: here → t.find? q = some .directory

theorem Reached.find? (h : t.Reached here) : t.find? here = some .directory :=
  h here (List.prefix_refl here)

theorem Reached.dropLast (h : t.Reached here) : t.Reached here.dropLast :=
  fun q hq => h q (hq.trans (List.dropLast_prefix here))

theorem reached_start (t : Tree) (p : Path) : t.Reached (t.start p) := by
  intro q hq
  have hhome : q <+: t.home := by
    unfold start at hq
    split at hq
    · exact hq
    · rw [List.prefix_nil.mp hq]
      exact List.nil_prefix
  rw [Tree.find?, if_pos (List.isPrefixOf_iff_prefix.mpr hhome)]

theorem Reached.enter (h : t.Reached here) (henter : t.enter here parts = .ok q) :
    t.Reached q := by
  induction parts generalizing here with
  | nil => exact Except.ok.inj henter ▸ h
  | cons part rest ih =>
    rw [enter_cons] at henter
    cases hstep : t.enter here [part] with
    | error reason =>
      rw [hstep] at henter
      cases henter
    | ok next =>
      rw [hstep] at henter
      refine ih ?_ henter
      by_cases hup : part = ".."
      · subst hup
        exact Except.ok.inj hstep ▸ h.dropLast
      · obtain ⟨-, hfound, rfl⟩ := (enter_part hup).mp hstep
        intro place hplace
        rcases List.prefix_concat_iff.mp hplace with rfl | hplace
        · exact hfound
        · exact h place hplace

/-! Ways that are open, though some of their directories may be missing. -/

def Opens (t : Tree) (here : Place) : List String → Prop
  | [] => True
  | part :: rest =>
    if part = ".." then t.Opens here.dropLast rest
    else ¬ partLimit < part.utf8ByteSize ∧ (∀ e ∈ t.find? (here ++ [part]), e = .directory) ∧
      t.Opens (here ++ [part]) rest

instance decidableOpens (t : Tree) : (here : Place) → (parts : List String) →
    Decidable (t.Opens here parts)
  | _, [] => .isTrue trivial
  | here, part :: rest =>
    have := decidableOpens t here.dropLast rest
    have := decidableOpens t (here ++ [part]) rest
    inferInstanceAs (Decidable (if part = ".." then t.Opens here.dropLast rest
      else ¬ partLimit < part.utf8ByteSize ∧ (∀ e ∈ t.find? (here ++ [part]), e = .directory) ∧
        t.Opens (here ++ [part]) rest))

theorem opens_up {rest : List String} : t.Opens here (".." :: rest) ↔ t.Opens here.dropLast rest :=
  Iff.rfl

theorem opens_part (hpart : part ≠ "..") {rest : List String} : t.Opens here (part :: rest) ↔
    ¬ partLimit < part.utf8ByteSize ∧ (∀ e ∈ t.find? (here ++ [part]), e = .directory) ∧
      t.Opens (here ++ [part]) rest := by
  rw [Opens, if_neg hpart]

theorem opens_of_opens_append {rest : List String} (h : t.Opens here (parts ++ rest)) :
    t.Opens here parts := by
  induction parts generalizing here with
  | nil => trivial
  | cons part parts ih =>
    rw [List.cons_append] at h
    by_cases hup : part = ".."
    · subst hup
      exact opens_up.mpr (ih (opens_up.mp h))
    · obtain ⟨hshort, hfound, hrest⟩ := (opens_part hup).mp h
      exact (opens_part hup).mpr ⟨hshort, hfound, ih hrest⟩

theorem opens_of_enter_ok (h : t.enter here parts = .ok q) : t.Opens here parts := by
  induction parts generalizing here with
  | nil => trivial
  | cons part rest ih =>
    rw [enter_cons] at h
    cases hstep : t.enter here [part] with
    | error reason =>
      rw [hstep] at h
      cases h
    | ok next =>
      rw [hstep] at h
      have hrest := ih h
      by_cases hup : part = ".."
      · subst hup
        obtain rfl := Except.ok.inj hstep
        exact opens_up.mpr hrest
      · obtain ⟨hshort, hfound, rfl⟩ := (enter_part hup).mp hstep
        exact (opens_part hup).mpr ⟨hshort, by simp [hfound], hrest⟩

/-- Only what is missing stops the way. -/
theorem enter_of_opens (h : t.Opens here parts) :
    (∃ q, t.enter here parts = .ok q) ∨ t.enter here parts = .error .notFound := by
  induction parts generalizing here with
  | nil => exact .inl ⟨here, rfl⟩
  | cons part rest ih =>
    by_cases hup : part = ".."
    · subst hup
      exact ih (opens_up.mp h)
    · obtain ⟨hshort, hfound, hrest⟩ := (opens_part hup).mp h
      rw [enter, if_neg hup, if_neg hshort]
      cases hnext : t.find? (here ++ [part]) with
      | none => exact .inr rfl
      | some e =>
        obtain rfl := hfound e hnext
        exact ih hrest

theorem opens_of_enter {rest : List String} (henter : t.enter here parts = .ok q)
    (h : t.Opens here (parts ++ rest)) : t.Opens q rest := by
  induction parts generalizing here with
  | nil => exact Except.ok.inj henter ▸ h
  | cons part parts ih =>
    rw [List.cons_append] at h
    by_cases hup : part = ".."
    · subst hup
      exact ih henter (opens_up.mp h)
    · obtain ⟨hshort, hfound, hrest⟩ := (opens_part hup).mp h
      rw [enter, if_neg hup, if_neg hshort] at henter
      cases hnext : t.find? (here ++ [part]) with
      | none =>
        rw [hnext] at henter
        cases henter
      | some e =>
        rw [hnext] at henter
        obtain rfl := hfound e hnext
        exact ih henter hrest

/-! Paths that lead to directories, or can be made to. -/

/-- The place of a name in a directory. -/
def nameIn (here : Place) (last : String) : Except Reason Place :=
  if last = ".." then .ok here.dropLast
  else if partLimit < last.utf8ByteSize then .error .nameTooLong
  else .ok (here ++ [last])

theorem locate_of_no_parts (hp : p.Fits) (hparts : p.parts = []) :
    t.locate p = .ok (t.start p) := by
  simp [locate, hp.nul, hp.short, hparts, start]

theorem locate_of_last (hp : p.Fits) {last : String} (hlast : p.parts.getLast? = some last) :
    t.locate p = (t.enter (t.start p) p.parts.dropLast).bind fun here => nameIn here last := by
  simp only [locate, List.contains_eq_mem, hp.nul, hp.short, decide_false, Bool.false_eq_true,
    if_false, hlast]
  rfl

/-- No place has a name of so many bytes. -/
theorem locate_of_long_name {name : String} (hslash : '/' ∉ name.toList)
    (hnul : '\x00' ∉ name.toList) (hlong : partLimit < name.utf8ByteSize) :
    t.locate (Path.ofString name) = .error .nameTooLong := by
  have hne {s : String} (hs : s.utf8ByteSize ≤ partLimit) : name ≠ s := by
    rintro rfl
    omega
  have htext : (Path.child {} name).text = name := by
    rw [Path.text_of_child]
    simp
  rw [Path.ofString_eq_child (hne (by decide)) (hne (by decide)) hslash]
  by_cases hfits : (Path.child {} name).Fits
  · have hlast : (Path.child {} name).parts.getLast? = some name := rfl
    rw [locate_of_last hfits hlast]
    simp only [Path.child, List.nil_append, List.dropLast_singleton]
    change nameIn _ name = _
    rw [nameIn, if_neg (hne (by decide)), if_pos hlong]
  · have hpath : pathLimit < (Path.child {} name).text.utf8ByteSize :=
      Decidable.byContradiction fun hshort => hfits ⟨htext.symm ▸ hnul, hshort⟩
    simp [locate, htext, hnul, htext ▸ hpath]

/-- Nothing stands against making all the directories of the path. -/
structure Admits (t : Tree) (p : Path) : Prop where
  fits : p.Fits
  opens : t.Opens (t.start p) p.parts

instance (t : Tree) : DecidablePred t.Admits := fun p =>
  decidable_of_iff (p.Fits ∧ t.Opens (t.start p) p.parts)
    ⟨fun ⟨hfits, hopens⟩ => ⟨hfits, hopens⟩, fun ⟨hfits, hopens⟩ => ⟨hfits, hopens⟩⟩

theorem status_of_locate (h : t.locate p = .ok q) :
    t.status p = .ok ((t.find? q).map (·.kind)) := by
  rw [status, h]

theorem status_ne_directory {reason : Reason} (h : t.locate p = .error reason) :
    t.status p ≠ .ok (some .directory) := by
  rw [status, h]
  cases reason <;> simp

theorem fits_of_locate (h : t.locate p = .ok q) : p.Fits := by
  unfold locate at h
  by_cases hnul : '\x00' ∈ p.text.toList
  · simp [hnul] at h
  by_cases hlong : pathLimit < p.text.utf8ByteSize
  · simp [hnul, hlong] at h
  exact ⟨hnul, hlong⟩

/-- A path to a directory may also be entered by its last part. -/
theorem directory_of_last (hp : p.Fits) {last : String} (hlast : p.parts.getLast? = some last)
    (hhere : t.enter (t.start p) p.parts.dropLast = .ok here) :
    t.status p = .ok (some .directory) ↔ ∃ q, t.enter here [last] = .ok q := by
  have hlocate := locate_of_last (t := t) hp hlast
  rw [hhere] at hlocate
  have hname : t.locate p = nameIn here last := hlocate
  by_cases hup : last = ".."
  · have hreached := ((reached_start t p).enter hhere).dropLast.find?
    rw [nameIn, if_pos hup] at hname
    rw [status_of_locate hname, hreached, hup]
    exact iff_of_true rfl ⟨_, enter_up t here⟩
  simp only [enter_part hup, exists_and_left, exists_eq, and_true]
  by_cases hlong : partLimit < last.utf8ByteSize
  · rw [nameIn, if_neg hup, if_pos hlong] at hname
    exact iff_of_false (status_ne_directory hname) fun h => h.1 hlong
  · rw [nameIn, if_neg hup, if_neg hlong] at hname
    rw [status_of_locate hname]
    cases t.find? (here ++ [last]) with
    | none => simp
    | some e => cases e <;> simp [Entry.kind, hlong]

theorem status_eq_directory_iff : t.status p = .ok (some .directory) ↔
    p.Fits ∧ ∃ q, t.enter (t.start p) p.parts = .ok q := by
  by_cases hp : p.Fits
  · simp only [hp, true_and]
    cases hlast : p.parts.getLast? with
    | none =>
      have hparts : p.parts = [] := List.getLast?_eq_none_iff.mp hlast
      rw [status_of_locate (locate_of_no_parts hp hparts), (reached_start t p).find?, hparts]
      exact iff_of_true rfl ⟨_, rfl⟩
    | some last =>
      obtain ⟨parts, hparts⟩ := List.getLast?_eq_some_iff.mp hlast
      have hfront : p.parts.dropLast = parts := by rw [hparts, List.dropLast_concat]
      rw [hparts, enter_append]
      cases hhere : t.enter (t.start p) parts with
      | ok here => exact directory_of_last hp hlast (hfront ▸ hhere)
      | error reason =>
        have hlocate := locate_of_last (t := t) hp hlast
        rw [hfront, hhere] at hlocate
        exact iff_of_false (status_ne_directory hlocate) (by rintro ⟨q, ⟨⟩⟩)
  · refine iff_of_false (fun h => ?_) fun h => hp h.1
    cases hlocate : t.locate p with
    | ok place => exact hp (fits_of_locate hlocate)
    | error reason => exact status_ne_directory hlocate h

/-- A path whose parts can all be entered leads there. -/
theorem locate_of_enter (hp : p.Fits) (h : t.enter (t.start p) p.parts = .ok q) :
    t.locate p = .ok q := by
  cases hlast : p.parts.getLast? with
  | none =>
    have hparts : p.parts = [] := List.getLast?_eq_none_iff.mp hlast
    rw [hparts] at h
    exact (locate_of_no_parts hp hparts).trans h
  | some last =>
    obtain ⟨parts, hparts⟩ := List.getLast?_eq_some_iff.mp hlast
    have hfront : p.parts.dropLast = parts := by rw [hparts, List.dropLast_concat]
    rw [locate_of_last hp hlast, hfront]
    rw [hparts, enter_append] at h
    cases hhere : t.enter (t.start p) parts with
    | error reason =>
      rw [hhere] at h
      cases h
    | ok here =>
      rw [hhere] at h
      have hstep : t.enter here [last] = .ok q := h
      change nameIn here last = .ok q
      by_cases hup : last = ".."
      · rw [nameIn, if_pos hup]
        rwa [hup, enter_up] at hstep
      · obtain ⟨hshort, -, rfl⟩ := (enter_part hup).mp hstep
        rw [nameIn, if_neg hup, if_neg hshort]

/-- A name after a path leads right into the directory that the path leads to. -/
theorem locate_child {name : String} {place : Place} (hname : name ≠ "..")
    (h : t.locate (p.child name) = .ok place) :
    ∃ here, t.locate p = .ok here ∧ t.find? here = some .directory ∧ place = here ++ [name] := by
  have hlast : (p.child name).parts.getLast? = some name := List.getLast?_concat
  have hfront : (p.child name).parts.dropLast = p.parts := List.dropLast_concat
  obtain ⟨-, -, -, here, henter, hplace⟩ := (locate_eq_ok_iff hlast hname).mp h
  rw [hfront] at henter
  exact ⟨here, locate_of_enter (fits_of_locate h).of_child henter,
    ((reached_start t p).enter henter).find?, hplace⟩

/-- Where the parent is there, the path leads to a directory or to a place for one. -/
theorem Admits.locate (h : t.Admits p)
    (hhere : t.enter (t.start p) p.parts.dropLast = .ok here) :
    ∃ place, t.locate p = .ok place ∧ ∀ e ∈ t.find? place, e = .directory := by
  cases hlast : p.parts.getLast? with
  | none =>
    refine ⟨_, locate_of_no_parts h.fits (List.getLast?_eq_none_iff.mp hlast), ?_⟩
    rw [(reached_start t p).find?]
    simp
  | some last =>
    obtain ⟨parts, hparts⟩ := List.getLast?_eq_some_iff.mp hlast
    have hfront : p.parts.dropLast = parts := by rw [hparts, List.dropLast_concat]
    have hlocate := locate_of_last (t := t) h.fits hlast
    rw [hhere] at hlocate
    have hname : t.locate p = nameIn here last := hlocate
    have hopens := h.opens
    rw [hparts] at hopens
    have hopen := opens_of_enter (hfront ▸ hhere) hopens
    by_cases hup : last = ".."
    · rw [nameIn, if_pos hup] at hname
      refine ⟨_, hname, ?_⟩
      rw [((reached_start t p).enter hhere).dropLast.find?]
      simp
    · obtain ⟨hshort, hfound, -⟩ := (opens_part hup).mp hopen
      rw [nameIn, if_neg hup, if_neg hshort] at hname
      exact ⟨_, hname, hfound⟩

/-- Where it is not, it is admitted as well. -/
theorem Admits.parent (h : t.Admits p) : t.Admits p.parent := by
  refine ⟨h.fits.parent, ?_⟩
  have hopens := h.opens
  cases hlast : p.parts.getLast? with
  | none =>
    have hparts : p.parent.parts = [] := by
      rw [Path.parent, List.getLast?_eq_none_iff.mp hlast, List.dropLast_nil]
    rw [hparts]
    trivial
  | some last =>
    obtain ⟨parts, hparts⟩ := List.getLast?_eq_some_iff.mp hlast
    rw [hparts] at hopens
    have hfront : p.parent.parts = parts := by rw [Path.parent, hparts, List.dropLast_concat]
    rw [hfront]
    exact opens_of_opens_append hopens

end Tree

end FlowGraph.Files
