import FlowGraph.Files.Path
import Mathlib.Tactic.Common

/-! The characters of paths, what becomes of a path when a name is put at its end, and paths and
their texts. -/

namespace FlowGraph.Files.Path

variable {s : List Char} {c : Char}

theorem splitSlashes_ne_nil (s : List Char) : splitSlashes s ≠ [] := by
  fun_cases splitSlashes s <;> simp [*]

theorem splitSlashes_slash (s : List Char) : splitSlashes ('/' :: s) = [] :: splitSlashes s :=
  rfl

theorem splitSlashes_cons {piece : List Char} {pieces : List (List Char)} (hc : c ≠ '/')
    (h : splitSlashes s = piece :: pieces) : splitSlashes (c :: s) = (c :: piece) :: pieces := by
  rw [splitSlashes, h]
  exact hc

theorem mem_of_mem_splitSlashes {piece : List Char} (hp : piece ∈ splitSlashes s)
    (hc : c ∈ piece) : c ∈ s := by
  induction s generalizing piece with
  | nil =>
    obtain rfl := List.mem_singleton.mp hp
    exact hc
  | cons d rest ih =>
    obtain ⟨first, pieces, hrest⟩ := List.exists_cons_of_ne_nil (splitSlashes_ne_nil rest)
    by_cases hd : d = '/'
    · subst hd
      rcases List.mem_cons.mp hp with rfl | hp
      · cases hc
      · exact List.mem_cons_of_mem _ (ih hp hc)
    · rw [splitSlashes_cons hd hrest] at hp
      rcases List.mem_cons.mp hp with rfl | hp
      · rcases List.mem_cons.mp hc with rfl | hc
        · exact List.mem_cons_self
        · exact List.mem_cons_of_mem _ (ih (by simp [hrest]) hc)
      · exact List.mem_cons_of_mem _ (ih (by simp [hrest, hp]) hc)

/-- A text without slashes goes to the last piece. -/
theorem splitSlashes_append (s : List Char) {t : List Char} (ht : '/' ∉ t) :
    ∃ pieces last, splitSlashes s = pieces ++ [last] ∧
      splitSlashes (s ++ t) = pieces ++ [last ++ t] := by
  induction s with
  | nil =>
    refine ⟨[], [], rfl, ?_⟩
    induction t with
    | nil => rfl
    | cons d t ih =>
      have hd : d ≠ '/' := fun h => ht (h ▸ List.mem_cons_self)
      have hrest := ih fun h => ht (List.mem_cons_of_mem d h)
      exact splitSlashes_cons hd hrest
  | cons d s ih =>
    obtain ⟨pieces, last, hs, hst⟩ := ih
    by_cases hd : d = '/'
    · subst hd
      exact ⟨[] :: pieces, last, congrArg ([] :: ·) hs, congrArg ([] :: ·) hst⟩
    · cases pieces with
      | nil => exact ⟨[], d :: last, splitSlashes_cons hd hs, splitSlashes_cons hd hst⟩
      | cons piece pieces =>
        exact ⟨(d :: piece) :: pieces, last, splitSlashes_cons hd hs, splitSlashes_cons hd hst⟩

theorem mem_of_mem_parts_ofString {path part : String} (hp : part ∈ (ofString path).parts)
    (hc : c ∈ part.toList) : c ∈ path.toList := by
  obtain ⟨piece, hpiece, rfl⟩ := List.mem_map.mp (List.mem_filter.mp hp).1
  rw [String.toList_ofList] at hc
  exact mem_of_mem_splitSlashes hpiece hc

theorem root_ofString (path : String) : (ofString path).root ∈ ["", "/", "//"] := by
  unfold ofString rootOf
  dsimp only
  split <;> simp

/-- The last part of a path to which a name was put. -/
theorem getLast?_ofString_append (path : String) {name : String} (hslash : '/' ∉ name.toList)
    (hname : 2 ≤ name.length) :
    ∃ stem, (ofString (path ++ name)).parts.getLast? = some (stem ++ name) := by
  obtain ⟨pieces, last, -, hsplit⟩ := splitSlashes_append path.toList hslash
  have hlast : String.ofList (last ++ name.toList) = String.ofList last ++ name := by simp
  have hne (t : String) (ht : t.length < 2) : String.ofList last ++ name ≠ t := by
    rintro rfl
    rw [String.length_append] at ht
    omega
  have hkept : decide (String.ofList last ++ name ≠ "" ∧ String.ofList last ++ name ≠ ".") = true :=
    decide_eq_true ⟨hne "" (by decide), hne "." (by decide)⟩
  refine ⟨String.ofList last, ?_⟩
  unfold ofString
  dsimp only
  rw [String.toList_append, hsplit, List.map_append, List.map_singleton, hlast,
    List.filter_append, List.filter_cons, if_pos hkept, List.getLast?_append]
  rfl

theorem mem_absolute {home : List String} {p : Path} {part : String}
    (h : part ∈ (p.absolute home).parts) : part ∈ home ∨ part ∈ p.parts := by
  have hfold (parts done : List String)
      (h : part ∈ parts.foldl (fun parts part =>
        if part = ".." then parts.dropLast else parts ++ [part]) done) :
      part ∈ done ∨ part ∈ parts := by
    induction parts generalizing done with
    | nil => exact .inl h
    | cons next parts ih =>
      rcases ih _ h with h | h
      · dsimp only at h
        split at h
        · exact .inl (List.dropLast_subset _ h)
        · rcases List.mem_append.mp h with h | h
          · exact .inl h
          · exact .inr (List.mem_singleton.mp h ▸ List.mem_cons_self)
      · exact .inr (List.mem_cons_of_mem next h)
  rcases hfold _ _ h with h | h
  · split at h
    · exact .inl h
    · cases h
  · exact .inr h

/-- Besides its parts, the text of a path has its root, slashes and a dot. -/
theorem mem_text {p : Path} (h : c ∈ p.text.toList) :
    c ∈ p.root.toList ∨ c = '/' ∨ c = '.' ∨ ∃ part ∈ p.parts, c ∈ part.toList := by
  have hjoin (parts : List String) (h : c ∈ ("/".intercalate parts).toList) :
      c = '/' ∨ ∃ part ∈ parts, c ∈ part.toList := by
    rw [String.toList_intercalate] at h
    induction parts with
    | nil => cases h
    | cons part parts ih =>
      cases parts with
      | nil => exact .inr ⟨part, List.mem_cons_self, by simpa using h⟩
      | cons next parts =>
        simp only [List.map_cons, List.intercalate_cons_cons, List.mem_append] at h ih
        rcases h with (h | h) | h
        · exact .inr ⟨part, List.mem_cons_self, h⟩
        · exact .inl (by simpa using h)
        · rcases ih h with h | ⟨other, hother, h⟩
          · exact .inl h
          · exact .inr ⟨other, List.mem_cons_of_mem part hother, h⟩
  unfold text at h
  split at h
  · exact .inr (.inr (.inl (by simpa using h)))
  · rw [String.toList_append, List.mem_append] at h
    rcases h with h | h
    · exact .inl h
    · rcases hjoin _ h with h | h
      · exact .inr (.inl h)
      · exact .inr (.inr (.inr h))

theorem text_of_child (p : Path) (name : String) :
    (p.child name).text = p.root ++ "/".intercalate (p.parts ++ [name]) := by
  have hparts : (p.child name).parts = p.parts ++ [name] := rfl
  rw [text, hparts, if_neg (by simp)]
  rfl

theorem text_child (p : Path) (name : String) :
    p.text = "." ∧ (p.child name).text = name ∨ (p.child name).text = p.text ++ name ∨
      (p.child name).text = p.text ++ "/" ++ name := by
  have htext := p.text_of_child name
  by_cases hhere : p.root = "" ∧ p.parts = []
  · refine .inl ⟨if_pos hhere, ?_⟩
    rw [htext, hhere.1, hhere.2, List.nil_append, String.intercalate_singleton]
    simp
  rw [htext, text, if_neg hhere]
  by_cases hnone : p.parts = []
  · refine .inr (.inl ?_)
    rw [hnone, List.nil_append, String.intercalate_singleton, String.intercalate_nil]
    simp
  · refine .inr (.inr ?_)
    rw [String.intercalate_append_of_ne_nil hnone (by simp), String.intercalate_singleton]
    simp [String.append_assoc]

/-- A suffix to the text is one to the last part. -/
theorem text_child_append (p : Path) (name suffix : String) :
    (p.child name).text ++ suffix = (p.child (name ++ suffix)).text := by
  rw [text_of_child, text_of_child]
  by_cases hnone : p.parts = []
  · simp [hnone, String.append_assoc]
  · rw [String.intercalate_append_of_ne_nil hnone (by simp),
      String.intercalate_append_of_ne_nil hnone (by simp)]
    simp [String.append_assoc]

theorem eq_child_of_getLast? {p : Path} {last : String} (h : p.parts.getLast? = some last) :
    p = p.parent.child last := by
  obtain ⟨parts, hparts⟩ := List.getLast?_eq_some_iff.mp h
  cases p with
  | mk root _ =>
    obtain rfl := hparts
    simp [child, parent]

/-! Paths as they are read from texts. Their texts are read back. -/

structure Plain (p : Path) : Prop where
  root : p.root ∈ ["", "/", "//"]
  parts : ∀ part ∈ p.parts, part ≠ "" ∧ part ≠ "." ∧ '/' ∉ part.toList

theorem not_mem_of_mem_splitSlashes (s : List Char) : ∀ piece ∈ splitSlashes s, '/' ∉ piece := by
  induction s with
  | nil => simp [splitSlashes]
  | cons d rest ih =>
    obtain ⟨first, pieces, hrest⟩ := List.exists_cons_of_ne_nil (splitSlashes_ne_nil rest)
    rw [hrest, List.forall_mem_cons] at ih
    by_cases hd : d = '/'
    · subst hd
      simpa [splitSlashes_slash, hrest] using ih
    · simpa [splitSlashes_cons hd hrest, Ne.symm hd] using ih

theorem plain_ofString (path : String) : (ofString path).Plain where
  root := root_ofString path
  parts := by
    intro part hpart
    obtain ⟨hmapped, hkept⟩ := List.mem_filter.mp hpart
    obtain ⟨piece, hpiece, rfl⟩ := List.mem_map.mp hmapped
    obtain ⟨hempty, hdot⟩ := of_decide_eq_true hkept
    rw [String.toList_ofList]
    exact ⟨hempty, hdot, not_mem_of_mem_splitSlashes _ _ hpiece⟩

theorem Plain.child {p : Path} (h : p.Plain) {name : String} (hempty : name ≠ "")
    (hdot : name ≠ ".") (hslash : '/' ∉ name.toList) : (p.child name).Plain where
  root := h.root
  parts := by
    intro part hpart
    rcases List.mem_append.mp hpart with hpart | hpart
    · exact h.parts part hpart
    · obtain rfl := List.mem_singleton.mp hpart
      exact ⟨hempty, hdot, hslash⟩

theorem splitSlashes_of_not_mem (h : '/' ∉ s) : splitSlashes s = [s] := by
  induction s with
  | nil => rfl
  | cons d s ih =>
    rw [List.mem_cons, not_or] at h
    exact splitSlashes_cons (Ne.symm h.1) (ih h.2)

theorem splitSlashes_append_slash (h : '/' ∉ s) (rest : List Char) :
    splitSlashes (s ++ '/' :: rest) = s :: splitSlashes rest := by
  induction s with
  | nil => rfl
  | cons d s ih =>
    rw [List.mem_cons, not_or] at h
    exact splitSlashes_cons (Ne.symm h.1) (ih h.2)

theorem splitSlashes_intercalate {parts : List String} (hnone : parts ≠ [])
    (h : ∀ part ∈ parts, '/' ∉ part.toList) :
    splitSlashes ("/".intercalate parts).toList = parts.map String.toList := by
  rw [String.toList_intercalate]
  induction parts with
  | nil => exact absurd rfl hnone
  | cons part parts ih =>
    rw [List.forall_mem_cons] at h
    cases parts with
    | nil => simpa using splitSlashes_of_not_mem h.1
    | cons next parts =>
      have hrest := ih (by simp) h.2
      simp only [List.map_cons, List.intercalate_cons_cons] at hrest ⊢
      rw [List.append_assoc]
      exact (splitSlashes_append_slash h.1 _).trans (congrArg _ hrest)

/-- The parts that a text has as a path. -/
def partsOf (s : List Char) : List String :=
  ((splitSlashes s).map String.ofList).filter fun part => part ≠ "" ∧ part ≠ "."

theorem partsOf_slash (s : List Char) : partsOf ('/' :: s) = partsOf s := by
  simp [partsOf, splitSlashes_slash]

theorem partsOf_root_append {root : String} (hroot : root ∈ ["", "/", "//"]) (s : List Char) :
    partsOf (root.toList ++ s) = partsOf s := by
  simp only [List.mem_cons, List.not_mem_nil, or_false] at hroot
  rcases hroot with rfl | rfl | rfl
  · rfl
  · exact partsOf_slash s
  · exact (partsOf_slash _).trans (partsOf_slash s)

theorem rootOf_append {root : String} (hroot : root ∈ ["", "/", "//"])
    (h : ∀ rest, s ≠ '/' :: rest) : rootOf (root.toList ++ s) = root := by
  have hnone : s.takeWhile (· = '/') = [] := by
    cases s with
    | nil => rfl
    | cons d rest =>
      have hd : d ≠ '/' := fun hd => h rest (hd ▸ rfl)
      simp [hd]
  simp only [List.mem_cons, List.not_mem_nil, or_false] at hroot
  rcases hroot with rfl | rfl | rfl <;> simp [rootOf, hnone]

namespace Plain

variable {p : Path}

theorem partsOf_intercalate (h : p.Plain) : partsOf ("/".intercalate p.parts).toList = p.parts := by
  by_cases hnone : p.parts = []
  · rw [hnone]
    decide
  · rw [partsOf, splitSlashes_intercalate hnone fun part hpart => (h.parts part hpart).2.2,
      List.map_map]
    simp only [Function.comp_def, String.ofList_toList, List.map_id']
    exact List.filter_eq_self.mpr fun part hpart =>
      decide_eq_true ⟨(h.parts part hpart).1, (h.parts part hpart).2.1⟩

/-- No more slashes follow the root. -/
theorem intercalate_ne (h : p.Plain) (rest : List Char) :
    ("/".intercalate p.parts).toList ≠ '/' :: rest := by
  intro hslash
  by_cases hnone : p.parts = []
  · rw [hnone, String.intercalate_nil] at hslash
    cases hslash
  · have hsplit := splitSlashes_intercalate hnone fun part hpart => (h.parts part hpart).2.2
    rw [hslash] at hsplit
    have hmem : [] ∈ p.parts.map String.toList := hsplit ▸ List.mem_cons_self
    obtain ⟨part, hpart, hnil⟩ := List.mem_map.mp hmem
    exact (h.parts part hpart).1 (String.toList_eq_nil_iff.mp hnil)

theorem ofString_text (h : p.Plain) : ofString p.text = p := by
  by_cases hhere : p.root = "" ∧ p.parts = []
  · rw [text, if_pos hhere]
    obtain ⟨root, parts⟩ := p
    obtain ⟨rfl, rfl⟩ := hhere
    decide
  have htext : p.text.toList = p.root.toList ++ ("/".intercalate p.parts).toList := by
    rw [text, if_neg hhere, String.toList_append]
  have hroot : rootOf p.text.toList = p.root := by
    rw [htext, rootOf_append h.root h.intercalate_ne]
  have hparts : partsOf p.text.toList = p.parts := by
    rw [htext, partsOf_root_append h.root, h.partsOf_intercalate]
  rw [ofString, hroot]
  cases p
  exact congrArg _ hparts

end Plain

/-- A text without slashes is the name of a file right here. -/
theorem ofString_eq_child {name : String} (hempty : name ≠ "") (hdot : name ≠ ".")
    (hslash : '/' ∉ name.toList) : ofString name = child {} name := by
  have hplain : (child {} name).Plain :=
    Plain.child ⟨by simp, fun _ h => (List.not_mem_nil h).elim⟩ hempty hdot hslash
  have hname : (child {} name).text = name := by
    rw [text_of_child]
    simp
  have hread := hplain.ofString_text
  rwa [hname] at hread

end FlowGraph.Files.Path
