import FlowGraph.Files.Operation

/-! Places in a tree of files. To put or erase an entry changes what is found at its place and
nowhere else; and a path leads to the same place as long as the directories stay. -/

namespace FlowGraph.Files.Tree

variable {t u : Tree} {place q : Place} {e : Entry} {p : Path}

theorem not_above_home (h : t.find? place ≠ some .directory) :
    place.isPrefixOf t.home = false := by
  cases habove : place.isPrefixOf t.home with
  | false => rfl
  | true => exact absurd (by rw [find?, if_pos habove]) h

theorem find?_put_self (h : t.find? place ≠ some .directory) :
    (t.put place e).find? place = some e := by
  have hhome : place.isPrefixOf t.home = false := not_above_home h
  have hgone : (t.entries.filter (·.1 != place)).find? (·.1 == place) = none := by
    rw [List.find?_eq_none]
    intro entry hentry
    simpa using (List.mem_filter.mp hentry).2
  simp [find?, put, hhome, List.find?_append, hgone]

theorem find?_filter_of_ne (hq : q ≠ place) (entries : List (Place × Entry)) :
    (entries.filter (·.1 != place)).find? (·.1 == q) = entries.find? (·.1 == q) := by
  rw [List.find?_filter]
  congr 1
  funext entry
  by_cases h : entry.1 = q
  · simp [h, hq]
  · simp [h]

theorem find?_put_of_ne (hq : q ≠ place) : (t.put place e).find? q = t.find? q := by
  have hother : [(place, e)].find? (·.1 == q) = none := by
    simpa using Ne.symm hq
  have hentries : (t.put place e).entries.find? (·.1 == q) = t.entries.find? (·.1 == q) := by
    rw [put, List.find?_append, find?_filter_of_ne hq, hother, Option.or_none]
  rw [find?, hentries]
  rfl

theorem find?_erase_of_ne (hq : q ≠ place) : (t.erase place).find? q = t.find? q := by
  have hentries : (t.erase place).entries.find? (·.1 == q) = t.entries.find? (·.1 == q) :=
    find?_filter_of_ne hq t.entries
  rw [find?, hentries]
  rfl

theorem erase_of_find?_eq_none (h : t.find? place = none) : t.erase place = t := by
  have hhome : place.isPrefixOf t.home = false := not_above_home (by simp [h])
  have hnone : ∀ entry ∈ t.entries, entry.1 ≠ place := by
    simpa [find?, hhome] using h
  have hall : t.entries.filter (·.1 != place) = t.entries := by
    rw [List.filter_eq_self]
    exact fun entry hentry => bne_iff_ne.mpr (hnone entry hentry)
  rw [erase, hall]

theorem erase_put (t : Tree) (place : Place) (e : Entry) :
    (t.put place e).erase place = t.erase place := by
  simp [put, erase]

/-! Where paths lead. -/

theorem enter_of_directories (hd : ∀ q, t.find? q = some .directory → u.find? q = some .directory)
    {here : Place} {parts : List String} (h : t.enter here parts = .ok q) :
    u.enter here parts = .ok q := by
  induction parts generalizing here with
  | nil => exact h
  | cons part rest ih =>
    unfold enter at h ⊢
    by_cases hup : part = ".."
    · simp only [hup, if_true] at h ⊢
      exact ih h
    by_cases hlong : partLimit < part.utf8ByteSize
    · simp only [hup, hlong, if_false, if_true] at h
      cases h
    simp only [hup, hlong, if_false] at h ⊢
    cases hfound : t.find? (here ++ [part]) with
    | none =>
      rw [hfound] at h
      cases h
    | some entry =>
      rw [hfound] at h
      cases entry with
      | file content => cases h
      | directory =>
        rw [hd _ hfound]
        exact ih h

/-- The last part of a path, unless it leads back, names the place in its directory. -/
theorem locate_eq_ok_iff {last : String} (hlast : p.parts.getLast? = some last)
    (hback : last ≠ "..") : t.locate p = .ok place ↔
      '\x00' ∉ p.text.toList ∧ ¬ pathLimit < p.text.utf8ByteSize ∧
      ¬ partLimit < last.utf8ByteSize ∧ ∃ here,
        t.enter (if p.root = "" then t.home else []) p.parts.dropLast = .ok here ∧
        place = here ++ [last] := by
  unfold locate
  by_cases hnul : '\x00' ∈ p.text.toList
  · simp [hnul]
  by_cases hlong : pathLimit < p.text.utf8ByteSize
  · simp [hnul, hlong]
  simp only [List.contains_eq_mem, hnul, decide_false, Bool.false_eq_true, if_false, hlong, hlast]
  cases henter : t.enter (if p.root = "" then t.home else []) p.parts.dropLast with
  | error reason => simp [Bind.bind, Except.bind]
  | ok here =>
    by_cases hpart : partLimit < last.utf8ByteSize
    · simp [Bind.bind, Except.bind, hback, hpart, throw, throwThe, MonadExceptOf.throw]
    · simp [Bind.bind, Except.bind, hback, hpart, pure, Except.pure, eq_comm]

theorem locate_of_directories (hhome : u.home = t.home)
    (hd : ∀ q, t.find? q = some .directory → u.find? q = some .directory) {last : String}
    (hlast : p.parts.getLast? = some last) (hback : last ≠ "..") (h : t.locate p = .ok place) :
    u.locate p = .ok place := by
  obtain ⟨hnul, hlong, hpart, here, henter, hplace⟩ := (locate_eq_ok_iff hlast hback).mp h
  have hother := enter_of_directories hd henter
  rw [← hhome] at hother
  exact (locate_eq_ok_iff hlast hback).mpr ⟨hnul, hlong, hpart, here, hother, hplace⟩

/-- A new file where no directory was blocks no way. -/
theorem locate_put {goal : Place} (hgoal : t.find? goal ≠ some .directory) (e : Entry)
    {last : String} (hlast : p.parts.getLast? = some last) (hback : last ≠ "..")
    (h : t.locate p = .ok place) : (t.put goal e).locate p = .ok place := by
  have hhome : (t.put goal e).home = t.home := rfl
  refine locate_of_directories hhome (fun q hq => ?_) hlast hback h
  have hne : q ≠ goal := by
    rintro rfl
    exact hgoal hq
  rw [find?_put_of_ne hne, hq]

theorem enter_ne_nul (here : Place) (parts : List String) :
    t.enter here parts ≠ .error .nulCharacter := by
  induction parts generalizing here with
  | nil => simp [enter]
  | cons part rest ih =>
    unfold enter
    by_cases hup : part = ".."
    · simpa only [hup, if_true] using ih here.dropLast
    by_cases hlong : partLimit < part.utf8ByteSize
    · simp [hup, hlong]
    simp only [hup, hlong, if_false]
    cases t.find? (here ++ [part]) with
    | none => simp
    | some entry =>
      cases entry with
      | file content => simp
      | directory => exact ih _

theorem nul_of_locate (h : t.locate p = .error .nulCharacter) : '\x00' ∈ p.text.toList := by
  unfold locate at h
  by_cases hnul : p.text.toList.contains '\x00' = true
  · simpa using hnul
  simp only [hnul, Bool.false_eq_true, if_false] at h
  by_cases hlong : pathLimit < p.text.utf8ByteSize
  · simp [hlong] at h
  simp only [hlong, if_false] at h
  cases hlast : p.parts.getLast? with
  | none => simp [hlast] at h
  | some last =>
    simp only [hlast] at h
    cases henter : t.enter (if p.root = "" then t.home else []) p.parts.dropLast with
    | error reason =>
      rw [henter] at h
      exact absurd (Except.error.inj h ▸ henter) (enter_ne_nul _ _)
    | ok here =>
      rw [henter] at h
      by_cases hback : last = ".."
      · simp [Bind.bind, Except.bind, hback, pure, Except.pure] at h
      · by_cases hpart : partLimit < last.utf8ByteSize <;>
          simp [Bind.bind, Except.bind, hback, hpart, pure, Except.pure, throw, throwThe,
            MonadExceptOf.throw] at h

/-- A path without the null character is never refused for one. -/
theorem read_ne_nul (hp : '\x00' ∉ p.text.toList) {fault : Fault}
    (h : t.read p = .error fault) : fault.reason ≠ .nulCharacter := by
  unfold read at h
  cases hl : t.locate p with
  | error reason =>
    rw [hl] at h
    obtain rfl := Except.error.inj h
    rintro (rfl : reason = .nulCharacter)
    exact hp (nul_of_locate hl)
  | ok place =>
    rw [hl] at h
    cases hfound : t.find? place with
    | none =>
      simp only [hfound] at h
      obtain rfl := Except.error.inj h
      simp
    | some entry =>
      simp only [hfound] at h
      cases entry with
      | file content => cases h
      | directory =>
        obtain rfl := Except.error.inj h
        simp

end FlowGraph.Files.Tree
