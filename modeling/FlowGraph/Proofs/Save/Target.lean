import FlowGraph.Load
import FlowGraph.Proofs.Files.Attempt
import FlowGraph.Proofs.Files.Path
import FlowGraph.Save

/-! The target of a path. Its name always ends in the suffix for definitions, so it is a file of
its directory and no program; and what no file can be named after stands in the path itself. -/

namespace FlowGraph

open Files

theorem getLast?_saveTarget (path : String) :
    ∃ stem, (saveTarget path).parts.getLast? = some (stem ++ jsonSuffix) :=
  Path.getLast?_ofString_append path (by decide) (by decide)

theorem ne_dots (stem : String) : stem ++ jsonSuffix ≠ ".." := by
  intro h
  have hlength := congrArg String.length h
  have hsuffix : jsonSuffix.length = 5 := rfl
  have hdots : "..".length = 2 := rfl
  rw [String.length_append] at hlength
  omega

/-- The target is never taken for a program. -/
theorem suffix_saveTarget (path : String) : (saveTarget path).suffix ≠ programSuffix := by
  obtain ⟨stem, hlast⟩ := getLast?_saveTarget path
  have hname : (saveTarget path).name.toList.reverse = 'n' :: 'o' :: 's' :: 'j' :: '.' ::
      stem.toList.reverse := by
    rw [Path.name, hlast, Option.getD_some, String.toList_append, List.reverse_append]
    rfl
  unfold Path.suffix Path.suffixOf
  rw [hname]
  cases stem.toList.reverse with
  | nil => decide
  | cons c cs =>
    have hsuffix : String.ofList ['.', 'j', 's', 'o', 'n'] ≠ programSuffix := by decide
    exact hsuffix

theorem nul_of_part {path part : String} (hpart : part ∈ (saveTarget path).parts)
    (h : '\x00' ∈ part.toList) : '\x00' ∈ path.toList := by
  have hchars := Path.mem_of_mem_parts_ofString hpart h
  rw [String.toList_append, List.mem_append] at hchars
  exact hchars.resolve_right (by decide)

theorem nul_of_saveTarget {path : String} (h : '\x00' ∈ (saveTarget path).text.toList) :
    '\x00' ∈ path.toList := by
  have hroot : ∀ root ∈ ["", "/", "//"], '\x00' ∉ root.toList := by decide
  rcases Path.mem_text h with h | h | h | ⟨part, hpart, h⟩
  · exact absurd h (hroot _ (Path.root_ofString _))
  · exact absurd h (by decide)
  · exact absurd h (by decide)
  · exact nul_of_part hpart h

/-- The temporary file has the null character from the target or from the working directory. -/
theorem nul_of_freePath {t : Tree} {path : String}
    (h : '\x00' ∈ (t.freePath (saveTarget path)).text.toList) :
    '\x00' ∈ path.toList ∨ ∃ part ∈ t.home, '\x00' ∈ part.toList := by
  obtain ⟨mark, hmark, hfree⟩ := t.exists_freePath (saveTarget path)
  obtain ⟨stem, hlast⟩ := getLast?_saveTarget path
  have hname : (saveTarget path).name ∈ (saveTarget path).parts := by
    rw [Path.name, hlast, Option.getD_some]
    exact List.mem_of_getLast? hlast
  have hroots : ∀ root ∈ ["", "/", "//"],
      '\x00' ∉ (if root = "" then "/" else root).toList := by decide
  have hmiddle : '\x00' ∉ mark.toList := fun h => absurd (hmark _ h) (by decide)
  have hstart : '\x00' ∉ ".".toList ∧ '\x00' ∉ ".tmp".toList := by decide
  rw [hfree] at h
  rcases Path.mem_text h with h | h | h | ⟨part, hpart, h⟩
  · exact absurd h (hroots _ (Path.root_ofString _))
  · exact absurd h (by decide)
  · exact absurd h (by decide)
  · rcases List.mem_append.mp hpart with hpart | hpart
    · rcases Path.mem_absolute hpart with hpart | hpart
      · exact .inr ⟨part, hpart, h⟩
      · exact .inl (nul_of_part (List.dropLast_subset _ hpart) h)
    · obtain rfl := List.mem_singleton.mp hpart
      simp only [toString, String.toList_append, List.mem_append, hstart, hmiddle, or_false,
        false_or] at h
      exact .inl (nul_of_part hname h)

end FlowGraph
