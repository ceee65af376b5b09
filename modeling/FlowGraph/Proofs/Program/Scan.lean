import FlowGraph.Program.Token
import FlowGraph.Proofs.Program.Lexeme

/-! The scan of a text, and the statements into which its tokens fall. A token stands on the line
that the line feeds before its lexeme tell, and every token of the text is in one statement. -/

namespace FlowGraph.Program

/-! The scan. -/

theorem length_lt_of_lexeme? {s after : List Char} {l : Lexeme}
    (h : lexeme? s = some (l, after)) : after.length < s.length := by
  obtain ⟨hl, rfl⟩ := lexeme?_sound h
  have hpos : 0 < l.text.length := List.length_pos_iff.mpr (Lexeme.text_ne_nil hl)
  rw [List.length_append]
  omega

/-- Fuel beyond the length of the text changes nothing. -/
theorem scanFor_eq_scanFor {n m : Nat} {s : List Char} (hn : s.length ≤ n) (hm : s.length ≤ m) :
    scanFor n s = scanFor m s := by
  induction n generalizing m s with
  | zero =>
    obtain rfl := List.length_eq_zero_iff.mp (Nat.le_zero.mp hn)
    cases m <;> rfl
  | succ n ih =>
    cases m with
    | zero =>
      obtain rfl := List.length_eq_zero_iff.mp (Nat.le_zero.mp hm)
      rfl
    | succ m =>
      cases h : lexeme? s with
      | none => simp [scanFor, h]
      | some found =>
        obtain ⟨l, after⟩ := found
        have hlt := length_lt_of_lexeme? h
        have he : scanFor n after = scanFor m after := ih (by omega) (by omega)
        simp [scanFor, h, he]

theorem scan_of_none {s : List Char} (h : lexeme? s = none) : scan s = ([], s) := by
  cases s with
  | nil => rfl
  | cons c s => simp [scan, scanFor, h]

theorem scan_of_some {s after : List Char} {l : Lexeme} (h : lexeme? s = some (l, after)) :
    scan s = (l :: (scan after).1, (scan after).2) := by
  have hlt := length_lt_of_lexeme? h
  cases s with
  | nil => cases h
  | cons c s =>
    have hle : after.length ≤ s.length := Nat.le_of_lt_succ hlt
    have he : scanFor s.length after = scan after := scanFor_eq_scanFor hle (le_refl _)
    simp [scan, scanFor, h, he]

/-- A lexeme that is taken as a whole comes first, and the scan goes on after it. -/
theorem scan_append {l : Lexeme} (h : l.Valid) (rest : List Char) (hr : l.EndsBefore rest) :
    scan (l.text ++ rest) = (l :: (scan rest).1, (scan rest).2) :=
  scan_of_some (lexeme?_append h hr)

/-- From lexeme to lexeme, up to where none begins. -/
@[elab_as_elim]
theorem scan_induction {motive : List Char → Prop} (stop : ∀ s, lexeme? s = none → motive s)
    (next : ∀ s l after, lexeme? s = some (l, after) → motive after → motive s)
    (s : List Char) : motive s := by
  induction hn : s.length using Nat.strong_induction_on generalizing s with
  | _ n ih =>
    cases h : lexeme? s with
    | none => exact stop s h
    | some found =>
      obtain ⟨l, after⟩ := found
      exact next s l after h (ih after.length (hn ▸ length_lt_of_lexeme? h) after rfl)

theorem scan_sound (s : List Char) : s = (scan s).1.flatMap Lexeme.text ++ (scan s).2 ∧
    (∀ l ∈ (scan s).1, l.Valid) ∧ lexeme? (scan s).2 = none := by
  induction s using scan_induction with
  | stop s h =>
    rw [scan_of_none h]
    exact ⟨rfl, by simp, h⟩
  | next s l after h ih =>
    obtain ⟨hl, he⟩ := lexeme?_sound h
    obtain ⟨htext, hvalid, hstop⟩ := ih
    rw [scan_of_some h]
    refine ⟨?_, List.forall_mem_cons.mpr ⟨hl, hvalid⟩, hstop⟩
    rw [List.flatMap_cons, List.append_assoc, ← htext]
    exact he

/-! Lines. -/

theorem countNewlines_append (s t : List Char) :
    Text.countNewlines (s ++ t) = Text.countNewlines s + Text.countNewlines t :=
  List.count_append

theorem lineAfter_eq (lexemes : List Lexeme) :
    lineAfter lexemes = 1 + Text.countNewlines (lexemes.flatMap Lexeme.text) := by
  have hfrom (line : Nat) :
      lexemes.foldl (fun line l => line + Text.countNewlines l.text) line =
        line + Text.countNewlines (lexemes.flatMap Lexeme.text) := by
    induction lexemes generalizing line with
    | nil => rfl
    | cons l lexemes ih =>
      rw [List.foldl_cons, ih, List.flatMap_cons, countNewlines_append]
      omega
  exact hfrom 1

/-- The tokens of the lexemes that start on a line. -/
def locate (line : Nat) : List Lexeme → List Located
  | [] => []
  | l :: rest =>
    (l.token?.map (⟨·, line⟩)).toList ++ locate (line + Text.countNewlines l.text) rest

theorem mem_locate {line : Nat} {lexemes : List Lexeme} {t : Located}
    (h : t ∈ locate line lexemes) : ∃ before l after, lexemes = before ++ l :: after ∧
      l.token? = some t.token ∧
      t.line = line + Text.countNewlines (before.flatMap Lexeme.text) := by
  induction lexemes generalizing line with
  | nil => cases h
  | cons l lexemes ih =>
    rcases List.mem_append.mp h with h | h
    · obtain ⟨token, htoken, rfl⟩ := by simpa using h
      exact ⟨[], l, lexemes, rfl, htoken, rfl⟩
    · obtain ⟨before, m, after, rfl, hm, hline⟩ := ih h
      refine ⟨l :: before, m, after, rfl, hm, ?_⟩
      rw [hline, List.flatMap_cons, countNewlines_append]
      omega

/-! Statements. -/

theorem flatten_group (line : Nat) (current : List Located) (lexemes : List Lexeme) :
    (group line current lexemes).flatten = current ++ locate line lexemes := by
  induction lexemes generalizing line current with
  | nil =>
    by_cases h : current = []
    · simp [group, locate, h]
    · simp [group, locate, h]
  | cons l lexemes ih =>
    cases h : l.token? with
    | some token => simp [group, locate, h, ih]
    | none =>
      by_cases hs : (l.separates && current ≠ []) = true
      · simp only [group, h, hs, locate, if_true]
        simp [ih]
      · simp only [group, h, hs, locate]
        simp [ih]

theorem nil_not_mem_group (line : Nat) (current : List Located) (lexemes : List Lexeme) :
    [] ∉ group line current lexemes := by
  induction lexemes generalizing line current with
  | nil =>
    by_cases h : current = []
    · simp [group, h]
    · simp [group, h, Ne.symm h]
  | cons l lexemes ih =>
    cases h : l.token? with
    | some token => simp [group, h, ih]
    | none =>
      by_cases hs : (l.separates && current ≠ []) = true
      · have hne : current ≠ [] := by
          simpa using (Bool.and_eq_true_iff.mp hs).2
        simp only [group, h, hs, if_true]
        simp [ih, Ne.symm hne]
      · simp only [group, h, hs]
        simp [ih]

/-- The statements of a list of lexemes without their lines. -/
def clauses (current : List Token) : List Lexeme → List (List Token)
  | [] => if current = [] then [] else [current]
  | l :: rest =>
    match l.token? with
    | some token => clauses (current ++ [token]) rest
    | none =>
      if l.separates && current ≠ [] then current :: clauses [] rest else clauses current rest

theorem map_group (line : Nat) (current : List Located) (lexemes : List Lexeme) :
    (group line current lexemes).map (·.map (·.token)) =
      clauses (current.map (·.token)) lexemes := by
  induction lexemes generalizing line current with
  | nil =>
    by_cases h : current = []
    · simp [group, clauses, h]
    · simp [group, clauses, h]
  | cons l lexemes ih =>
    cases h : l.token? with
    | some token => simp [group, clauses, h, ih]
    | none =>
      by_cases hs : l.separates = true
      · cases current with
        | nil => simp [group, clauses, h, ih]
        | cons t current => simp [group, clauses, h, hs, ih]
      · simp [group, clauses, h, hs, ih]

theorem tokenize_eq_ok_iff {s : List Char} {statements : List (List Located)} :
    tokenize s = .ok statements ↔ (scan s).2 = [] ∧ statements = group 1 [] (scan s).1 := by
  unfold tokenize
  cases h : (scan s).2 with
  | nil => simp [h, eq_comm]
  | cons c rest => simp [h]

theorem tokenize_eq_error_iff {s : List Char} {e : SyntaxError} : tokenize s = .error e ↔
    ∃ c rest, (scan s).2 = c :: rest ∧ e = ⟨.unexpected c, lineAfter (scan s).1⟩ := by
  unfold tokenize
  cases h : (scan s).2 with
  | nil => simp [h]
  | cons c rest => simp [h, eq_comm]

end FlowGraph.Program
