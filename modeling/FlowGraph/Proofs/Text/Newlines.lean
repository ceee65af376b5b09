import FlowGraph.Text.Newlines

/-! Texts with line feeds in them. A scan for characters that are no line feeds stops at one; and
one that tells no line end from another finds the same place whether or not they are unified, or
whether or not returns are put before them. -/

namespace FlowGraph.Text

variable {p : Char → Bool} {c : Char} {s t w : List Char}

theorem takeWhile_append_newline (hp : p '\n' = false) (s t : List Char) :
    (s ++ '\n' :: t).takeWhile p = s.takeWhile p := by
  induction s with
  | nil => simp [hp]
  | cons c s ih =>
    by_cases hc : p c = true
    · simp [hc, ih]
    · simp [hc]

theorem dropWhile_append_newline (hp : p '\n' = false) (s t : List Char) :
    (s ++ '\n' :: t).dropWhile p = s.dropWhile p ++ '\n' :: t := by
  induction s with
  | nil => simp [hp]
  | cons c s ih =>
    by_cases hc : p c = true
    · simp [hc, ih]
    · simp [hc]

/-! Unified line ends. -/

/-- Only a return with a line feed after it takes two characters. -/
theorem unifyNewlines_single (h : c = '\r' → ∀ rest, s ≠ '\n' :: rest) :
    unifyNewlines (c :: s) = (if c = '\r' then '\n' else c) :: unifyNewlines s := by
  rw [unifyNewlines]
  exact fun rest hc => h hc rest

theorem unifyNewlines_cons (hc : c ≠ '\r') (s : List Char) :
    unifyNewlines (c :: s) = c :: unifyNewlines s := by
  rw [unifyNewlines_single fun h => absurd h hc, if_neg hc]

theorem exists_unifyNewlines_return (s : List Char) :
    ∃ rest, unifyNewlines ('\r' :: s) = '\n' :: unifyNewlines rest := by
  cases s with
  | nil => exact ⟨[], rfl⟩
  | cons d s =>
    by_cases hd : d = '\n'
    · subst hd
      exact ⟨s, rfl⟩
    · have hsingle : '\r' = '\r' → ∀ rest, d :: s ≠ '\n' :: rest :=
        fun _ _ h => hd (List.cons.inj h).1
      exact ⟨d :: s, by rw [unifyNewlines_single hsingle, if_pos rfl]⟩

/-- What a character becomes if it is a line end. -/
theorem exists_unifyNewlines_cons (c : Char) (s : List Char) :
    ∃ rest, unifyNewlines (c :: s) = (if c = '\r' then '\n' else c) :: rest := by
  by_cases hc : c = '\r'
  · subst hc
    obtain ⟨rest, hrest⟩ := exists_unifyNewlines_return s
    exact ⟨_, hrest⟩
  · exact ⟨_, by rw [unifyNewlines_cons hc, if_neg hc]⟩

/-- What is left of a text from its first character on, if that is no line end. -/
theorem eq_cons_of_unifyNewlines (hc : c ≠ '\n') (h : unifyNewlines s = c :: t) :
    ∃ rest, s = c :: rest ∧ unifyNewlines rest = t := by
  cases s with
  | nil => cases h
  | cons d s =>
    by_cases hd : d = '\r'
    · subst hd
      obtain ⟨rest, hrest⟩ := exists_unifyNewlines_return s
      rw [hrest] at h
      exact absurd (List.cons.inj h).1.symm hc
    · rw [unifyNewlines_cons hd] at h
      obtain ⟨rfl, rfl⟩ := List.cons.inj h
      exact ⟨s, rfl, rfl⟩

theorem unifyNewlines_append {w : List Char} (hw : '\r' ∉ w) (s : List Char) :
    unifyNewlines (w ++ s) = w ++ unifyNewlines s := by
  induction w with
  | nil => rfl
  | cons c w ih =>
    simp only [List.mem_cons, not_or] at hw
    rw [List.cons_append, unifyNewlines_cons (Ne.symm hw.1), ih hw.2, List.cons_append]

theorem exists_append_of_unifyNewlines {w : List Char} (hw : '\n' ∉ w)
    (h : unifyNewlines s = w ++ t) : ∃ rest, s = w ++ rest ∧ unifyNewlines rest = t := by
  induction w generalizing s with
  | nil => exact ⟨s, rfl, h⟩
  | cons c w ih =>
    simp only [List.mem_cons, not_or] at hw
    obtain ⟨after, rfl, hafter⟩ := eq_cons_of_unifyNewlines (Ne.symm hw.1) h
    obtain ⟨rest, rfl, hrest⟩ := ih hw.2 hafter
    exact ⟨rest, rfl, hrest⟩

theorem unifyNewlines_ne_append {w : List Char} (hw : '\n' ∉ w) (h : ∀ rest, s ≠ w ++ rest)
    (rest : List Char) : unifyNewlines s ≠ w ++ rest := by
  intro he
  obtain ⟨t, ht, -⟩ := exists_append_of_unifyNewlines hw he
  exact h t ht

/-- A text is empty, or it begins with a line end, or with a character that stays. -/
theorem unifyNewlines_cases (s : List Char) : s = [] ∨
    (∃ c t, c ≠ '\r' ∧ c ≠ '\n' ∧ s = c :: t ∧ unifyNewlines s = c :: unifyNewlines t) ∨
    ∃ c t rest, (c = '\r' ∨ c = '\n') ∧ s = c :: t ∧ unifyNewlines s = '\n' :: rest := by
  cases s with
  | nil => exact .inl rfl
  | cons c t =>
    refine .inr ?_
    by_cases hr : c = '\r'
    · subst hr
      obtain ⟨rest, hrest⟩ := exists_unifyNewlines_return t
      exact .inr ⟨_, t, _, .inl rfl, rfl, hrest⟩
    · by_cases hn : c = '\n'
      · subst hn
        exact .inr ⟨_, t, _, .inr rfl, rfl, unifyNewlines_cons hr t⟩
      · exact .inl ⟨c, t, hr, hn, rfl, unifyNewlines_cons hr t⟩

theorem length_unifyNewlines_le (s : List Char) : (unifyNewlines s).length ≤ s.length := by
  fun_induction unifyNewlines s with
  | case1 => exact Nat.le_refl _
  | case2 rest ih => simp only [List.length_cons]; omega
  | case3 c rest h ih => simp only [List.length_cons]; omega

theorem dropWhile_unifyNewlines (hp : p '\r' = p '\n') (s : List Char) :
    (unifyNewlines s).dropWhile p = unifyNewlines (s.dropWhile p) := by
  fun_induction unifyNewlines s with
  | case1 => rfl
  | case2 rest ih =>
    cases hn : p '\n' with
    | true => simp [hp, hn, ih]
    | false =>
      simp only [List.dropWhile_cons, hp, hn, Bool.false_eq_true, if_false]
      rfl
  | case3 c rest h ih =>
    have hhead : p (if c = '\r' then '\n' else c) = p c := by
      split
      · next hc => rw [hc, hp]
      · rfl
    cases hc : p c with
    | true => simp [hhead, hc, ih]
    | false => simp [hhead, hc, unifyNewlines_single fun hr rest => h rest hr]

theorem takeWhile_unifyNewlines (hr : p '\r' = false) (hn : p '\n' = false) (s : List Char) :
    (unifyNewlines s).takeWhile p = s.takeWhile p := by
  induction s with
  | nil => rfl
  | cons c s ih =>
    by_cases hc : c = '\r'
    · subst hc
      obtain ⟨rest, hrest⟩ := exists_unifyNewlines_return s
      simp [hrest, hr, hn]
    · rw [unifyNewlines_cons hc]
      cases hp : p c <;> simp [hp, ih]

/-! Returns before line feeds. -/

/-- A line feed with a return before it for each line feed. -/
def expandNewlines (s : List Char) : List Char :=
  s.flatMap fun c => if c = '\n' then ['\r', '\n'] else [c]

/-- The second text is the first one with returns put before some of its line feeds. -/
inductive Returned : List Char → List Char → Prop
  | nil : Returned [] []
  | cons (c : Char) {s t : List Char} (h : Returned s t) : Returned (c :: s) (c :: t)
  | newline {s t : List Char} (h : Returned s t) : Returned ('\n' :: s) ('\r' :: '\n' :: t)

theorem Returned.refl (s : List Char) : Returned s s := by
  induction s with
  | nil => exact .nil
  | cons c s ih => exact .cons c ih

theorem returned_expandNewlines (s : List Char) : Returned s (expandNewlines s) := by
  induction s with
  | nil => exact .nil
  | cons c s ih =>
    by_cases hc : c = '\n'
    · subst hc
      exact .newline ih
    · have hcons : expandNewlines (c :: s) = c :: expandNewlines s := by
        simp [expandNewlines, hc]
      rw [hcons]
      exact .cons c ih

/-- To unify the line ends takes the returns away again. -/
theorem Returned.unifyNewlines_eq (h : Returned s t) (hs : '\r' ∉ s) : unifyNewlines t = s := by
  induction h with
  | nil => rfl
  | cons c h ih =>
    rw [List.mem_cons, not_or] at hs
    rw [unifyNewlines_cons (Ne.symm hs.1), ih hs.2]
  | newline h ih =>
    rw [List.mem_cons, not_or] at hs
    exact congrArg ('\n' :: ·) (ih hs.2)

theorem Returned.head?_eq_iff (h : Returned s t) (hn : c ≠ '\n') (hr : c ≠ '\r') :
    t.head? = some c ↔ s.head? = some c := by
  cases h with
  | nil => rfl
  | cons d h => rfl
  | newline h => simp [Ne.symm hn, Ne.symm hr]

/-- Within a line nothing is put. -/
theorem Returned.of_append (h : Returned (w ++ s) t) (hw : '\n' ∉ w) :
    ∃ t', t = w ++ t' ∧ Returned s t' := by
  induction w generalizing t with
  | nil => exact ⟨t, rfl, h⟩
  | cons c w ih =>
    rw [List.mem_cons, not_or] at hw
    cases h with
    | cons _ h =>
      obtain ⟨t', rfl, ht'⟩ := ih h hw.2
      exact ⟨t', rfl, ht'⟩
    | newline h => exact absurd rfl hw.1

/-- What has no returns was there before. -/
theorem Returned.of_append_right (h : Returned s (w ++ t)) (hw : '\r' ∉ w) :
    ∃ s', s = w ++ s' ∧ Returned s' t := by
  induction w generalizing s with
  | nil => exact ⟨s, rfl, h⟩
  | cons c w ih =>
    rw [List.mem_cons, not_or] at hw
    rw [List.cons_append] at h
    generalize hu : w ++ t = u at h
    cases h with
    | cons _ h =>
      obtain ⟨s', rfl, hs'⟩ := ih (hu ▸ h) hw.2
      exact ⟨s', rfl, hs'⟩
    | newline h => exact absurd rfl hw.1

theorem Returned.dropWhile (h : Returned s t) (hp : p '\n' = false) :
    Returned (s.dropWhile p) (t.dropWhile p) := by
  induction h with
  | nil => exact .nil
  | cons c h ih =>
    by_cases hc : p c = true
    · simpa [hc] using ih
    · simpa [hc] using Returned.cons c h
  | newline h ih =>
    by_cases hr : p '\r' = true
    · simpa [hp, hr] using Returned.cons '\n' h
    · simpa [hp, hr] using Returned.newline h

end FlowGraph.Text
