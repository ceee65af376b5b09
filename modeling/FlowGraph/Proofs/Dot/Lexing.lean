import FlowGraph.Proofs.Dot.Reading

/-! The tokens of a text without fuel: a text is gone through by gaps and tokens, each of which
leaves an end of it. -/

namespace FlowGraph.Dot

open FlowGraph.Dot.Language

variable {s rest b : List Char} {ts : List Token}

/-! What is left is an end of the text. -/

theorem commentEnd?_suffix (h : commentEnd? s = some rest) : rest <:+ s := by
  fun_induction commentEnd? s with
  | case1 => cases h
  | case2 after =>
    cases h
    exact List.suffix_append ['*', '/'] rest
  | case3 c after hstar ih => exact (ih h).trans (List.suffix_cons _ _)

theorem gap?_suffix (h : gap? s = some rest) : rest <:+ s.tail := by
  unfold gap? at h
  split at h
  · cases h
    exact (List.dropWhile_suffix _).trans (List.suffix_cons _ _)
  · exact (commentEnd?_suffix h).trans (List.suffix_cons _ _)
  · cases h
    exact (List.dropWhile_suffix _).trans (List.suffix_cons _ _)
  · split at h
    · cases h
      exact List.suffix_refl _
    · cases h
  · cases h

/-! Tokens without fuel. -/

/-- Fuel beyond the length of the text does not matter. -/
theorem lexFor_eq_lexFor {n m : Nat} (hn : s.length ≤ n) (hm : s.length ≤ m) :
    lexFor n s = lexFor m s := by
  induction n generalizing s m with
  | zero =>
    obtain rfl := List.eq_nil_of_length_eq_zero (Nat.le_zero.mp hn)
    cases m <;> rfl
  | succ n ih =>
    cases s with
    | nil => cases m <;> rfl
    | cons c after =>
      obtain ⟨m, rfl⟩ : ∃ k, m = k + 1 := by
        cases m with
        | zero => cases hm
        | succ m => exact ⟨m, rfl⟩
      rw [List.length_cons, Nat.succ_le_succ_iff] at hn hm
      have hrest {rest : List Char} (h : rest <:+ after) : lexFor n rest = lexFor m rest :=
        ih (Nat.le_trans h.length_le hn) (Nat.le_trans h.length_le hm)
      rw [lexFor_succ n _ (List.cons_ne_nil _ _), lexFor_succ m _ (List.cons_ne_nil _ _)]
      cases hgap : gap? (c :: after) with
      | some rest => exact hrest (gap?_suffix hgap)
      | none =>
        cases htoken : token? (c :: after) with
        | none => rfl
        | some found => simp only [hrest (token?_suffix htoken)]

/-- The tokens of a text that does not start a line. -/
def tokens? (s : List Char) : Option (List Token) :=
  lexFor s.length s

theorem lex_eq (s : List Char) : lex s = tokens? ('\n' :: s) :=
  lexFor_eq_lexFor (Nat.le_refl _) (Nat.le_refl _)

theorem tokens?_of_gap (h : gap? s = some rest) : tokens? s = tokens? rest := by
  cases s with
  | nil => cases h
  | cons c after =>
    rw [tokens?, List.length_cons, lexFor_succ _ _ (List.cons_ne_nil _ _), h]
    exact lexFor_eq_lexFor (gap?_suffix h).length_le (Nat.le_refl _)

theorem tokens?_of_token {t : Token} (h : token? s = some (t, rest)) :
    tokens? s = (tokens? rest).map (t :: ·) := by
  cases s with
  | nil => cases h
  | cons c after =>
    have hfuel := lexFor_eq_lexFor (token?_suffix h).length_le (Nat.le_refl rest.length)
    rw [List.tail_cons] at hfuel
    rw [tokens?, List.length_cons, lexFor_succ _ _ (List.cons_ne_nil _ _), gap?_of_token? h, h]
    simp only [hfuel, tokens?]

theorem tokens?_of_stuck (hs : s ≠ []) (hgap : gap? s = none) (htoken : token? s = none) :
    tokens? s = none := by
  obtain ⟨c, after, rfl⟩ := List.exists_cons_of_ne_nil hs
  rw [tokens?, List.length_cons, lexFor_succ _ _ hs, hgap, htoken]

/-- Up to the end of the text, or to where neither a gap nor a token is found. -/
@[elab_as_elim]
theorem lexing_induction {motive : List Char → Prop} (nil : motive [])
    (gap : ∀ s rest, gap? s = some rest → motive rest → motive s)
    (token : ∀ s t rest, token? s = some (t, rest) → motive rest → motive s)
    (stuck : ∀ s, s ≠ [] → gap? s = none → token? s = none → motive s) (s : List Char) :
    motive s := by
  induction hlength : s.length using Nat.strong_induction_on generalizing s with
  | _ n ih =>
    subst hlength
    by_cases hs : s = []
    · exact hs ▸ nil
    have hshort {rest : List Char} (h : rest <:+ s.tail) : rest.length < s.length := by
      have hpos := List.length_pos_iff.mpr hs
      have hle := h.length_le
      rw [List.length_tail] at hle
      omega
    cases hgap : gap? s with
    | some rest => exact gap s rest hgap (ih _ (hshort (gap?_suffix hgap)) rest rfl)
    | none =>
      cases htoken : token? s with
      | some found =>
        exact token s found.1 found.2 htoken (ih _ (hshort (token?_suffix htoken)) found.2 rfl)
      | none => exact stuck s hs hgap htoken

theorem mem_of_mark {c : Char} (h : token? s = some (.mark c, rest)) : c ∈ s := by
  unfold token? at h
  split at h
  · cases h
  · obtain ⟨_, -, hmark⟩ := exists_of_map_fst (fun s => Token.id (.text s)) h
    cases hmark
  · obtain ⟨_, -, hmark⟩ := exists_of_map_fst (fun s => Token.id (.markup s)) h
    cases hmark
  · cases h
  · cases h
  · obtain ⟨_, -, hmark⟩ := exists_of_map_fst (fun s => Token.id (.text ('-' :: s))) h
    cases hmark
  · split at h
    · cases h
      exact List.mem_cons_self
    split at h
    · unfold word at h
      split at h <;> cases h
    · obtain ⟨_, -, hmark⟩ := exists_of_map_fst (fun s => Token.id (.text s)) h
      cases hmark

theorem mem_of_mark_mem {c : Char} (h : tokens? s = some ts) (hc : .mark c ∈ ts) : c ∈ s := by
  induction s using lexing_induction generalizing ts with
  | nil =>
    cases h
    cases hc
  | gap s rest hgap ih =>
    rw [tokens?_of_gap hgap] at h
    exact ((gap?_suffix hgap).trans (List.tail_suffix s)).subset (ih h hc)
  | token s t rest htoken ih =>
    rw [tokens?_of_token htoken] at h
    obtain ⟨later, hlater, rfl⟩ := Option.map_eq_some_iff.mp h
    rcases List.mem_cons.mp hc with rfl | hc
    · exact mem_of_mark htoken
    · exact ((token?_suffix htoken).trans (List.tail_suffix s)).subset (ih hlater hc)
  | stuck s hs hgap htoken =>
    rw [tokens?_of_stuck hs hgap htoken] at h
    cases h

end FlowGraph.Dot
