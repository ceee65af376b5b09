import FlowGraph.Json.Reader
import FlowGraph.Proofs.Json.Numbers

/-! Words and numbers as values. Whether a text begins with one can be told by its first character,
and what comes after one makes no difference unless it could belong to a number. -/

namespace FlowGraph.Json

variable {rest s : List Char} {found : Json × List Char}

/-- Whether a word or a number begins with a character. -/
def startsScalar (c : Char) : Prop :=
  Text.isDigit c = true ∨ c ∈ ['n', 't', 'f', 'N', 'I', '-']

instance (c : Char) : Decidable (startsScalar c) :=
  inferInstanceAs (Decidable (_ ∨ _))

theorem readDigits_head {t : List Char × List Char} (h : readDigits s = some t) :
    ∃ c r, s = c :: r ∧ Text.isDigit c = true := by
  cases s with
  | nil => cases h
  | cons c r =>
    refine ⟨c, r, rfl, ?_⟩
    cases hc : Text.isDigit c with
    | true => rfl
    | false => simp [readDigits, splitDigits, hc] at h

theorem readWhole_head {t : List Char × List Char} (h : readWhole s = some t) :
    ∃ c r, s = c :: r ∧ Text.isDigit c = true := by
  unfold readWhole at h
  split at h
  · exact ⟨_, _, rfl, rfl⟩
  · exact readDigits_head h

/-- A number begins with a digit, or with a sign and a digit. -/
theorem readNumber_head (h : readNumber s = .ok found) :
    ∃ c r, s = c :: r ∧ (Text.isDigit c = true ∨
      c = '-' ∧ ∃ d r', r = d :: r' ∧ Text.isDigit d = true) := by
  unfold readNumber at h
  cases hw : readWhole (readSign s).2 with
  | none =>
    rw [hw] at h
    cases h
  | some t =>
    obtain ⟨c, r, hs, hc⟩ := readWhole_head hw
    unfold readSign at hs
    split at hs
    · exact ⟨'-', _, rfl, .inr ⟨rfl, c, r, hs, hc⟩⟩
    · exact ⟨c, r, hs, .inl hc⟩

/-- The words that stand for values. -/
def words : List (List Char × Json) :=
  [(['n', 'u', 'l', 'l'], .null), (['t', 'r', 'u', 'e'], .bool true),
   (['f', 'a', 'l', 's', 'e'], .bool false), (['N', 'a', 'N'], .float .nan),
   (['I', 'n', 'f', 'i', 'n', 'i', 't', 'y'], .float (.infinity false)),
   (['-', 'I', 'n', 'f', 'i', 'n', 'i', 't', 'y'], .float (.infinity true))]

theorem readScalar_word {p : List Char × Json} (hp : p ∈ words) (rest : List Char) :
    readScalar (p.1 ++ rest) = .ok (p.2, rest) := by
  revert p
  simp only [words, List.forall_mem_cons]
  exact ⟨rfl, rfl, rfl, rfl, rfl, rfl, List.forall_mem_nil _⟩

theorem readScalar_of_no_word (h : ∀ p ∈ words, ∀ rest, s ≠ p.1 ++ rest) :
    readScalar s = readNumber s := by
  simp only [words, List.forall_mem_cons] at h
  obtain ⟨hnull, htrue, hfalse, hnan, hinfinity, hminus, -⟩ := h
  rw [readScalar]
  · exact hnull
  · exact htrue
  · exact hfalse
  · exact hnan
  · exact hinfinity
  · exact hminus

theorem readScalar_cases (s : List Char) : (∃ p ∈ words, ∃ rest, s = p.1 ++ rest) ∨
    (∀ p ∈ words, ∀ rest, s ≠ p.1 ++ rest) ∧ readScalar s = readNumber s := by
  by_cases h : ∃ p ∈ words, ∃ rest, s = p.1 ++ rest
  · exact .inl h
  · have hno : ∀ p ∈ words, ∀ rest, s ≠ p.1 ++ rest :=
      fun p hp rest hs => h ⟨p, hp, rest, hs⟩
    exact .inr ⟨hno, readScalar_of_no_word hno⟩

/-- What a number begins with is not the beginning of a word. -/
theorem readScalar_eq_readNumber (h : readNumber s = .ok found) (rest : List Char) :
    readScalar (s ++ rest) = readNumber (s ++ rest) := by
  obtain ⟨c, r, rfl, hc⟩ := readNumber_head h
  refine readScalar_of_no_word fun p hp t ht => ?_
  simp only [words, List.mem_cons, List.not_mem_nil, or_false] at hp
  rcases hp with rfl | rfl | rfl | rfl | rfl | rfl
  all_goals
    obtain ⟨rfl, htail⟩ := List.cons.inj ht
    rcases hc with hc | ⟨hc, d, r', rfl, hd⟩
    · cases hc
  all_goals cases hc
  -- Only the word with a sign is left.
  obtain ⟨rfl, -⟩ := List.cons.inj htail
  cases hd

/-- What comes after a word or a number makes no difference, unless a number could go on. -/
theorem readScalar_append (h : EndsNumber rest) (hs : readScalar s = .ok found) :
    readScalar (s ++ rest) = .ok (appendRest rest found) := by
  rcases readScalar_cases s with ⟨p, hp, t, rfl⟩ | ⟨-, hnumber⟩
  · obtain rfl := Except.ok.inj ((readScalar_word hp t).symm.trans hs)
    rw [List.append_assoc, readScalar_word hp]
    rfl
  · rw [hnumber] at hs
    rw [readScalar_eq_readNumber hs, readNumber_append h hs]

theorem startsScalar_of_word {p : List Char × Json} (hp : p ∈ words) :
    ∃ c w, p.1 = c :: w ∧ startsScalar c := by
  simp only [words, List.mem_cons, List.not_mem_nil, or_false] at hp
  rcases hp with rfl | rfl | rfl | rfl | rfl | rfl <;> exact ⟨_, _, rfl, .inr (by decide)⟩

theorem readScalar_head (h : readScalar s = .ok found) : ∃ c r, s = c :: r ∧ startsScalar c := by
  rcases readScalar_cases s with ⟨p, hp, t, rfl⟩ | ⟨-, hnumber⟩
  · obtain ⟨c, w, hw, hc⟩ := startsScalar_of_word hp
    exact ⟨c, w ++ t, by rw [hw, List.cons_append], hc⟩
  · obtain ⟨c, r, hs, hc | ⟨hc, -⟩⟩ := readNumber_head (hnumber.symm.trans h)
    · exact ⟨c, r, hs, .inl hc⟩
    · exact ⟨c, r, hs, .inr (by simp [hc])⟩

theorem readNumber_signedDigits_nil {n : Int}
    (hn : (Text.decimalDigits n.natAbs).length ≤ digitLimit) :
    readNumber (Text.signedDigits n) = .ok (.int n, []) := by
  have hend : EndsNumber [] := by simp [EndsNumber]
  simpa using readNumber_signedDigits hend hn

theorem readScalar_signedDigits {n : Int}
    (hn : (Text.decimalDigits n.natAbs).length ≤ digitLimit) :
    readScalar (Text.signedDigits n) = .ok (.int n, []) := by
  have hs := readNumber_signedDigits_nil hn
  have heq := readScalar_eq_readNumber hs []
  rwa [List.append_nil, hs] at heq

end FlowGraph.Json
