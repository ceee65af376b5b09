import FlowGraph.Text.Digits
import Mathlib.Data.List.Induction
import Mathlib.Data.Nat.Digits.Defs

/-! Digits that are written are read as the same number again. -/

namespace FlowGraph.Text

theorem hexValue_digitChar {d : Nat} (h : d < 16) : hexValue? (digitChar d) = some d := by
  revert d
  decide

theorem hexDigits_four (n : Nat) :
    hexDigits 4 n = [digitChar (n / 4096 % 16), digitChar (n / 256 % 16),
      digitChar (n / 16 % 16), digitChar (n % 16)] := by
  simp [hexDigits, Nat.div_div_eq_div_mul]

theorem isDigit_iff {c : Char} : isDigit c = true ↔ '0' ≤ c ∧ c ≤ '9' := by
  simp [isDigit]

theorem isDigit_of_mem_decimalDigits {n : Nat} {c : Char} (h : c ∈ decimalDigits n) :
    isDigit c = true := by
  have hd := Nat.isDigit_of_mem_toDigits (by decide) (by decide) h
  simp only [Char.isDigit, Bool.and_eq_true, decide_eq_true_eq] at hd
  simp only [isDigit, Bool.and_eq_true, decide_eq_true_eq]
  exact hd

theorem decimalValue_decimalDigits (n : Nat) : decimalValue (decimalDigits n) = n :=
  Nat.ofDigitChars_ten_toDigits

/-- Only zero is written with a zero in front. -/
theorem decimalDigits_cases (n : Nat) :
    n = 0 ∧ decimalDigits n = ['0'] ∨
      ∃ c rest, decimalDigits n = c :: rest ∧ c ≠ '0' := by
  unfold decimalDigits
  induction n using Nat.base_induction 10 (by decide) with
  | single m hm =>
    rw [Nat.toDigits_of_lt_base hm]
    by_cases h : m = 0
    · exact .inl ⟨h, by rw [h]; rfl⟩
    · exact .inr ⟨m.digitChar, [], rfl, by simpa using h⟩
  | digit m k hk hm ih =>
    rw [← Nat.toDigits_append_toDigits (by decide) hm hk]
    rcases ih with ⟨h, -⟩ | ⟨c, rest, hc, hne⟩
    · omega
    · exact .inr ⟨c, rest ++ Nat.toDigits 10 k, by rw [hc, List.cons_append], hne⟩

theorem decimalValue_concat (digits : List Char) (d : Char) :
    decimalValue (digits ++ [d]) = 10 * decimalValue digits + (d.toNat - 48) := by
  rw [decimalValue, List.foldl_append]
  rfl

theorem decimalValue_lt {digits : List Char} (h : ∀ d ∈ digits, isDigit d = true) :
    decimalValue digits < 10 ^ digits.length := by
  induction digits using List.reverseRecOn with
  | nil => exact Nat.one_pos
  | append_singleton digits d ih =>
    rw [List.forall_mem_append, List.forall_mem_singleton] at h
    have hrest := ih h.1
    have hd : d.toNat ≤ 57 := by
      have hle := h.2
      simp only [isDigit, Bool.and_eq_true, decide_eq_true_eq] at hle
      exact hle.2
    rw [decimalValue_concat, List.length_append, List.length_singleton, Nat.pow_succ]
    omega

/-- A number is written with no more digits than it was read from. -/
theorem length_decimalDigits_decimalValue {digits : List Char} (hne : digits ≠ [])
    (h : ∀ d ∈ digits, isDigit d = true) :
    (decimalDigits (decimalValue digits)).length ≤ digits.length :=
  Nat.toDigits_length 10 _ _ (List.length_pos_iff.mpr hne) (decimalValue_lt h)

end FlowGraph.Text
