import FlowGraph.Text.Utf8
import Mathlib.Tactic.Common

/-! UTF-8 that is written is read as the same text. The first byte of a character announces the
others, and its bounds for the second one let every character pass. -/

namespace FlowGraph.Text.Utf8

theorem toNat_toUInt8 {n : Nat} (h : n < 256) : n.toUInt8.toNat = n :=
  Nat.mod_eq_of_lt h

section

variable {position : Nat} {p : Pending} {b : UInt8} {rest : List UInt8}

theorem decodeFrom_ascii (h : b.toNat < 0x80) : decodeFrom position none (b :: rest) =
    (decodeFrom (position + 1) none rest).map (Char.ofNat b.toNat :: ·) := by
  refine (if_pos h).trans ?_
  cases decodeFrom (position + 1) none rest <;> rfl

theorem decodeFrom_leading (h : leading? b = some p) (hb : 0x80 ≤ b.toNat) :
    decodeFrom position none (b :: rest) = decodeFrom position (some p) rest := by
  refine (if_neg (Nat.not_lt.mpr hb)).trans ?_
  rw [h]

theorem decodeFrom_inner (hm : p.missing ≠ 1) (hlow : p.low ≤ b.toNat) (hhigh : b.toNat ≤ p.high) :
    decodeFrom position (some p) (b :: rest) = decodeFrom position (some
      ⟨p.byte, p.width + 1, p.missing - 1, 64 * p.value + b.toNat % 64, 0x80, 0xbf⟩) rest :=
  (if_pos ⟨hlow, hhigh⟩).trans (if_neg hm)

theorem decodeFrom_last (hm : p.missing = 1) (hlow : p.low ≤ b.toNat) (hhigh : b.toNat ≤ p.high) :
    decodeFrom position (some p) (b :: rest) = (decodeFrom (position + p.width + 1) none rest).map
      (Char.ofNat (64 * p.value + b.toNat % 64) :: ·) := by
  refine (if_pos ⟨hlow, hhigh⟩).trans ((if_pos hm).trans ?_)
  cases decodeFrom (position + p.width + 1) none rest <;> rfl

end

/-! The first bytes of two, three and four. -/

theorem leading_two {n : Nat} (hlow : 0x80 ≤ n) (hhigh : n < 0x800) :
    leading? (0xc0 + n / 64).toUInt8 =
      some ⟨(0xc0 + n / 64).toUInt8, 1, 1, n / 64, 0x80, 0xbf⟩ := by
  have hb : (0xc0 + n / 64).toUInt8.toNat = 0xc0 + n / 64 := toNat_toUInt8 (by omega)
  have hvalue : 0xc0 + n / 64 - 0xc0 = n / 64 := by omega
  have hrange : 0xc2 ≤ 0xc0 + n / 64 ∧ 0xc0 + n / 64 ≤ 0xdf := by omega
  rw [leading?]
  simp only [hb, hrange, and_self, if_true, hvalue]

theorem leading_three {n : Nat} (hlow : 0x800 ≤ n) (hhigh : n < 0x10000)
    (hn : n < 0xd800 ∨ 0xdfff < n) : ∃ low high,
    leading? (0xe0 + n / 4096).toUInt8 =
      some ⟨(0xe0 + n / 4096).toUInt8, 1, 2, n / 4096, low, high⟩ ∧
    low ≤ 0x80 + n / 64 % 64 ∧ 0x80 + n / 64 % 64 ≤ high := by
  have hb : (0xe0 + n / 4096).toUInt8.toNat = 0xe0 + n / 4096 := toNat_toUInt8 (by omega)
  have htwo : ¬ (0xc2 ≤ 0xe0 + n / 4096 ∧ 0xe0 + n / 4096 ≤ 0xdf) := by omega
  rw [leading?]
  simp only [hb, htwo, if_false]
  by_cases hfirst : 0xe0 + n / 4096 = 0xe0
  · have hvalue : n / 4096 = 0 := by omega
    refine ⟨0xa0, 0xbf, ?_, ?_, ?_⟩
    · rw [if_pos hfirst, hvalue]
    · omega
    · omega
  by_cases hlast : 0xe0 + n / 4096 = 0xed
  · have hvalue : n / 4096 = 13 := by omega
    refine ⟨0x80, 0x9f, ?_, ?_, ?_⟩
    · rw [if_neg hfirst, if_pos hlast, hvalue]
    · omega
    · omega
  · have hrange : 0xe1 ≤ 0xe0 + n / 4096 ∧ 0xe0 + n / 4096 ≤ 0xef := by omega
    have hvalue : 0xe0 + n / 4096 - 0xe0 = n / 4096 := by omega
    refine ⟨0x80, 0xbf, ?_, ?_, ?_⟩
    · rw [if_neg hfirst, if_neg hlast, if_pos hrange, hvalue]
    · omega
    · omega

theorem leading_four {n : Nat} (hlow : 0x10000 ≤ n) (hhigh : n < 0x110000) : ∃ low high,
    leading? (0xf0 + n / 262144).toUInt8 =
      some ⟨(0xf0 + n / 262144).toUInt8, 1, 3, n / 262144, low, high⟩ ∧
    low ≤ 0x80 + n / 4096 % 64 ∧ 0x80 + n / 4096 % 64 ≤ high := by
  have hb : (0xf0 + n / 262144).toUInt8.toNat = 0xf0 + n / 262144 := toNat_toUInt8 (by omega)
  have htwo : ¬ (0xc2 ≤ 0xf0 + n / 262144 ∧ 0xf0 + n / 262144 ≤ 0xdf) := by omega
  have hthree : 0xf0 + n / 262144 ≠ 0xe0 ∧ 0xf0 + n / 262144 ≠ 0xed := by omega
  have hinner : ¬ (0xe1 ≤ 0xf0 + n / 262144 ∧ 0xf0 + n / 262144 ≤ 0xef) := by omega
  rw [leading?]
  simp only [hb, htwo, hthree.1, hthree.2, hinner, if_false]
  by_cases hfirst : 0xf0 + n / 262144 = 0xf0
  · have hvalue : n / 262144 = 0 := by omega
    refine ⟨0x90, 0xbf, ?_, ?_, ?_⟩
    · rw [if_pos hfirst, hvalue]
    · omega
    · omega
  by_cases hlast : 0xf0 + n / 262144 = 0xf4
  · have hvalue : n / 262144 = 4 := by omega
    refine ⟨0x80, 0x8f, ?_, ?_, ?_⟩
    · rw [if_neg hfirst, if_pos hlast, hvalue]
    · omega
    · omega
  · have hrange : 0xf1 ≤ 0xf0 + n / 262144 ∧ 0xf0 + n / 262144 ≤ 0xf3 := by omega
    have hvalue : 0xf0 + n / 262144 - 0xf0 = n / 262144 := by omega
    refine ⟨0x80, 0xbf, ?_, ?_, ?_⟩
    · rw [if_neg hfirst, if_neg hlast, if_pos hrange, hvalue]
    · omega
    · omega

/-- A character is read from its bytes, wherever they stand. -/
theorem decodeFrom_encodeChar (c : Char) (position : Nat) (rest : List UInt8) :
    ∃ next, decodeFrom position none (encodeChar c ++ rest) =
      (decodeFrom next none rest).map (c :: ·) := by
  have hvalid : c.toNat < 0xd800 ∨ 0xdfff < c.toNat ∧ c.toNat < 0x110000 := c.valid
  unfold encodeChar
  dsimp only
  by_cases hone : c.toNat < 0x80
  · have hb : c.toNat.toUInt8.toNat = c.toNat := toNat_toUInt8 (by omega)
    rw [if_pos hone, List.singleton_append, decodeFrom_ascii (by omega), hb, Char.ofNat_toNat]
    exact ⟨_, rfl⟩
  -- Each byte after the first adds six bits.
  have htail (m : Nat) : (0x80 + m % 64).toUInt8.toNat = 0x80 + m % 64 :=
    toNat_toUInt8 (by omega)
  by_cases htwo : c.toNat < 0x800
  · have hfirst : (0xc0 + c.toNat / 64).toUInt8.toNat = 0xc0 + c.toNat / 64 :=
      toNat_toUInt8 (by omega)
    have hvalue : 64 * (c.toNat / 64) + (0x80 + c.toNat % 64) % 64 = c.toNat := by omega
    rw [if_neg hone, if_pos htwo, List.cons_append, List.singleton_append,
      decodeFrom_leading (leading_two (by omega) htwo) (by omega),
      decodeFrom_last rfl (by dsimp only; rw [htail]; omega)
        (by dsimp only; rw [htail]; omega), htail, hvalue,
      Char.ofNat_toNat]
    exact ⟨_, rfl⟩
  by_cases hthree : c.toNat < 0x10000
  · have hfirst : (0xe0 + c.toNat / 4096).toUInt8.toNat = 0xe0 + c.toNat / 4096 :=
      toNat_toUInt8 (by omega)
    have hvalue : 64 * (64 * (c.toNat / 4096) + (0x80 + c.toNat / 64 % 64) % 64) +
        (0x80 + c.toNat % 64) % 64 = c.toNat := by omega
    obtain ⟨low, high, hleading, hlow, hhigh⟩ :=
      leading_three (n := c.toNat) (by omega) hthree (by omega)
    rw [if_neg hone, if_neg htwo, if_pos hthree, List.cons_append, List.cons_append,
      List.singleton_append, decodeFrom_leading hleading (by omega),
      decodeFrom_inner (by simp) (by dsimp only; rw [htail]; exact hlow)
        (by dsimp only; rw [htail]; exact hhigh),
      decodeFrom_last rfl (by dsimp only; rw [htail]; omega)
        (by dsimp only; rw [htail]; omega), htail, htail, hvalue,
      Char.ofNat_toNat]
    exact ⟨_, rfl⟩
  · have hfirst : (0xf0 + c.toNat / 262144).toUInt8.toNat = 0xf0 + c.toNat / 262144 :=
      toNat_toUInt8 (by omega)
    have hvalue : 64 * (64 * (64 * (c.toNat / 262144) + (0x80 + c.toNat / 4096 % 64) % 64) +
        (0x80 + c.toNat / 64 % 64) % 64) + (0x80 + c.toNat % 64) % 64 = c.toNat := by omega
    obtain ⟨low, high, hleading, hlow, hhigh⟩ :=
      leading_four (n := c.toNat) (by omega) (by omega)
    rw [if_neg hone, if_neg htwo, if_neg hthree, List.cons_append, List.cons_append,
      List.cons_append, List.singleton_append, decodeFrom_leading hleading (by omega),
      decodeFrom_inner (by simp) (by dsimp only; rw [htail]; exact hlow)
        (by dsimp only; rw [htail]; exact hhigh),
      decodeFrom_inner (by simp) (by dsimp only; rw [htail]; omega)
        (by dsimp only; rw [htail]; omega),
      decodeFrom_last rfl (by dsimp only; rw [htail]; omega)
        (by dsimp only; rw [htail]; omega), htail, htail, htail,
      hvalue, Char.ofNat_toNat]
    exact ⟨_, rfl⟩

theorem decode_encode (s : List Char) : decode (encode s) = .ok s := by
  have hfrom (position : Nat) : decodeFrom position none (encode s) = .ok s := by
    induction s generalizing position with
    | nil => rfl
    | cons c s ih =>
      obtain ⟨next, hnext⟩ := decodeFrom_encodeChar c position (encode s)
      rw [encode, List.flatMap_cons]
      exact hnext.trans (by rw [ih]; rfl)
  exact hfrom 0

end FlowGraph.Text.Utf8
