import FlowGraph.Text.Lowercase

/-! Lower case is lower case already. No run of capitals ends up among capitals, and so what a
character becomes is left alone, whatever stands next to it. -/

namespace FlowGraph.Text

/-- Characters that no context changes. -/
def Settled (c : Char) : Prop :=
  c ≠ '\u0130' ∧ ∀ r ∈ caseRuns, r.contains c.toNat = false

instance (c : Char) : Decidable (Settled c) :=
  inferInstanceAs (Decidable (_ ∧ _))

/-- What a capital sigma and a capital dotted I become, and the character with number zero. -/
theorem settled_marks :
    ['σ', 'ς', 'i', '\u0307', '\x00'].all (decide <| Settled ·) = true := by
  decide +kernel

theorem settled_of_mark {c : Char} (h : c ∈ ['σ', 'ς', 'i', '\u0307', '\x00']) : Settled c :=
  of_decide_eq_true (List.all_eq_true.mp settled_marks c h)

theorem not_settled_sigma : ¬ Settled '\u03a3' := by
  decide

theorem lowerBetween_of_settled {c : Char} (h : Settled c) (before after : List Char) :
    lowerBetween before c after = [c] := by
  have hsigma : c ≠ '\u03a3' := fun hc => not_settled_sigma (hc ▸ h)
  have hfind : caseRuns.find? (·.contains c.toNat) = none := by
    rw [List.find?_eq_none]
    intro r hr
    simp [h.2 r hr]
  simp [lowerBetween, hsigma, h.1, lowerChar, hfind]

theorem lowerAfter_of_settled {s : List Char} (h : ∀ c ∈ s, Settled c) (before : List Char) :
    lowerAfter before s = s := by
  induction s generalizing before with
  | nil => rfl
  | cons c s ih =>
    rw [List.forall_mem_cons] at h
    rw [lowerAfter, lowerBetween_of_settled h.1, ih h.2, List.singleton_append]

namespace CaseRun

/-- The code points of a run. -/
def codes (r : CaseRun) : List Nat :=
  List.range' r.first ((r.last - r.first) / r.step + 1) r.step

theorem contains_iff {r : CaseRun} {n : Nat} : r.contains n = true ↔
    r.first ≤ n ∧ n ≤ r.last ∧ (n - r.first) % r.step = 0 := by
  simp [contains, and_assoc]

theorem mem_codes {r : CaseRun} {n : Nat} (h : r.contains n = true) : n ∈ r.codes := by
  obtain ⟨hfirst, hlast, hstep⟩ := contains_iff.mp h
  refine List.mem_range'.mpr ⟨(n - r.first) / r.step, ?_, ?_⟩
  · exact Nat.lt_succ_of_le (Nat.div_le_div_right (Nat.sub_le_sub_right hlast _))
  · rw [Nat.mul_div_cancel' (Nat.dvd_of_mod_eq_zero hstep), Nat.add_sub_cancel' hfirst]

end CaseRun

/-- A set of numbers, with a bit for each of them. -/
def bits (ns : List Nat) : Nat :=
  ns.foldr (fun n set => set ||| 1 <<< n) 0

theorem testBit_bits {ns : List Nat} {n : Nat} (h : n ∈ ns) : (bits ns).testBit n = true := by
  induction ns with
  | nil => cases h
  | cons m ns ih =>
    rw [bits, List.foldr_cons, Nat.testBit_or, Bool.or_eq_true]
    rcases List.mem_cons.mp h with rfl | h
    · exact .inr (by simp [Nat.one_shiftLeft])
    · exact .inl (ih h)

/-- The code points that have another lower case. They are a set, since there are too many pairs of
runs to compare any two of them. -/
def capitals : Nat :=
  bits (0x130 :: caseRuns.flatMap CaseRun.codes)

/-! What holds for the table of the runs. -/

theorem later_runs : caseRuns.tail.all (fun r => decide (0x80 ≤ r.first)) = true := by
  decide

/-- The lower case of the runs begins with the small letters. -/
theorem images_small : caseRuns.all (fun r => decide (0x61 ≤ r.first + r.shift) &&
    (decide (r.last + r.shift < 0xd800) ||
      decide (0xdfff < r.first + r.shift) && decide (r.last + r.shift < 0x110000))) = true := by
  decide

/-- What the capitals become is no capital. -/
theorem images_apart : caseRuns.all (fun r => r.codes.all fun n =>
    !capitals.testBit (n + r.shift).toNat) = true := by
  decide +kernel

theorem toNat_ofNat {n : Nat} (hn : n.isValidChar) : (Char.ofNat n).toNat = n := by
  rw [Char.ofNat, dif_pos hn]
  rfl

theorem settled_ofNat {n : Nat} (hn : capitals.testBit n = false) : Settled (Char.ofNat n) := by
  by_cases hv : n.isValidChar
  · have hto := toNat_ofNat hv
    have hapart (m : Nat) (hm : m ∈ 0x130 :: caseRuns.flatMap CaseRun.codes) : n ≠ m := by
      rintro rfl
      exact Bool.false_ne_true (hn.symm.trans (testBit_bits hm))
    refine ⟨fun h => hapart 0x130 List.mem_cons_self ?_, fun r hr => ?_⟩
    · rw [← hto, h]
      rfl
    · rw [hto, Bool.eq_false_iff]
      exact fun hcontains => hapart n (List.mem_cons_of_mem _
        (List.mem_flatMap.mpr ⟨r, hr, CaseRun.mem_codes hcontains⟩)) rfl
  · -- Beyond the code points there is only the character with number zero.
    have hzero : Char.ofNat n = '\x00' := by
      rw [Char.ofNat, dif_neg hv]
      rfl
    exact hzero ▸ settled_of_mark (by simp)

theorem settled_lowerChar {c : Char} (hc : c ≠ '\u0130') : Settled (lowerChar c) := by
  unfold lowerChar
  cases hfind : caseRuns.find? (·.contains c.toNat) with
  | none =>
    rw [List.find?_eq_none] at hfind
    exact ⟨hc, fun r hr => by simpa using hfind r hr⟩
  | some r =>
    have hcontains : r.contains c.toNat = true := by simpa using List.find?_some hfind
    have hchecked := List.all_eq_true.mp images_apart r (List.mem_of_find?_eq_some hfind)
    have himage := List.all_eq_true.mp hchecked c.toNat (CaseRun.mem_codes hcontains)
    exact settled_ofNat (by simpa using himage)

theorem settled_of_mem_lowerBetween {before after : List Char} {c x : Char}
    (h : x ∈ lowerBetween before c after) : Settled x := by
  unfold lowerBetween at h
  split at h
  · split at h <;> rw [List.mem_singleton.mp h] <;> exact settled_of_mark (by simp)
  split at h
  · simp only [List.mem_cons, List.not_mem_nil, or_false] at h
    rcases h with rfl | rfl <;> exact settled_of_mark (by simp)
  · next hc =>
    rw [List.mem_singleton.mp h]
    exact settled_lowerChar hc

theorem settled_of_mem_lowerAfter {before s : List Char} {x : Char}
    (h : x ∈ lowerAfter before s) : Settled x := by
  induction s generalizing before with
  | nil => simp [lowerAfter] at h
  | cons c s ih =>
    rcases List.mem_append.mp h with h | h
    · exact settled_of_mem_lowerBetween h
    · exact ih h

theorem lowerChar_eq_or_le (c : Char) : lowerChar c = c ∨ 0x61 ≤ (lowerChar c).toNat := by
  unfold lowerChar
  cases hfind : caseRuns.find? (·.contains c.toNat) with
  | none => exact .inl rfl
  | some r =>
    have hcontains : r.contains c.toNat = true := by simpa using List.find?_some hfind
    obtain ⟨hfirst, hlast, -⟩ := CaseRun.contains_iff.mp hcontains
    have hchecked := List.all_eq_true.mp images_small r (List.mem_of_find?_eq_some hfind)
    simp only [Bool.and_eq_true, Bool.or_eq_true, decide_eq_true_eq] at hchecked
    have hvalid : (c.toNat + r.shift).toNat.isValidChar := by
      unfold Nat.isValidChar
      omega
    refine .inr ?_
    dsimp only
    rw [toNat_ofNat hvalid]
    omega

/-- Lower case brings small letters and characters after them, but none that come before. -/
theorem mem_or_le_of_mem_lowerAfter {before s : List Char} {x : Char}
    (h : x ∈ lowerAfter before s) : x ∈ s ∨ 0x61 ≤ x.toNat := by
  induction s generalizing before with
  | nil => simp [lowerAfter] at h
  | cons c s ih =>
    rcases List.mem_append.mp h with h | h
    · unfold lowerBetween at h
      split at h
      · split at h <;> rw [List.mem_singleton.mp h] <;> exact .inr (by decide)
      split at h
      · simp only [List.mem_cons, List.not_mem_nil, or_false] at h
        rcases h with rfl | rfl <;> exact .inr (by decide)
      · obtain rfl := List.mem_singleton.mp h
        refine (lowerChar_eq_or_le c).imp_left fun hc => ?_
        rw [hc]
        exact List.mem_cons_self
    · exact (ih h).imp_left (List.mem_cons_of_mem c)

theorem lowercase_lowercase (s : String) : lowercase (lowercase s) = lowercase s := by
  rw [lowercase, lowercase, String.toList_ofList,
    lowerAfter_of_settled fun _ h => settled_of_mem_lowerAfter h]

/-! ASCII. -/

/-- Of the runs only the first one has such characters. -/
theorem find_caseRuns_ascii {n : Nat} (hn : n < 0x80) : caseRuns.find? (·.contains n) =
    if 0x41 ≤ n ∧ n ≤ 0x5a then some ⟨0x41, 0x5a, 1, 32⟩ else none := by
  have hruns : caseRuns = ⟨0x41, 0x5a, 1, 32⟩ :: caseRuns.tail := rfl
  have hlater : caseRuns.tail.find? (·.contains n) = none := by
    rw [List.find?_eq_none]
    intro r hr hcontains
    have hfirst := of_decide_eq_true (List.all_eq_true.mp later_runs r hr)
    have hstart := (CaseRun.contains_iff.mp hcontains).1
    omega
  have hcapital : CaseRun.contains ⟨0x41, 0x5a, 1, 32⟩ n = decide (0x41 ≤ n ∧ n ≤ 0x5a) := by
    simp [CaseRun.contains, Nat.mod_one]
  rw [hruns, List.find?_cons, hlater, hcapital]
  by_cases h : 0x41 ≤ n ∧ n ≤ 0x5a
  · rw [if_pos h, decide_eq_true h]
  · rw [if_neg h, decide_eq_false h]

/-- Only the capitals have another lower case. -/
theorem settled_of_ascii {c : Char} (hc : c.toNat < 0x80)
    (hcapital : ¬ c.isUpper = true) : Settled c := by
  have hcode : ¬ (0x41 ≤ c.toNat ∧ c.toNat ≤ 0x5a) := fun h => hcapital (decide_eq_true h)
  have hfind := find_caseRuns_ascii hc
  rw [if_neg hcode, List.find?_eq_none] at hfind
  refine ⟨?_, fun r hr => by simpa using hfind r hr⟩
  rintro rfl
  exact absurd hc (by decide)

theorem lowerChar_ascii {c : Char} (hc : c.toNat < 0x80) : lowerChar c = c.toLower := by
  have hcapital : 'A'.val ≤ c.val ∧ c.val ≤ 'Z'.val ↔ 0x41 ≤ c.toNat ∧ c.toNat ≤ 0x5a := Iff.rfl
  rw [lowerChar, find_caseRuns_ascii hc]
  delta Char.toLower
  by_cases h : 0x41 ≤ c.toNat ∧ c.toNat ≤ 0x5a
  · have hvalid : (c.toNat + 32).isValidChar := .inl (by omega)
    have hsmall : (c.val + 32).toNat = c.toNat + 32 := by
      rw [UInt32.toNat_add]
      exact Nat.mod_eq_of_lt (Nat.lt_of_lt_of_le (Nat.add_lt_add_right hc 32) (by decide))
    rw [if_pos h, dif_pos (hcapital.mpr h)]
    exact Char.ext (UInt32.toNat_inj.mp ((toNat_ofNat hvalid).trans hsmall.symm))
  · rw [if_neg h, dif_neg fun hc => h (hcapital.mp hc)]

end FlowGraph.Text
