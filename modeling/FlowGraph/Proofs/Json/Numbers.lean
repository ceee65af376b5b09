import FlowGraph.Json.Numbers
import FlowGraph.Proofs.Text.Digits

/-! Numbers are read up to where they end. What follows a number makes no difference unless it
could belong to it, and an integer that is written is read as the same integer. -/

namespace FlowGraph.Json

/-- A text that begins with nothing that could belong to a number. -/
def EndsNumber (rest : List Char) : Prop :=
  ∀ c t, rest = c :: t → Text.isDigit c = false ∧ c ≠ '.' ∧ c ≠ 'e' ∧ c ≠ 'E' ∧ c ≠ '-' ∧ c ≠ '+'

variable {rest : List Char}

theorem splitDigits_of_ends (h : EndsNumber rest) : splitDigits rest = ([], rest) := by
  cases rest with
  | nil => rfl
  | cons c t => simp [splitDigits, (h c t rfl).1]

theorem splitDigits_append (h : EndsNumber rest) (s : List Char) :
    splitDigits (s ++ rest) = ((splitDigits s).1, (splitDigits s).2 ++ rest) := by
  induction s with
  | nil => exact splitDigits_of_ends h
  | cons c s ih =>
    simp only [splitDigits, Prod.mk.injEq] at ih
    cases hc : Text.isDigit c <;> simp [splitDigits, hc, ih]

def appendRest {α : Type} (rest : List Char) (found : α × List Char) : α × List Char :=
  (found.1, found.2 ++ rest)

theorem readDigits_append (h : EndsNumber rest) (s : List Char) :
    readDigits (s ++ rest) = (readDigits s).map (appendRest rest) := by
  unfold readDigits
  rw [splitDigits_append h s]
  rcases splitDigits s with ⟨digits, after⟩
  cases digits <;> rfl

theorem readFraction_append (h : EndsNumber rest) (s : List Char) :
    readFraction (s ++ rest) = (readFraction s).map (appendRest rest) := by
  cases s with
  | nil =>
    cases rest with
    | nil => rfl
    | cons c t => simp [readFraction, (h c t rfl).2.1]
  | cons c s =>
    by_cases hc : c = '.'
    · subst hc
      exact readDigits_append h s
    · simp [readFraction, hc]

theorem readPowerSign_append (h : EndsNumber rest) (s : List Char) :
    readPowerSign (s ++ rest) = appendRest rest (readPowerSign s) := by
  cases s with
  | nil =>
    cases rest with
    | nil => rfl
    | cons c t => simp [readPowerSign, appendRest, (h c t rfl).2.2.2.2.1, (h c t rfl).2.2.2.2.2]
  | cons c s =>
    by_cases hm : c = '-'
    · subst hm
      rfl
    · by_cases hp : c = '+'
      · subst hp
        rfl
      · simp [readPowerSign, appendRest, hm, hp]

theorem readPower_append (h : EndsNumber rest) (s : List Char) :
    readPower (s ++ rest) = (readPower s).map (appendRest rest) := by
  cases s with
  | nil =>
    cases rest with
    | nil => rfl
    | cons c t => simp [readPower, (h c t rfl).2.2.1, (h c t rfl).2.2.2.1]
  | cons c s =>
    by_cases hc : c = 'e' ∨ c = 'E'
    · simp only [List.cons_append, readPower, hc, if_true, readPowerSign_append h, appendRest,
        readDigits_append h, Option.map_map]
      rfl
    · simp only [List.cons_append, readPower, hc, if_false, Option.map_none]

theorem readWhole_append (h : EndsNumber rest) {s : List Char} (hs : s ≠ []) :
    readWhole (s ++ rest) = (readWhole s).map (appendRest rest) := by
  cases s with
  | nil => exact absurd rfl hs
  | cons c s =>
    by_cases hc : c = '0'
    · subst hc
      rfl
    · have hrun (t : List Char) : readWhole (c :: t) = readDigits (c :: t) := by
        rw [readWhole]
        simpa using hc
      rw [List.cons_append, hrun, hrun, ← List.cons_append, readDigits_append h]

theorem readSign_append {s : List Char} (hs : s ≠ []) :
    readSign (s ++ rest) = appendRest rest (readSign s) := by
  cases s with
  | nil => exact absurd rfl hs
  | cons c s =>
    by_cases hc : c = '-'
    · subst hc
      rfl
    · simp [readSign, appendRest, hc]

theorem makeNumber_append {s s' whole after : List Char} {negative : Bool}
    {fraction : Option (List Char × List Char)} {power : Option (Int × List Char)}
    {found : Json × List Char} (h : makeNumber s negative whole after fraction power = .ok found)
    (rest : List Char) :
    makeNumber s' negative whole (after ++ rest) (fraction.map (appendRest rest))
      (power.map (appendRest rest)) = .ok (appendRest rest found) := by
  cases fraction <;> cases power <;> simp only [makeNumber] at h
  · split at h
    · cases h
    · next hlimit =>
      obtain rfl := Except.ok.inj h
      simp only [makeNumber, Option.map_none, appendRest, hlimit, if_false]
  all_goals
    obtain rfl := Except.ok.inj h
    rfl

/-- A number is read the same whatever comes after it. -/
theorem readNumber_append (h : EndsNumber rest) {s : List Char} {found : Json × List Char}
    (hs : readNumber s = .ok found) : readNumber (s ++ rest) = .ok (appendRest rest found) := by
  unfold readNumber at hs
  have hne : s ≠ [] := by
    rintro rfl
    cases hs
  have hunsigned : (readSign s).2 ≠ [] := by
    intro hu
    rw [hu] at hs
    cases hs
  unfold readNumber
  rw [readSign_append hne]
  simp only [appendRest]
  rw [readWhole_append h hunsigned]
  cases hw : readWhole (readSign s).2 with
  | none =>
    rw [hw] at hs
    cases hs
  | some whole =>
    rw [hw] at hs
    have hnext : (readFraction (whole.2 ++ rest)).elim (whole.2 ++ rest) (·.2) =
        (readFraction whole.2).elim whole.2 (·.2) ++ rest := by
      rw [readFraction_append h]
      cases readFraction whole.2 <;> rfl
    simp only [Option.map_some, appendRest]
    rw [hnext, readFraction_append h, readPower_append h]
    exact makeNumber_append hs rest

theorem splitDigits_decimalDigits (h : EndsNumber rest) (n : Nat) :
    splitDigits (Text.decimalDigits n ++ rest) = (Text.decimalDigits n, rest) := by
  have hd : ∀ c ∈ Text.decimalDigits n, Text.isDigit c = true :=
    fun _ hc => Text.isDigit_of_mem_decimalDigits hc
  have hrest := splitDigits_of_ends h
  simp only [splitDigits, Prod.mk.injEq] at hrest
  rw [splitDigits, List.takeWhile_append_of_pos hd, List.dropWhile_append_of_pos hd, hrest.1,
    hrest.2, List.append_nil]

theorem readWhole_decimalDigits (h : EndsNumber rest) (n : Nat) :
    readWhole (Text.decimalDigits n ++ rest) = some (Text.decimalDigits n, rest) := by
  rcases Text.decimalDigits_cases n with ⟨-, hn⟩ | ⟨c, t, hn, hc⟩
  · rw [hn]
    rfl
  · have hrun : readWhole (Text.decimalDigits n ++ rest) =
        readDigits (Text.decimalDigits n ++ rest) := by
      rw [hn, List.cons_append, readWhole]
      simpa using hc
    rw [hrun, readDigits, splitDigits_decimalDigits h, hn]

theorem readSign_signedDigits (n : Int) (rest : List Char) :
    readSign (Text.signedDigits n ++ rest) =
      (decide (n < 0), Text.decimalDigits n.natAbs ++ rest) := by
  unfold Text.signedDigits
  by_cases hn : n < 0
  · simp [hn, readSign]
  · rw [if_neg hn, decide_eq_false hn]
    rcases Text.decimalDigits_cases n.natAbs with ⟨-, hd⟩ | ⟨c, t, hd, -⟩
    · rw [hd]
      rfl
    · have hc : Text.isDigit c = true :=
        Text.isDigit_of_mem_decimalDigits (by rw [hd]; exact List.mem_cons_self)
      have hne : c ≠ '-' := by
        rintro rfl
        cases hc
      rw [hd, List.cons_append, readSign]
      simpa using hne

/-- An integer is read as itself, unless it has too many digits. -/
theorem readNumber_signedDigits (h : EndsNumber rest) {n : Int}
    (hn : (Text.decimalDigits n.natAbs).length ≤ digitLimit) :
    readNumber (Text.signedDigits n ++ rest) = .ok (.int n, rest) := by
  have hfraction : readFraction rest = none := readFraction_append h []
  have hpower : readPower rest = none := readPower_append h []
  have hsign : applySign (decide (n < 0)) n.natAbs = n := by
    by_cases hneg : n < 0
    · simp only [applySign, decide_eq_true hneg, if_true]
      omega
    · simp only [applySign, decide_eq_false hneg, Bool.false_eq_true, if_false]
      omega
  unfold readNumber
  rw [readSign_signedDigits, readWhole_decimalDigits h]
  simp only [hfraction, Option.elim_none, hpower, makeNumber]
  rw [if_neg (Nat.not_lt.mpr hn), Text.decimalValue_decimalDigits, hsign]

end FlowGraph.Json
