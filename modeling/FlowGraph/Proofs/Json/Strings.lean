import FlowGraph.Json.Strings
import FlowGraph.Proofs.Json.Plain

/-! A string that is written is read as the same string. What is written are the code units of
its characters, and those of a character above the basic plane are joined again. -/

namespace FlowGraph.Json

def units (c : Char) : List Nat :=
  if c.toNat < 0x10000 then [c.toNat]
  else [0xd800 + (c.toNat - 0x10000) / 0x400, 0xdc00 + (c.toNat - 0x10000) % 0x400]

theorem toNat_lt_or_gt (c : Char) :
    c.toNat < 0xd800 ∨ 0xdfff < c.toNat ∧ c.toNat < 0x110000 :=
  c.valid

theorem joinSurrogates_units_append (c : Char) (us : List Nat) :
    joinSurrogates (units c ++ us) = c :: joinSurrogates us := by
  have hc := toNat_lt_or_gt c
  by_cases h : c.toNat < 0x10000
  · have hhigh : isHighSurrogate c.toNat = false := by
      simp only [isHighSurrogate, Bool.and_eq_false_iff, decide_eq_false_iff_not]
      omega
    have hlow : isLowSurrogate c.toNat = false := by
      simp only [isLowSurrogate, Bool.and_eq_false_iff, decide_eq_false_iff_not]
      omega
    rw [units, if_pos h, List.singleton_append]
    cases us <;> simp [joinSurrogates, hhigh, hlow]
  · have hhigh : isHighSurrogate (0xd800 + (c.toNat - 0x10000) / 0x400) = true := by
      simp only [isHighSurrogate, Bool.and_eq_true, decide_eq_true_eq]
      omega
    have hlow : isLowSurrogate (0xdc00 + (c.toNat - 0x10000) % 0x400) = true := by
      simp only [isLowSurrogate, Bool.and_eq_true, decide_eq_true_eq]
      omega
    have hjoin : 0x10000 + 0x400 * (0xd800 + (c.toNat - 0x10000) / 0x400 - 0xd800) +
        (0xdc00 + (c.toNat - 0x10000) % 0x400 - 0xdc00) = c.toNat := by
      omega
    rw [units, if_neg h, List.cons_append, List.singleton_append, joinSurrogates, hhigh, hlow,
      hjoin, Char.ofNat_toNat]
    rfl

theorem joinSurrogates_flatMap_units (s : List Char) : joinSurrogates (s.flatMap units) = s := by
  induction s with
  | nil => rfl
  | cons c s ih => rw [List.flatMap_cons, joinSurrogates_units_append, ih]

theorem hexUnit_hexDigits {n : Nat} (h : n < 0x10000) :
    hexUnit? (Text.digitChar (n / 4096 % 16)) (Text.digitChar (n / 256 % 16))
      (Text.digitChar (n / 16 % 16)) (Text.digitChar (n % 16)) = some n := by
  have hd (m : Nat) : Text.hexValue? (Text.digitChar (m % 16)) = some (m % 16) :=
    Text.hexValue_digitChar (Nat.mod_lt m (by decide))
  simp only [hexUnit?, hd]
  show some _ = some n
  congr 1
  omega

section

variable {opening tail after : List Char} {us : List Nat}

/-! One step of the reader. -/

theorem readUnits_cons {c : Char} (hquote : c ≠ '"') (hslash : c ≠ '\\') (t : List Char) :
    readUnits opening (c :: t) =
      if c.toNat < 0x20 then .error ⟨.controlCharacter, c :: t⟩
      else do
        let (us, after) ← readUnits opening t
        return (c.toNat :: us, after) := by
  rewrite [readUnits]
  · rfl
  · exact hquote
  · exact hslash

theorem readUnits_escape {e : Char} (hu : e ≠ 'u') (t : List Char) :
    readUnits opening ('\\' :: e :: t) =
      match unescape? e with
      | some c => do
        let (us, after) ← readUnits opening t
        return (c.toNat :: us, after)
      | none => .error ⟨.escape, '\\' :: e :: t⟩ := by
  rewrite [readUnits]
  · rfl
  · exact fun _ _ _ _ _ _ h => absurd h hu
  · exact hu

theorem readUnits_number (a b c d e : Char) (t : List Char) :
    readUnits opening ('\\' :: 'u' :: a :: b :: c :: d :: e :: t) =
      match hexUnit? a b c d with
      | some n => do
        let (us, after) ← readUnits opening (e :: t)
        return (n :: us, after)
      | none => .error ⟨.unicodeEscape, 'u' :: a :: b :: c :: d :: e :: t⟩ :=
  rfl

theorem readUnits_unitEscape {n : Nat} (hn : n < 0x10000)
    (h : readUnits opening tail = .ok (us, after)) :
    readUnits opening (unitEscape n ++ tail) = .ok (n :: us, after) := by
  cases tail with
  | nil => cases h
  | cons e more =>
    rw [unitEscape, Text.hexDigits_four]
    simp only [List.cons_append, List.nil_append, readUnits_number, hexUnit_hexDigits hn, h]
    rfl

theorem readUnits_plain {c : Char} (hquote : c ≠ '"') (hslash : c ≠ '\\') (hc : 0x20 ≤ c.toNat)
    (h : readUnits opening tail = .ok (us, after)) :
    readUnits opening (c :: tail) = .ok (c.toNat :: us, after) := by
  rw [readUnits_cons hquote hslash, if_neg (Nat.not_lt.mpr hc), h]
  rfl

theorem readUnits_short {c e : Char} (he : unescape? e = some c) (hu : e ≠ 'u')
    (h : readUnits opening tail = .ok (us, after)) :
    readUnits opening ('\\' :: e :: tail) = .ok (c.toNat :: us, after) := by
  simp only [readUnits_escape hu, he, h]
  rfl

theorem unescape_of_short {c e : Char} (h : (c, e) ∈ shortEscapes) :
    unescape? e = some c ∧ e ≠ 'u' ∧ c.toNat < 0x10000 := by
  have hall : ∀ p ∈ shortEscapes, unescape? p.2 = some p.1 ∧ p.2 ≠ 'u' ∧ p.1.toNat < 0x10000 := by
    decide
  exact hall (c, e) h

/-- A character is read as its code units, whichever way it was written. -/
theorem readUnits_escapeChar (c : Char) (h : readUnits opening tail = .ok (us, after)) :
    readUnits opening (escapeChar c ++ tail) = .ok (units c ++ us, after) := by
  have hc := toNat_lt_or_gt c
  rcases escapeChar_cases c with ⟨e, he, hescape⟩ | ⟨hquote, hslash, hvisible, hescape⟩ |
    ⟨hbmp, hescape⟩ | ⟨hbmp, hescape⟩ <;> rw [hescape]
  · obtain ⟨hread, hu, hbmp⟩ := unescape_of_short he
    rw [units, if_pos hbmp]
    exact readUnits_short hread hu h
  · rw [units, if_pos (by omega)]
    exact readUnits_plain hquote hslash hvisible.1 h
  · rw [units, if_pos hbmp]
    exact readUnits_unitEscape hbmp h
  · rw [units, if_neg hbmp, List.append_assoc]
    exact readUnits_unitEscape (by omega) (readUnits_unitEscape (by omega) h)

end

theorem readUnits_flatMap_escapeChar (opening : List Char) (s rest : List Char) :
    readUnits opening (s.flatMap escapeChar ++ '"' :: rest) = .ok (s.flatMap units, rest) := by
  induction s with
  | nil => rfl
  | cons c s ih =>
    rw [List.flatMap_cons, List.flatMap_cons, List.append_assoc]
    exact readUnits_escapeChar c ih

theorem readString_writeString (opening : List Char) (s : String) (rest : List Char) :
    readString opening (s.toList.flatMap escapeChar ++ '"' :: rest) = .ok (s, rest) := by
  rw [readString, readUnits_flatMap_escapeChar]
  show Except.ok (String.ofList (joinSurrogates (s.toList.flatMap units)), rest) = _
  rw [joinSurrogates_flatMap_units, String.ofList_toList]

end FlowGraph.Json
