import FlowGraph.Proofs.Json.Progress
import FlowGraph.Proofs.Json.Strings
import FlowGraph.Proofs.Text.Newlines

/-! Line ends in JSON text. Between tokens all of them are space, and inside a token none of them
may stand, so a text whose line ends are unified is read as the same value, or refused for the same
cause at the same place. -/

namespace FlowGraph.Json

open FlowGraph.Text

variable {α β : Type} {s : List Char}

def ReadError.unified (e : ReadError) : ReadError where
  cause := e.cause
  rest := unifyNewlines e.rest

def unifiedRest (found : α × List Char) : α × List Char :=
  (found.1, unifyNewlines found.2)

/-- What a reader answers when the line ends of the text are unified. -/
def unified : Except ReadError (α × List Char) → Except ReadError (α × List Char)
  | .ok found => .ok (unifiedRest found)
  | .error e => .error e.unified

@[simp] theorem unified_ok (a : α) (rest : List Char) :
    unified (.ok (a, rest)) = .ok (a, unifyNewlines rest) := rfl

/-- Readers one after the other are told apart by what each does with the text that is left. -/
theorem unified_bind {f g : α × List Char → Except ReadError (β × List Char)}
    (h : ∀ a rest, g (a, unifyNewlines rest) = unified (f (a, rest)))
    (x : Except ReadError (α × List Char)) : unified x >>= g = unified (x >>= f) := by
  cases x with
  | error e => rfl
  | ok found => exact h found.1 found.2

/-- What is only made of a value does not depend on the text. -/
theorem unified_then_pure (f : α → β) (x : Except ReadError (α × List Char)) :
    (do
      let (a, after) ← unified x
      return (f a, after)) =
    unified (do
      let (a, after) ← x
      return (f a, after)) :=
  unified_bind (fun _ _ => rfl) x

theorem skipSpace_unifyNewlines (s : List Char) :
    skipSpace (unifyNewlines s) = unifyNewlines (skipSpace s) :=
  dropWhile_unifyNewlines rfl s

/-! Numbers. -/

theorem readDigits_unifyNewlines (s : List Char) :
    readDigits (unifyNewlines s) = (readDigits s).map unifiedRest := by
  have htake := takeWhile_unifyNewlines (p := Text.isDigit) rfl rfl s
  have hdrop := dropWhile_unifyNewlines (p := Text.isDigit) rfl s
  unfold readDigits splitDigits
  rw [htake, hdrop]
  cases s.takeWhile Text.isDigit <;> rfl

theorem readFraction_unifyNewlines (s : List Char) :
    readFraction (unifyNewlines s) = (readFraction s).map unifiedRest := by
  rcases unifyNewlines_cases s with rfl | ⟨c, t, -, -, rfl, hu⟩ | ⟨c, t, rest, hc, rfl, hu⟩
  · rfl
  · rw [hu]
    by_cases hc : c = '.'
    · subst hc
      exact readDigits_unifyNewlines t
    · simp [readFraction, hc]
  · rw [hu]
    rcases hc with rfl | rfl <;> rfl

theorem readPowerSign_unifyNewlines (s : List Char) :
    readPowerSign (unifyNewlines s) = unifiedRest (readPowerSign s) := by
  rcases unifyNewlines_cases s with rfl | ⟨c, t, -, -, rfl, hu⟩ | ⟨c, t, rest, hc, rfl, hu⟩
  · rfl
  · by_cases hm : c = '-'
    · subst hm
      rw [hu]
      rfl
    · by_cases hp : c = '+'
      · subst hp
        rw [hu]
        rfl
      · simp [readPowerSign, unifiedRest, hm, hp, hu]
  · rcases hc with rfl | rfl <;> simp [readPowerSign, unifiedRest, hu]

theorem readPower_unifyNewlines (s : List Char) :
    readPower (unifyNewlines s) = (readPower s).map unifiedRest := by
  rcases unifyNewlines_cases s with rfl | ⟨c, t, -, -, rfl, hu⟩ | ⟨c, t, rest, hc, rfl, hu⟩
  · rfl
  · rw [hu]
    by_cases hc : c = 'e' ∨ c = 'E'
    · simp only [readPower, hc, if_true, readPowerSign_unifyNewlines, unifiedRest,
        readDigits_unifyNewlines, Option.map_map]
      rfl
    · simp only [readPower, hc, if_false, Option.map_none]
  · rw [hu]
    rcases hc with rfl | rfl <;> rfl

theorem readWhole_unifyNewlines (s : List Char) :
    readWhole (unifyNewlines s) = (readWhole s).map unifiedRest := by
  have hrun {c : Char} (hc : c ≠ '0') (t : List Char) :
      readWhole (c :: t) = readDigits (c :: t) := by
    rw [readWhole]
    simpa using hc
  rcases unifyNewlines_cases s with rfl | ⟨c, t, -, -, rfl, hu⟩ | ⟨c, t, rest, hc, rfl, hu⟩
  · rfl
  · by_cases hc : c = '0'
    · subst hc
      rw [hu]
      rfl
    · rw [hu, hrun hc, hrun hc, ← hu, readDigits_unifyNewlines]
  · have hc : c ≠ '0' := by rcases hc with rfl | rfl <;> decide
    rw [hu, hrun (by decide), hrun hc, ← hu, readDigits_unifyNewlines]

theorem readSign_unifyNewlines (s : List Char) :
    readSign (unifyNewlines s) = unifiedRest (readSign s) := by
  rcases unifyNewlines_cases s with rfl | ⟨c, t, -, -, rfl, hu⟩ | ⟨c, t, rest, hc, rfl, hu⟩
  · rfl
  · by_cases hc : c = '-'
    · subst hc
      rw [hu]
      rfl
    · simp [readSign, unifiedRest, hc, hu]
  · rcases hc with rfl | rfl <;> simp [readSign, unifiedRest, hu]

theorem makeNumber_unifyNewlines (s : List Char) (negative : Bool) (whole rest : List Char)
    (fraction : Option (List Char × List Char)) (power : Option (Int × List Char)) :
    makeNumber (unifyNewlines s) negative whole (unifyNewlines rest) (fraction.map unifiedRest)
      (power.map unifiedRest) = unified (makeNumber s negative whole rest fraction power) := by
  cases fraction with
  | some fraction => cases power <;> rfl
  | none =>
    cases power with
    | some power => rfl
    | none =>
      by_cases hlimit : digitLimit < whole.length
      · simp only [makeNumber, Option.map_none, hlimit, if_true]
        rfl
      · simp only [makeNumber, Option.map_none, hlimit, if_false]
        rfl

theorem readNumber_unifyNewlines (s : List Char) :
    readNumber (unifyNewlines s) = unified (readNumber s) := by
  unfold readNumber
  rw [readSign_unifyNewlines]
  simp only [unifiedRest]
  rw [readWhole_unifyNewlines]
  cases readWhole (readSign s).2 with
  | none => rfl
  | some found =>
    obtain ⟨whole, rest⟩ := found
    have hnext : (readFraction (unifyNewlines rest)).elim (unifyNewlines rest) (·.2) =
        unifyNewlines ((readFraction rest).elim rest (·.2)) := by
      rw [readFraction_unifyNewlines]
      cases readFraction rest <;> rfl
    simp only [Option.map_some, unifiedRest]
    rw [hnext, readFraction_unifyNewlines, readPower_unifyNewlines, makeNumber_unifyNewlines]

theorem readScalar_unifyNewlines (s : List Char) :
    readScalar (unifyNewlines s) = unified (readScalar s) := by
  have hline : ∀ p ∈ words, '\r' ∉ p.1 ∧ '\n' ∉ p.1 := by decide
  rcases readScalar_cases s with ⟨p, hp, t, rfl⟩ | ⟨hno, hnumber⟩
  · rw [unifyNewlines_append (hline p hp).1, readScalar_word hp, readScalar_word hp]
    rfl
  · have hno' : ∀ p ∈ words, ∀ rest, unifyNewlines s ≠ p.1 ++ rest :=
      fun p hp => unifyNewlines_ne_append (hline p hp).2 (hno p hp)
    rw [hnumber, readScalar_of_no_word hno', readNumber_unifyNewlines]

/-! Strings. -/

variable {opening : List Char}

theorem readUnits_control {c : Char} (hc : c.toNat < 0x20) (t : List Char) :
    readUnits opening (c :: t) = .error ⟨.controlCharacter, c :: t⟩ := by
  have hother (d : Char) (hd : ¬ d.toNat < 0x20) : c ≠ d := fun h => hd (h ▸ hc)
  rw [readUnits_cons (hother '"' (by decide)) (hother '\\' (by decide)), if_pos hc]

theorem readUnits_bad_escape {e : Char} (hu : e ≠ 'u') (he : unescape? e = none) (t : List Char) :
    readUnits opening ('\\' :: e :: t) = .error ⟨.escape, '\\' :: e :: t⟩ := by
  simp only [readUnits_escape hu, he]

/-- Four digits, and something after them. -/
def Numbered (t : List Char) : Prop :=
  ∃ a b c d e more n, t = a :: b :: c :: d :: e :: more ∧ hexUnit? a b c d = some n

theorem readUnits_bad_number {t : List Char} (h : ¬ Numbered t) :
    readUnits opening ('\\' :: 'u' :: t) = .error ⟨.unicodeEscape, 'u' :: t⟩ := by
  match t with
  | a :: b :: c :: d :: e :: more =>
    cases hn : hexUnit? a b c d with
    | none => simp only [readUnits_number, hn]
    | some n => exact absurd ⟨a, b, c, d, e, more, n, rfl, hn⟩ h
  | [] => rfl
  | [_] => rfl
  | [_, _] => rfl
  | [_, _, _] => rfl
  | [_, _, _, _] => rfl

/-- Nothing but digits is in a number. -/
theorem not_mem_of_hexUnit {a b c d e : Char} {n : Nat} (h : hexUnit? a b c d = some n)
    (he : Text.hexValue? e = none) : e ∉ [a, b, c, d] := by
  have hdigits : ∀ x ∈ [a, b, c, d], (Text.hexValue? x).isSome := by
    unfold hexUnit? at h
    obtain ⟨_, ha, h⟩ := Option.bind_eq_some_iff.mp h
    obtain ⟨_, hb, h⟩ := Option.bind_eq_some_iff.mp h
    obtain ⟨_, hc, h⟩ := Option.bind_eq_some_iff.mp h
    obtain ⟨_, hd, -⟩ := Option.bind_eq_some_iff.mp h
    simp [ha, hb, hc, hd]
  intro hmem
  have hdigit := hdigits e hmem
  rw [he] at hdigit
  cases hdigit

theorem numbered_of_unifyNewlines {t : List Char} (h : Numbered (unifyNewlines t)) :
    Numbered t := by
  obtain ⟨a, b, c, d, e, more, n, ht, hn⟩ := h
  have hw : '\n' ∉ [a, b, c, d] := not_mem_of_hexUnit hn rfl
  obtain ⟨rest, rfl, hrest⟩ := exists_append_of_unifyNewlines hw ht
  cases rest with
  | nil => cases hrest
  | cons e' more' => exact ⟨a, b, c, d, e', more', n, rfl, hn⟩

theorem readUnits_bad_number_unifyNewlines {t : List Char} (h : ¬ Numbered t) :
    readUnits opening (unifyNewlines ('\\' :: 'u' :: t)) =
      .error ⟨.unicodeEscape, unifyNewlines ('u' :: t)⟩ := by
  rw [unifyNewlines_cons (by decide), unifyNewlines_cons (by decide),
    readUnits_bad_number (mt numbered_of_unifyNewlines h)]

theorem readUnits_unifyNewlines (opening s : List Char) :
    readUnits (unifyNewlines opening) (unifyNewlines s) = unified (readUnits opening s) := by
  fun_induction readUnits opening s with
  | case1 => rfl
  | case2 rest =>
    rw [unifyNewlines_cons (by decide)]
    rfl
  | case3 => rfl
  | case4 a b c d e more n hn ih =>
    have hw : '\r' ∉ [a, b, c, d] := not_mem_of_hexUnit hn rfl
    obtain ⟨rest, hrest⟩ := exists_unifyNewlines_cons e more
    have hu : unifyNewlines (a :: b :: c :: d :: e :: more) =
        a :: b :: c :: d :: unifyNewlines (e :: more) := unifyNewlines_append hw (e :: more)
    rw [unifyNewlines_cons (by decide), unifyNewlines_cons (by decide), hu, hrest]
    rw [hrest] at ih
    simp only [readUnits_number, hn, ih]
    exact unified_then_pure (n :: ·) _
  | case5 a b c d e more hn =>
    refine readUnits_bad_number_unifyNewlines ?_
    rintro ⟨a', b', c', d', e', more', n, ht, hn'⟩
    simp only [List.cons.injEq] at ht
    obtain ⟨rfl, rfl, rfl, rfl, -⟩ := ht
    simp [hn] at hn'
  | case6 t ht =>
    refine readUnits_bad_number_unifyNewlines ?_
    rintro ⟨a, b, c, d, e, more, n, h, -⟩
    exact ht a b c d e more h
  | case7 e more hlong hu c hc ih =>
    have he : e ≠ '\r' := by
      rintro rfl
      cases hc
    rw [unifyNewlines_cons (by decide), unifyNewlines_cons he, readUnits_escape hu]
    simp only [hc, ih]
    exact unified_then_pure (c.toNat :: ·) _
  | case8 e more hlong hu he =>
    obtain ⟨rest, hrest⟩ := exists_unifyNewlines_cons e more
    have hescape : (if e = '\r' then '\n' else e) ≠ 'u' ∧
        unescape? (if e = '\r' then '\n' else e) = none := by
      split
      · exact ⟨by decide, rfl⟩
      · exact ⟨hu, he⟩
    rw [unified, ReadError.unified, unifyNewlines_cons (by decide), hrest,
      readUnits_bad_escape hescape.1 hescape.2]
  | case9 c t _ _ hc =>
    obtain ⟨rest, hrest⟩ := exists_unifyNewlines_cons c t
    have hcontrol : (if c = '\r' then '\n' else c).toNat < 0x20 := by
      split
      · decide
      · exact hc
    rw [unified, ReadError.unified, hrest, readUnits_control hcontrol]
  | case10 c t hquote hslash hc ih =>
    have hr : c ≠ '\r' := by
      rintro rfl
      exact hc (by decide)
    rw [unifyNewlines_cons hr, readUnits_cons hquote hslash, if_neg hc]
    simp only [ih]
    exact unified_then_pure (c.toNat :: ·) _

theorem readString_unifyNewlines (opening s : List Char) :
    readString (unifyNewlines opening) (unifyNewlines s) = unified (readString opening s) := by
  unfold readString
  rw [readUnits_unifyNewlines]
  exact unified_then_pure (fun units => String.ofList (joinSurrogates units)) _

/-! Values. -/

/-- With given fuel a text and its unified form are read alike. -/
def ReadAlike (fuel : Nat) : Prop :=
  (∀ s, readValue fuel (unifyNewlines s) = unified (readValue fuel s)) ∧
  (∀ s, readItems fuel (unifyNewlines s) = unified (readItems fuel s)) ∧
  ∀ before s, readFields fuel before (unifyNewlines s) = unified (readFields fuel before s)

section

variable {fuel : Nat}

theorem arrayBody_unifyNewlines (ih : ReadAlike fuel) (s : List Char) :
    arrayBody fuel (unifyNewlines s) = unified (arrayBody fuel s) := by
  unfold arrayBody
  split
  · next hclose =>
    obtain ⟨t, rfl, rfl⟩ := eq_cons_of_unifyNewlines (by decide) hclose
    rfl
  · next hclose =>
    split
    · exact (hclose _ (unifyNewlines_cons (by decide) _)).elim
    · rw [ih.2.1]
      exact unified_then_pure Json.array _

theorem objectBody_unifyNewlines (ih : ReadAlike fuel) (s : List Char) :
    objectBody fuel (unifyNewlines s) = unified (objectBody fuel s) := by
  unfold objectBody
  split
  · next hclose =>
    obtain ⟨t, rfl, rfl⟩ := eq_cons_of_unifyNewlines (by decide) hclose
    rfl
  · next hclose =>
    split
    · exact (hclose _ (unifyNewlines_cons (by decide) _)).elim
    · rw [ih.2.2]
      exact unified_then_pure Json.object _

theorem moreItems_unifyNewlines (ih : ReadAlike fuel) (item : Json) (s : List Char) :
    moreItems fuel item (unifyNewlines s) = unified (moreItems fuel item s) := by
  unfold moreItems
  split
  · next hclose =>
    obtain ⟨t, rfl, rfl⟩ := eq_cons_of_unifyNewlines (by decide) hclose
    rfl
  · next hcomma =>
    obtain ⟨t, rfl, rfl⟩ := eq_cons_of_unifyNewlines (by decide) hcomma
    rw [skipSpace_unifyNewlines, ih.2.1]
    exact unified_then_pure (item :: ·) _
  · next hclose hcomma =>
    split
    · exact (hclose _ (unifyNewlines_cons (by decide) _)).elim
    · exact (hcomma _ (unifyNewlines_cons (by decide) _)).elim
    · rfl

theorem moreFields_unifyNewlines (ih : ReadAlike fuel) (fields : List (String × Json))
    (s : List Char) :
    moreFields fuel fields (unifyNewlines s) = unified (moreFields fuel fields s) := by
  unfold moreFields
  split
  · next hclose =>
    obtain ⟨t, rfl, rfl⟩ := eq_cons_of_unifyNewlines (by decide) hclose
    rfl
  · next hcomma =>
    obtain ⟨t, rfl, rfl⟩ := eq_cons_of_unifyNewlines (by decide) hcomma
    rw [skipSpace_unifyNewlines, ih.2.2]
    rfl
  · next hclose hcomma =>
    split
    · exact (hclose _ (unifyNewlines_cons (by decide) _)).elim
    · exact (hcomma _ (unifyNewlines_cons (by decide) _)).elim
    · rfl

theorem fieldBody_unifyNewlines (ih : ReadAlike fuel) (fields : List (String × Json))
    (key : String) (s : List Char) :
    fieldBody fuel fields key (unifyNewlines s) = unified (fieldBody fuel fields key s) := by
  unfold fieldBody
  split
  · next hcolon =>
    obtain ⟨t, rfl, rfl⟩ := eq_cons_of_unifyNewlines (by decide) hcolon
    rw [skipSpace_unifyNewlines, ih.1]
    refine unified_bind (fun value after => ?_) _
    dsimp only
    rw [skipSpace_unifyNewlines]
    exact moreFields_unifyNewlines ih _ _
  · next hcolon =>
    split
    · exact (hcolon _ (unifyNewlines_cons (by decide) _)).elim
    · rfl

theorem readItems_unifyNewlines (ih : ReadAlike fuel) (s : List Char) :
    readItems (fuel + 1) (unifyNewlines s) = unified (readItems (fuel + 1) s) := by
  rw [readItems_succ, readItems_succ, ih.1]
  refine unified_bind (fun item after => ?_) _
  dsimp only
  rw [skipSpace_unifyNewlines]
  exact moreItems_unifyNewlines ih item _

theorem readFields_unifyNewlines (ih : ReadAlike fuel) (before : List (String × Json))
    (s : List Char) :
    readFields (fuel + 1) before (unifyNewlines s) = unified (readFields (fuel + 1) before s) := by
  by_cases hquote : ∃ t, s = '"' :: t
  · obtain ⟨t, rfl⟩ := hquote
    rw [readFields_quote, unifyNewlines_cons (by decide), readFields_quote,
      ← unifyNewlines_cons (by decide), readString_unifyNewlines]
    refine unified_bind (fun key after => ?_) _
    dsimp only
    rw [skipSpace_unifyNewlines]
    exact fieldBody_unifyNewlines ih before key _
  · rw [readFields_of_no_quote (not_exists.mp hquote), readFields_of_no_quote]
    · rfl
    · intro t h
      obtain ⟨t, rfl, -⟩ := eq_cons_of_unifyNewlines (by decide) h
      exact hquote ⟨t, rfl⟩

theorem opensValue_of_unifyNewlines {s : List Char} (h : opensValue (unifyNewlines s)) :
    opensValue s := by
  obtain ⟨c, hc, t, ht⟩ := h
  have hne : c ≠ '\n' := fun h => absurd (h ▸ hc) (by decide)
  obtain ⟨rest, rfl, -⟩ := eq_cons_of_unifyNewlines hne ht
  exact ⟨c, hc, rest, rfl⟩

theorem readValue_unifyNewlines (ih : ReadAlike fuel) (s : List Char) :
    readValue (fuel + 1) (unifyNewlines s) = unified (readValue (fuel + 1) s) := by
  rcases opensValue_cases s with ⟨t, rfl⟩ | ⟨t, rfl⟩ | ⟨t, rfl⟩ | hscalar
  · rw [readValue_quote, unifyNewlines_cons (by decide), readValue_quote,
      ← unifyNewlines_cons (by decide), readString_unifyNewlines]
    exact unified_then_pure Json.string _
  · rw [readValue_bracket, unifyNewlines_cons (by decide), readValue_bracket,
      skipSpace_unifyNewlines, arrayBody_unifyNewlines ih]
  · rw [readValue_brace, unifyNewlines_cons (by decide), readValue_brace,
      skipSpace_unifyNewlines, objectBody_unifyNewlines ih]
  · rw [readValue_of_not_opensValue hscalar, readValue_of_not_opensValue fun h =>
      hscalar (opensValue_of_unifyNewlines h), readScalar_unifyNewlines]

end

theorem readAlike (fuel : Nat) : ReadAlike fuel := by
  induction fuel with
  | zero => exact ⟨fun _ => rfl, fun _ => rfl, fun _ _ => rfl⟩
  | succ fuel ih =>
    exact ⟨readValue_unifyNewlines ih, readItems_unifyNewlines ih, readFields_unifyNewlines ih⟩

/-- Whatever ends the lines of a text, it is read as the same value or refused at the same place. -/
theorem readAll_unifyNewlines (s : List Char) :
    readAll (unifyNewlines s) = (readAll s).mapError ReadError.unified := by
  have hlength := length_unifyNewlines_le s
  have hspace := length_skipSpace_le (unifyNewlines s)
  have hfuel : readValue (2 * (unifyNewlines s).length + 2) (skipSpace (unifyNewlines s)) =
      unified (readValue (2 * s.length + 2) (skipSpace s)) := by
    rw [← (readAlike _).1, ← skipSpace_unifyNewlines]
    exact (readValue_fuel_irrelevant (by omega) (by omega)).symm
  rw [readAll.eq_def]
  split
  · next hmark =>
    obtain ⟨t, rfl, rfl⟩ := eq_cons_of_unifyNewlines (by decide) hmark
    rw [readAll]
    rfl
  · next hmark =>
    rw [readAll, hfuel]
    · cases readValue (2 * s.length + 2) (skipSpace s) with
      | error e => rfl
      | ok found =>
        obtain ⟨value, after⟩ := found
        simp only [unified_ok, bind, Except.bind, skipSpace_unifyNewlines]
        generalize skipSpace after = inner
        cases inner with
        | nil => rfl
        | cons c t =>
          obtain ⟨rest, hrest⟩ := exists_unifyNewlines_cons c t
          rw [hrest]
          exact congrArg (fun rest => (Except.error ⟨.extraData, rest⟩ : Except ReadError Json))
            hrest.symm
    · exact fun _ h => hmark _ (h ▸ unifyNewlines_cons (by decide) _)

end FlowGraph.Json
