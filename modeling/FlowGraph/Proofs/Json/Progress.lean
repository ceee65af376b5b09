import FlowGraph.Proofs.Json.Steps
import FlowGraph.Proofs.Outcome

/-! Progress. Whatever a reader takes, less of the text is left; so fuel for two steps a character
is enough, and more of it makes no difference. -/

namespace FlowGraph.Json

variable {s rest : List Char}

theorem length_skipSpace_le (s : List Char) : (skipSpace s).length ≤ s.length :=
  (List.dropWhile_suffix isSpace).length_le

theorem readDigits_shorter {digits : List Char} (h : readDigits s = some (digits, rest)) :
    rest.length < s.length := by
  obtain ⟨c, r, rfl, hc⟩ := readDigits_head h
  unfold readDigits splitDigits at h
  split at h
  · cases h
  · obtain ⟨-, rfl⟩ := Prod.mk.inj (Option.some.inj h)
    rw [List.dropWhile_cons, if_pos hc, List.length_cons]
    exact Nat.lt_succ_of_le (List.dropWhile_suffix _).length_le

theorem readWhole_shorter {whole : List Char} (h : readWhole s = some (whole, rest)) :
    rest.length < s.length := by
  unfold readWhole at h
  split at h
  · obtain ⟨-, rfl⟩ := Prod.mk.inj (Option.some.inj h)
    exact Nat.lt_succ_self _
  · exact readDigits_shorter h

theorem readFraction_shorter {places : List Char} (h : readFraction s = some (places, rest)) :
    rest.length < s.length := by
  unfold readFraction at h
  split at h
  · exact Nat.lt_succ_of_lt (readDigits_shorter h)
  · cases h

theorem length_readPowerSign_le (s : List Char) : (readPowerSign s).2.length ≤ s.length := by
  unfold readPowerSign
  split <;> simp

theorem readPower_shorter {power : Int} (h : readPower s = some (power, rest)) :
    rest.length < s.length := by
  unfold readPower at h
  split at h
  · next c t =>
    split at h
    · obtain ⟨⟨digits, after⟩, hdigits, he⟩ := Option.map_eq_some_iff.mp h
      obtain ⟨-, rfl⟩ := Prod.mk.inj he
      have hsign := length_readPowerSign_le t
      exact Nat.lt_succ_of_lt (Nat.lt_of_lt_of_le (readDigits_shorter hdigits) hsign)
    · cases h
  · cases h

theorem length_readSign_le (s : List Char) : (readSign s).2.length ≤ s.length := by
  unfold readSign
  split <;> simp

/-- What is left after a number is what is left after its last part. -/
theorem rest_of_makeNumber {negative : Bool} {whole afterWhole : List Char}
    {fraction : Option (List Char × List Char)} {power : Option (Int × List Char)} {v : Json}
    (h : makeNumber s negative whole afterWhole fraction power = .ok (v, rest)) :
    rest = power.elim (fraction.elim afterWhole (·.2)) (·.2) := by
  unfold makeNumber at h
  split at h
  · split at h
    · cases h
    · obtain ⟨-, rfl⟩ := Prod.mk.inj (Except.ok.inj h)
      rfl
  · obtain ⟨-, rfl⟩ := Prod.mk.inj (Except.ok.inj h)
    rfl

variable {v : Json}

theorem readNumber_shorter (h : readNumber s = .ok (v, rest)) : rest.length < s.length := by
  unfold readNumber at h
  split at h
  · cases h
  · next whole after hwhole =>
    have hsign := length_readSign_le s
    have hwhole := readWhole_shorter hwhole
    have hfraction : ((readFraction after).elim after (·.2)).length ≤ after.length := by
      cases hf : readFraction after with
      | none => exact Nat.le_refl _
      | some found => exact Nat.le_of_lt (readFraction_shorter hf)
    have hrest := rest_of_makeNumber h
    cases hp : readPower ((readFraction after).elim after (·.2)) with
    | none =>
      rw [hrest, hp, Option.elim_none]
      omega
    | some found =>
      have hpower := readPower_shorter hp
      rw [hrest, hp, Option.elim_some]
      omega

theorem readScalar_shorter (h : readScalar s = .ok (v, rest)) : rest.length < s.length := by
  rcases readScalar_cases s with ⟨p, hp, t, rfl⟩ | ⟨-, hnumber⟩
  · obtain ⟨-, rfl⟩ := Prod.mk.inj (Except.ok.inj ((readScalar_word hp t).symm.trans h))
    obtain ⟨c, w, hw, -⟩ := startsScalar_of_word hp
    rw [hw, List.cons_append, List.length_cons]
    exact Nat.lt_succ_of_le (List.suffix_append w t).length_le
  · exact readNumber_shorter (hnumber.symm.trans h)

/-- What a reader leaves, another one leaves that only makes something of its value. -/
theorem exists_of_then_pure {α β : Type} {x : Except ReadError (α × List Char)} {f : α → β} {b : β}
    (h : (do
      let (a, after) ← x
      return (f a, after)) = .ok (b, rest)) : ∃ a, x = .ok (a, rest) := by
  obtain ⟨⟨a, after⟩, hx, h⟩ := Outcome.bind_eq_ok_iff.mp h
  obtain ⟨-, rfl⟩ := Prod.mk.inj (Except.ok.inj h)
  exact ⟨a, hx⟩

theorem readUnits_shorter {opening : List Char} {units : List Nat}
    (h : readUnits opening s = .ok (units, rest)) : rest.length < s.length := by
  fun_induction readUnits opening s generalizing units with
  | case2 after =>
    obtain ⟨-, rfl⟩ := Prod.mk.inj (Except.ok.inj h)
    exact Nat.lt_succ_self _
  | case4 a b c d e more n hn ih =>
    obtain ⟨others, hread⟩ := exists_of_then_pure h
    have hshorter := ih hread
    simp only [List.length_cons] at hshorter ⊢
    omega
  | case7 e more _ _ c hc ih =>
    obtain ⟨others, hread⟩ := exists_of_then_pure h
    exact Nat.lt_succ_of_lt (Nat.lt_succ_of_lt (ih hread))
  | case10 c t _ _ hc ih =>
    obtain ⟨others, hread⟩ := exists_of_then_pure h
    exact Nat.lt_succ_of_lt (ih hread)
  | _ => cases h

theorem readString_shorter {opening : List Char} {text : String}
    (h : readString opening s = .ok (text, rest)) : rest.length < s.length := by
  unfold readString at h
  obtain ⟨units, hread⟩ :=
    exists_of_then_pure (f := fun units => String.ofList (joinSurrogates units)) h
  exact readUnits_shorter hread

/-- What the readers of values leave with given fuel. -/
def Progresses (fuel : Nat) : Prop :=
  (∀ s v rest, readValue fuel s = .ok (v, rest) → rest.length < s.length) ∧
  (∀ s items rest, readItems fuel s = .ok (items, rest) → rest.length < s.length) ∧
  ∀ before s fields rest, readFields fuel before s = .ok (fields, rest) → rest.length < s.length

theorem moreItems_shorter {fuel : Nat} (ih : Progresses fuel) {item : Json} {items : List Json}
    (h : moreItems fuel item s = .ok (items, rest)) : rest.length < s.length := by
  unfold moreItems at h
  split at h
  · obtain ⟨-, rfl⟩ := Prod.mk.inj (Except.ok.inj h)
    exact Nat.lt_succ_self _
  · next t =>
    obtain ⟨others, hothers⟩ := exists_of_then_pure h
    exact Nat.lt_succ_of_lt
      (Nat.lt_of_lt_of_le (ih.2.1 _ _ _ hothers) (length_skipSpace_le t))
  · cases h

theorem moreFields_shorter {fuel : Nat} (ih : Progresses fuel)
    {before fields : List (String × Json)}
    (h : moreFields fuel before s = .ok (fields, rest)) : rest.length < s.length := by
  unfold moreFields at h
  split at h
  · obtain ⟨-, rfl⟩ := Prod.mk.inj (Except.ok.inj h)
    exact Nat.lt_succ_self _
  · next t =>
    exact Nat.lt_succ_of_lt (Nat.lt_of_lt_of_le (ih.2.2 _ _ _ _ h) (length_skipSpace_le t))
  · cases h

theorem fieldBody_shorter {fuel : Nat} (ih : Progresses fuel)
    {before fields : List (String × Json)} {key : String}
    (h : fieldBody fuel before key s = .ok (fields, rest)) : rest.length < s.length := by
  unfold fieldBody at h
  split at h
  · next t =>
    obtain ⟨⟨value, after⟩, hvalue, h⟩ := Outcome.bind_eq_ok_iff.mp h
    have hspace := length_skipSpace_le t
    have hvalue := ih.1 _ _ _ hvalue
    have hspace' := length_skipSpace_le after
    have hrest : rest.length < (skipSpace after).length := moreFields_shorter ih h
    rw [List.length_cons]
    omega
  · cases h

theorem arrayBody_shorter {fuel : Nat} (ih : Progresses fuel)
    (h : arrayBody fuel s = .ok (v, rest)) : rest.length < s.length := by
  unfold arrayBody at h
  split at h
  · obtain ⟨-, rfl⟩ := Prod.mk.inj (Except.ok.inj h)
    exact Nat.lt_succ_self _
  · obtain ⟨items, hread⟩ := exists_of_then_pure h
    exact ih.2.1 _ _ _ hread

theorem objectBody_shorter {fuel : Nat} (ih : Progresses fuel)
    (h : objectBody fuel s = .ok (v, rest)) : rest.length < s.length := by
  unfold objectBody at h
  split at h
  · obtain ⟨-, rfl⟩ := Prod.mk.inj (Except.ok.inj h)
    exact Nat.lt_succ_self _
  · obtain ⟨fields, hread⟩ := exists_of_then_pure h
    exact ih.2.2 _ _ _ _ hread

theorem readItems_shorter_succ {fuel : Nat} (ih : Progresses fuel) {items : List Json}
    (h : readItems (fuel + 1) s = .ok (items, rest)) : rest.length < s.length := by
  rw [readItems_succ] at h
  obtain ⟨⟨item, after⟩, hitem, h⟩ := Outcome.bind_eq_ok_iff.mp h
  have hafter := ih.1 _ _ _ hitem
  have hspace := length_skipSpace_le after
  have hrest : rest.length < (skipSpace after).length := moreItems_shorter ih h
  omega

theorem readFields_shorter_succ {fuel : Nat} (ih : Progresses fuel)
    {before fields : List (String × Json)}
    (h : readFields (fuel + 1) before s = .ok (fields, rest)) : rest.length < s.length := by
  by_cases hquote : ∃ t, s = '"' :: t
  · obtain ⟨t, rfl⟩ := hquote
    rw [readFields_quote] at h
    obtain ⟨⟨key, after⟩, hkey, h⟩ := Outcome.bind_eq_ok_iff.mp h
    have hkey := readString_shorter hkey
    have hspace := length_skipSpace_le after
    have hrest : rest.length < (skipSpace after).length := fieldBody_shorter ih h
    rw [List.length_cons]
    omega
  · rw [readFields_of_no_quote (not_exists.mp hquote)] at h
    cases h

theorem readValue_shorter_succ {fuel : Nat} (ih : Progresses fuel)
    (h : readValue (fuel + 1) s = .ok (v, rest)) : rest.length < s.length := by
  rcases opensValue_cases s with ⟨t, rfl⟩ | ⟨t, rfl⟩ | ⟨t, rfl⟩ | hscalar
  · rw [readValue_quote] at h
    obtain ⟨text, hread⟩ := exists_of_then_pure h
    exact Nat.lt_succ_of_lt (readString_shorter hread)
  · rw [readValue_bracket] at h
    exact Nat.lt_succ_of_lt (Nat.lt_of_lt_of_le (arrayBody_shorter ih h) (length_skipSpace_le t))
  · rw [readValue_brace] at h
    exact Nat.lt_succ_of_lt (Nat.lt_of_lt_of_le (objectBody_shorter ih h) (length_skipSpace_le t))
  · rw [readValue_of_not_opensValue hscalar] at h
    exact readScalar_shorter h

theorem progresses (fuel : Nat) : Progresses fuel := by
  induction fuel with
  | zero =>
    refine ⟨fun s v rest h => ?_, fun s items rest h => ?_, fun before s fields rest h => ?_⟩ <;>
      cases h
  | succ fuel ih =>
    exact ⟨fun _ _ _ h => readValue_shorter_succ ih h, fun _ _ _ h => readItems_shorter_succ ih h,
      fun _ _ _ _ h => readFields_shorter_succ ih h⟩

/-! Fuel. -/

/-- With given fuel the readers of values come to an end by themselves. -/
def Suffices (fuel : Nat) : Prop :=
  (∀ s : List Char, 2 * s.length + 1 ≤ fuel → readValue (fuel + 1) s = readValue fuel s) ∧
  (∀ s : List Char, 2 * s.length + 2 ≤ fuel → readItems (fuel + 1) s = readItems fuel s) ∧
  ∀ (before) (s : List Char), 2 * s.length + 2 ≤ fuel →
    readFields (fuel + 1) before s = readFields fuel before s

theorem arrayBody_succ_eq {fuel : Nat} (ih : Suffices fuel) (h : 2 * s.length + 2 ≤ fuel) :
    arrayBody (fuel + 1) s = arrayBody fuel s := by
  unfold arrayBody
  split
  · rfl
  · rw [ih.2.1 s h]

theorem objectBody_succ_eq {fuel : Nat} (ih : Suffices fuel) (h : 2 * s.length + 2 ≤ fuel) :
    objectBody (fuel + 1) s = objectBody fuel s := by
  unfold objectBody
  split
  · rfl
  · rw [ih.2.2 [] s h]

theorem moreItems_succ_eq {fuel : Nat} (ih : Suffices fuel) (item : Json)
    (h : 2 * s.length ≤ fuel) : moreItems (fuel + 1) item s = moreItems fuel item s := by
  unfold moreItems
  split
  · rfl
  · next t =>
    have hspace := length_skipSpace_le t
    rw [List.length_cons] at h
    rw [ih.2.1 (skipSpace t) (by omega)]
  · rfl

theorem moreFields_succ_eq {fuel : Nat} (ih : Suffices fuel) (before : List (String × Json))
    (h : 2 * s.length ≤ fuel) : moreFields (fuel + 1) before s = moreFields fuel before s := by
  unfold moreFields
  split
  · rfl
  · next t =>
    have hspace := length_skipSpace_le t
    rw [List.length_cons] at h
    exact ih.2.2 before (skipSpace t) (by omega)
  · rfl

theorem fieldBody_succ_eq {fuel : Nat} (ih : Suffices fuel) (before : List (String × Json))
    (key : String) (h : 2 * s.length ≤ fuel) :
    fieldBody (fuel + 1) before key s = fieldBody fuel before key s := by
  unfold fieldBody
  split
  · next t =>
    have hspace := length_skipSpace_le t
    rw [List.length_cons] at h
    rw [ih.1 (skipSpace t) (by omega)]
    cases hvalue : readValue fuel (skipSpace t) with
    | error e => rfl
    | ok found =>
      obtain ⟨value, after⟩ := found
      have hvalue := (progresses fuel).1 _ _ _ hvalue
      have hspace' := length_skipSpace_le after
      exact moreFields_succ_eq ih (s := skipSpace after) _ (by omega)
  · rfl

theorem readItems_succ_eq {fuel : Nat} (ih : Suffices fuel) (h : 2 * s.length + 2 ≤ fuel + 1) :
    readItems (fuel + 2) s = readItems (fuel + 1) s := by
  rw [readItems_succ, readItems_succ, ih.1 s (by omega)]
  cases hitem : readValue fuel s with
  | error e => rfl
  | ok found =>
    obtain ⟨item, after⟩ := found
    have hafter := (progresses fuel).1 _ _ _ hitem
    have hspace := length_skipSpace_le after
    exact moreItems_succ_eq ih (s := skipSpace after) item (by omega)

theorem readFields_succ_eq {fuel : Nat} (ih : Suffices fuel) (before : List (String × Json))
    (h : 2 * s.length + 2 ≤ fuel + 1) :
    readFields (fuel + 2) before s = readFields (fuel + 1) before s := by
  by_cases hquote : ∃ t, s = '"' :: t
  · obtain ⟨t, rfl⟩ := hquote
    rw [readFields_quote, readFields_quote]
    cases hkey : readString ('"' :: t) t with
    | error e => rfl
    | ok found =>
      obtain ⟨key, after⟩ := found
      have hkey := readString_shorter hkey
      have hspace := length_skipSpace_le after
      rw [List.length_cons] at h
      exact fieldBody_succ_eq ih (s := skipSpace after) before key (by omega)
  · rw [readFields_of_no_quote (not_exists.mp hquote),
      readFields_of_no_quote (not_exists.mp hquote)]

theorem readValue_succ_eq {fuel : Nat} (ih : Suffices fuel) (h : 2 * s.length + 1 ≤ fuel + 1) :
    readValue (fuel + 2) s = readValue (fuel + 1) s := by
  rcases opensValue_cases s with ⟨t, rfl⟩ | ⟨t, rfl⟩ | ⟨t, rfl⟩ | hscalar
  · rfl
  · have hspace := length_skipSpace_le t
    rw [List.length_cons] at h
    rw [readValue_bracket, readValue_bracket, arrayBody_succ_eq ih (by omega)]
  · have hspace := length_skipSpace_le t
    rw [List.length_cons] at h
    rw [readValue_brace, readValue_brace, objectBody_succ_eq ih (by omega)]
  · rw [readValue_of_not_opensValue hscalar, readValue_of_not_opensValue hscalar]

theorem suffices_of_fuel (fuel : Nat) : Suffices fuel := by
  induction fuel with
  | zero => exact ⟨fun s h => by omega, fun s h => by omega, fun before s h => by omega⟩
  | succ fuel ih =>
    exact ⟨fun _ h => readValue_succ_eq ih h, fun _ h => readItems_succ_eq ih h,
      fun before _ h => readFields_succ_eq ih before h⟩

/-- Two amounts of fuel that are both enough make no difference. -/
theorem readValue_fuel_irrelevant {fuel fuel' : Nat} (h : 2 * s.length + 1 ≤ fuel)
    (hle : fuel ≤ fuel') : readValue fuel' s = readValue fuel s := by
  induction hle with
  | refl => rfl
  | step hle ih => rw [(suffices_of_fuel _).1 s (Nat.le_trans h hle), ih]

end FlowGraph.Json
