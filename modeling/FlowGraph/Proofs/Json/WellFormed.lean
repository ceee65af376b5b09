import FlowGraph.Json.Equality
import FlowGraph.Proofs.Json.RoundTrip
import FlowGraph.Proofs.Outcome
import Mathlib.Data.List.Nodup
import Mathlib.Data.List.TakeWhile

/-! What the reader makes of a text can be written again. The keys of its objects differ, and its
integers are not too long; so only the floating-point numbers in it have to be read back. -/

namespace FlowGraph.Json

/-- Values that a text can stand for: the keys of an object differ, and no integer is too long. -/
inductive WellFormed : Json → Prop
  | null : WellFormed .null
  | bool (b : Bool) : WellFormed (.bool b)
  | int (n : Int) (h : (Text.decimalDigits n.natAbs).length ≤ digitLimit) : WellFormed (.int n)
  | float (x : Binary64) : WellFormed (.float x)
  | string (s : String) : WellFormed (.string s)
  | array (items : List Json) (h : ∀ v ∈ items, WellFormed v) : WellFormed (.array items)
  | object (fields : List (String × Json)) (hk : (fields.map (·.1)).Nodup)
    (h : ∀ f ∈ fields, WellFormed f.2) : WellFormed (.object fields)

mutual

def floats : Json → List Binary64
  | .float x => [x]
  | .array items => floatsOfItems items
  | .object fields => floatsOfFields fields
  | _ => []

def floatsOfItems : List Json → List Binary64
  | [] => []
  | v :: items => v.floats ++ floatsOfItems items

def floatsOfFields : List (String × Json) → List Binary64
  | [] => []
  | (_, v) :: fields => v.floats ++ floatsOfFields fields

end

/-- The digits of a number are read as that number again. -/
def Legible (x : Binary64) : Prop :=
  readScalar (x.render names) = .ok (.float x, [])

instance (x : Binary64) : Decidable (Legible x) :=
  inferInstanceAs (Decidable (_ = _))

theorem floatsOfItems_eq (items : List Json) : floatsOfItems items = items.flatMap floats := by
  induction items with
  | nil => rfl
  | cons v items ih => rw [floatsOfItems, ih, List.flatMap_cons]

theorem floatsOfFields_eq (fields : List (String × Json)) :
    floatsOfFields fields = fields.flatMap (·.2.floats) := by
  induction fields with
  | nil => rfl
  | cons field fields ih => rw [floatsOfFields, ih, List.flatMap_cons]

theorem readable_of_wellFormed {v : Json} (h : v.WellFormed) (hf : ∀ x ∈ v.floats, Legible x) :
    v.Readable := by
  induction h with
  | null => exact .null
  | bool b => exact .bool b
  | int n hn => exact .int n hn
  | float x => exact .float x (hf x (by simp [floats]))
  | string s => exact .string s
  | array items _ ih =>
    rw [floats, floatsOfItems_eq] at hf
    exact .array items fun v hv => ih v hv fun x hx => hf x (List.mem_flatMap.mpr ⟨v, hv, hx⟩)
  | object fields hk _ ih =>
    rw [floats, floatsOfFields_eq] at hf
    exact .object fields hk fun f hm => ih f hm fun x hx => hf x (List.mem_flatMap.mpr ⟨f, hm, hx⟩)

theorem mem_of_lookup {key : String} {fields : List (String × Json)} {v : Json}
    (h : lookup key fields = some v) : (key, v) ∈ fields := by
  induction fields with
  | nil => cases h
  | cons field fields ih =>
    obtain ⟨k, w⟩ := field
    rw [lookup] at h
    split at h
    · next hk =>
      rw [hk, Option.some.inj h]
      exact List.mem_cons_self
    · exact List.mem_cons_of_mem _ (ih h)

theorem WellFormed.lookup {key : String} {fields : List (String × Json)} {v : Json}
    (hw : (Json.object fields).WellFormed) (h : Json.lookup key fields = some v) :
    v.WellFormed := by
  cases hw with
  | object _ _ hf => exact hf (key, v) (mem_of_lookup h)

theorem mem_put {key : String} {value : Json} {fields : List (String × Json)}
    {f : String × Json} (h : f ∈ put key value fields) : f = (key, value) ∨ f ∈ fields := by
  induction fields with
  | nil => exact .inl (List.mem_singleton.mp h)
  | cons field fields ih =>
    obtain ⟨k, w⟩ := field
    rw [put] at h
    split at h
    · next hk =>
      rcases List.mem_cons.mp h with rfl | h
      · exact .inl (by rw [hk])
      · exact .inr (List.mem_cons_of_mem _ h)
    · rcases List.mem_cons.mp h with rfl | h
      · exact .inr List.mem_cons_self
      · exact (ih h).imp_right (List.mem_cons_of_mem _)

theorem map_fst_put_of_mem {key : String} {fields : List (String × Json)}
    (h : key ∈ fields.map (·.1)) (value : Json) :
    (put key value fields).map (·.1) = fields.map (·.1) := by
  induction fields with
  | nil => cases h
  | cons field fields ih =>
    obtain ⟨k, w⟩ := field
    by_cases hk : k = key
    · simp [put, hk]
    · have hrest : key ∈ fields.map (·.1) := by simpa [Ne.symm hk] using h
      simp only [put, hk, if_false, List.map_cons, ih hrest]

theorem WellFormed.put {key : String} {value : Json} {fields : List (String × Json)}
    (hf : (Json.object fields).WellFormed) (hv : value.WellFormed) :
    (Json.object (put key value fields)).WellFormed := by
  cases hf with
  | object _ hk hf =>
    refine .object _ ?_ fun f hm => ?_
    · by_cases hmem : key ∈ fields.map (·.1)
      · rw [map_fst_put_of_mem hmem]
        exact hk
      · rw [put_of_not_mem hmem, List.map_append, List.map_singleton, ← List.concat_eq_append]
        exact hk.concat hmem
    · rcases mem_put hm with rfl | hm
      · exact hv
      · exact hf f hm

/-! The readers give well-formed values. -/

variable {s rest : List Char} {v : Json}

theorem digits_of_readWhole {whole : List Char} (h : readWhole s = some (whole, rest)) :
    whole ≠ [] ∧ ∀ d ∈ whole, Text.isDigit d = true := by
  unfold readWhole at h
  split at h
  · obtain ⟨rfl, -⟩ := Prod.mk.inj (Option.some.inj h)
    simp [Text.isDigit]
  · unfold readDigits at h
    split at h
    · cases h
    · next hne =>
      obtain ⟨rfl, -⟩ := Prod.mk.inj (Option.some.inj h)
      refine ⟨fun hnil => hne _ (Prod.ext hnil rfl), fun d hd => ?_⟩
      simpa using List.mem_takeWhile_imp hd

theorem natAbs_applySign (negative : Bool) (n : Nat) : (applySign negative n).natAbs = n := by
  cases negative <;> simp [applySign]

theorem wellFormed_of_readNumber (h : readNumber s = .ok (v, rest)) : v.WellFormed := by
  unfold readNumber at h
  split at h
  · cases h
  · next whole after hwhole =>
    obtain ⟨hne, hdigits⟩ := digits_of_readWhole hwhole
    dsimp only at h
    unfold makeNumber at h
    split at h
    · split at h
      · cases h
      · next hlimit =>
        obtain ⟨rfl, -⟩ := Prod.mk.inj (Except.ok.inj h)
        refine .int _ ?_
        rw [natAbs_applySign]
        have hlength := Text.length_decimalDigits_decimalValue hne hdigits
        omega
    · obtain ⟨rfl, -⟩ := Prod.mk.inj (Except.ok.inj h)
      exact .float _

theorem wellFormed_of_readScalar (h : readScalar s = .ok (v, rest)) : v.WellFormed := by
  rcases readScalar_cases s with ⟨p, hp, t, rfl⟩ | ⟨-, hnumber⟩
  · obtain ⟨rfl, -⟩ := Prod.mk.inj (Except.ok.inj ((readScalar_word hp t).symm.trans h))
    simp only [words, List.mem_cons, List.not_mem_nil, or_false] at hp
    rcases hp with rfl | rfl | rfl | rfl | rfl | rfl <;> constructor
  · exact wellFormed_of_readNumber (hnumber.symm.trans h)

/-- With given fuel the readers of values give well-formed ones. -/
def GivesWellFormed (fuel : Nat) : Prop :=
  (∀ s v rest, readValue fuel s = .ok (v, rest) → v.WellFormed) ∧
  (∀ s items rest, readItems fuel s = .ok (items, rest) → ∀ v ∈ items, v.WellFormed) ∧
  ∀ before s fields rest, readFields fuel before s = .ok (fields, rest) →
    (Json.object before).WellFormed → (Json.object fields).WellFormed

section

variable {fuel : Nat} {before fields : List (String × Json)}

theorem wellFormed_of_moreItems (ih : GivesWellFormed fuel) {item : Json} {items : List Json}
    (h : moreItems fuel item s = .ok (items, rest)) (hitem : item.WellFormed) :
    ∀ v ∈ items, v.WellFormed := by
  unfold moreItems at h
  split at h
  · obtain ⟨rfl, -⟩ := Prod.mk.inj (Except.ok.inj h)
    simpa using hitem
  · obtain ⟨⟨others, after⟩, hothers, h⟩ := Outcome.bind_eq_ok_iff.mp h
    obtain ⟨rfl, -⟩ := Prod.mk.inj (Except.ok.inj h)
    rw [List.forall_mem_cons]
    exact ⟨hitem, ih.2.1 _ others after hothers⟩
  · cases h

theorem wellFormed_of_moreFields (ih : GivesWellFormed fuel)
    (h : moreFields fuel before s = .ok (fields, rest))
    (hb : (Json.object before).WellFormed) : (Json.object fields).WellFormed := by
  unfold moreFields at h
  split at h
  · obtain ⟨rfl, -⟩ := Prod.mk.inj (Except.ok.inj h)
    exact hb
  · exact ih.2.2 _ _ fields rest h hb
  · cases h

theorem wellFormed_of_fieldBody (ih : GivesWellFormed fuel) {key : String}
    (h : fieldBody fuel before key s = .ok (fields, rest))
    (hb : (Json.object before).WellFormed) : (Json.object fields).WellFormed := by
  unfold fieldBody at h
  split at h
  · obtain ⟨⟨value, after⟩, hread, h⟩ := Outcome.bind_eq_ok_iff.mp h
    exact wellFormed_of_moreFields ih h (hb.put (ih.1 _ value after hread))
  · cases h

theorem wellFormed_of_arrayBody (ih : GivesWellFormed fuel)
    (h : arrayBody fuel s = .ok (v, rest)) : v.WellFormed := by
  unfold arrayBody at h
  split at h
  · obtain ⟨rfl, -⟩ := Prod.mk.inj (Except.ok.inj h)
    exact .array [] (by simp)
  · obtain ⟨⟨items, after⟩, hread, h⟩ := Outcome.bind_eq_ok_iff.mp h
    obtain ⟨rfl, -⟩ := Prod.mk.inj (Except.ok.inj h)
    exact .array items (ih.2.1 _ items after hread)

theorem wellFormed_of_objectBody (ih : GivesWellFormed fuel)
    (h : objectBody fuel s = .ok (v, rest)) : v.WellFormed := by
  have hempty : (Json.object []).WellFormed := .object [] List.nodup_nil (by simp)
  unfold objectBody at h
  split at h
  · obtain ⟨rfl, -⟩ := Prod.mk.inj (Except.ok.inj h)
    exact hempty
  · obtain ⟨⟨fields, after⟩, hread, h⟩ := Outcome.bind_eq_ok_iff.mp h
    obtain ⟨rfl, -⟩ := Prod.mk.inj (Except.ok.inj h)
    exact ih.2.2 _ _ fields after hread hempty

theorem wellFormed_of_readItems_succ (ih : GivesWellFormed fuel) {items : List Json}
    (h : readItems (fuel + 1) s = .ok (items, rest)) : ∀ v ∈ items, v.WellFormed := by
  rw [readItems_succ] at h
  obtain ⟨⟨item, after⟩, hitem, h⟩ := Outcome.bind_eq_ok_iff.mp h
  exact wellFormed_of_moreItems ih h (ih.1 s item after hitem)

theorem wellFormed_of_readFields_succ (ih : GivesWellFormed fuel)
    (h : readFields (fuel + 1) before s = .ok (fields, rest))
    (hb : (Json.object before).WellFormed) : (Json.object fields).WellFormed := by
  by_cases hquote : ∃ t, s = '"' :: t
  · obtain ⟨t, rfl⟩ := hquote
    rw [readFields_quote] at h
    obtain ⟨⟨key, after⟩, -, h⟩ := Outcome.bind_eq_ok_iff.mp h
    exact wellFormed_of_fieldBody ih h hb
  · rw [readFields_of_no_quote (not_exists.mp hquote)] at h
    cases h

theorem wellFormed_of_readValue_succ (ih : GivesWellFormed fuel)
    (h : readValue (fuel + 1) s = .ok (v, rest)) : v.WellFormed := by
  rcases opensValue_cases s with ⟨t, rfl⟩ | ⟨t, rfl⟩ | ⟨t, rfl⟩ | hscalar
  · rw [readValue_quote] at h
    obtain ⟨⟨text, after⟩, -, h⟩ := Outcome.bind_eq_ok_iff.mp h
    obtain ⟨rfl, -⟩ := Prod.mk.inj (Except.ok.inj h)
    exact .string text
  · exact wellFormed_of_arrayBody ih h
  · exact wellFormed_of_objectBody ih h
  · rw [readValue_of_not_opensValue hscalar] at h
    exact wellFormed_of_readScalar h

end

theorem givesWellFormed (fuel : Nat) : GivesWellFormed fuel := by
  induction fuel with
  | zero =>
    refine ⟨fun s v rest h => ?_, fun s items rest h => ?_, fun before s fields rest h => ?_⟩ <;>
      cases h
  | succ fuel ih =>
    exact ⟨fun _ _ _ h => wellFormed_of_readValue_succ ih h,
      fun _ _ _ h => wellFormed_of_readItems_succ ih h,
      fun _ _ _ _ h => wellFormed_of_readFields_succ ih h⟩

theorem wellFormed_of_readAll (h : readAll s = .ok v) : v.WellFormed := by
  unfold readAll at h
  split at h
  · cases h
  · obtain ⟨⟨value, after⟩, hread, h⟩ := Outcome.bind_eq_ok_iff.mp h
    dsimp only at h
    split at h
    · obtain rfl := Except.ok.inj h
      exact (givesWellFormed _).1 _ value after hread
    · cases h

end FlowGraph.Json
