import FlowGraph.Proofs.Json.Scalars

/-! One step of the readers of values. What a reader makes of its text is told by the first
character; the parts that come after it have names of their own. -/

namespace FlowGraph.Json

/-- What follows the bracket that opens an array. -/
def arrayBody (fuel : Nat) (s : List Char) : Except ReadError (Json × List Char) :=
  match s with
  | ']' :: after => .ok (.array [], after)
  | inner => do
    let (items, after) ← readItems fuel inner
    return (.array items, after)

/-- What follows the brace that opens an object. -/
def objectBody (fuel : Nat) (s : List Char) : Except ReadError (Json × List Char) :=
  match s with
  | '\x7d' :: after => .ok (.object [], after)
  | inner => do
    let (fields, after) ← readFields fuel [] inner
    return (.object fields, after)

/-- What follows an item: the next item, or the end of the array. -/
def moreItems (fuel : Nat) (item : Json) (s : List Char) :
    Except ReadError (List Json × List Char) :=
  match s with
  | ']' :: rest => return ([item], rest)
  | ',' :: rest => do
    let (items, after) ← readItems fuel (skipSpace rest)
    return (item :: items, after)
  | rest => throw ⟨.comma, rest⟩

/-- What follows the value of a field: the next field, or the end of the object. -/
def moreFields (fuel : Nat) (fields : List (String × Json)) (s : List Char) :
    Except ReadError (List (String × Json) × List Char) :=
  match s with
  | '\x7d' :: rest => return (fields, rest)
  | ',' :: rest => readFields fuel fields (skipSpace rest)
  | rest => throw ⟨.comma, rest⟩

/-- What follows the key of a field. -/
def fieldBody (fuel : Nat) (fields : List (String × Json)) (key : String) (s : List Char) :
    Except ReadError (List (String × Json) × List Char) :=
  match s with
  | ':' :: rest => do
    let (value, after) ← readValue fuel (skipSpace rest)
    moreFields fuel (put key value fields) (skipSpace after)
  | rest => throw ⟨.colon, rest⟩

variable {s : List Char}

theorem readItems_succ (fuel : Nat) (s : List Char) :
    readItems (fuel + 1) s = (do
      let (item, after) ← readValue fuel s
      moreItems fuel item (skipSpace after)) := rfl

theorem readFields_quote (fuel : Nat) (fields : List (String × Json)) (t : List Char) :
    readFields (fuel + 1) fields ('"' :: t) = (do
      let (key, after) ← readString ('"' :: t) t
      fieldBody fuel fields key (skipSpace after)) := rfl

theorem readFields_of_no_quote (h : ∀ t, s ≠ '"' :: t) (fuel : Nat)
    (fields : List (String × Json)) :
    readFields (fuel + 1) fields s = .error ⟨.propertyName, s⟩ := by
  rw [readFields]
  exact h

theorem readValue_quote (fuel : Nat) (t : List Char) :
    readValue (fuel + 1) ('"' :: t) = (do
      let (text, after) ← readString ('"' :: t) t
      return (.string text, after)) := rfl

theorem readValue_bracket (fuel : Nat) (t : List Char) :
    readValue (fuel + 1) ('[' :: t) = arrayBody fuel (skipSpace t) := rfl

theorem readValue_brace (fuel : Nat) (t : List Char) :
    readValue (fuel + 1) ('\x7b' :: t) = objectBody fuel (skipSpace t) := rfl

/-- Whether a text begins like a string, an array or an object. -/
def opensValue (s : List Char) : Prop :=
  ∃ c ∈ ['"', '[', '\x7b'], ∃ t, s = c :: t

theorem readValue_of_not_opensValue (h : ¬ opensValue s) (fuel : Nat) :
    readValue (fuel + 1) s = readScalar s := by
  rw [readValue]
  · exact fun t hs => h ⟨'"', by decide, t, hs⟩
  · exact fun t hs => h ⟨'[', by decide, t, hs⟩
  · exact fun t hs => h ⟨'\x7b', by decide, t, hs⟩

theorem opensValue_cases (s : List Char) :
    (∃ t, s = '"' :: t) ∨ (∃ t, s = '[' :: t) ∨ (∃ t, s = '\x7b' :: t) ∨ ¬ opensValue s := by
  by_cases h : opensValue s
  · obtain ⟨c, hc, t, hs⟩ := h
    simp only [List.mem_cons, List.not_mem_nil, or_false] at hc
    rcases hc with rfl | rfl | rfl
    · exact .inl ⟨t, hs⟩
    · exact .inr (.inl ⟨t, hs⟩)
    · exact .inr (.inr (.inl ⟨t, hs⟩))
  · exact .inr (.inr (.inr h))

/-- A word or a number is no string, array or object. -/
theorem readValue_of_startsScalar {c : Char} (hc : startsScalar c) (fuel : Nat) (t : List Char) :
    readValue (fuel + 1) (c :: t) = readScalar (c :: t) := by
  refine readValue_of_not_opensValue (fun ⟨d, hd, r, hs⟩ => ?_) fuel
  obtain ⟨rfl, -⟩ := List.cons.inj hs
  simp only [List.mem_cons, List.not_mem_nil, or_false] at hd
  rcases hd with rfl | rfl | rfl <;> exact absurd hc (by decide)

end FlowGraph.Json
