import FlowGraph.Proofs.Json.Steps
import FlowGraph.Proofs.Json.Strings

/-! Values that are written are read as the same values, in every layout. The readers are followed
item by item; the length of what was written bounds the fuel that they need. -/

namespace FlowGraph.Json

/-- Values that survive being written: the keys of an object differ, integers are not too long,
and each floating-point number is read back from its digits. -/
inductive Readable : Json → Prop
  | null : Readable .null
  | bool (b : Bool) : Readable (.bool b)
  | int (n : Int) (h : (Text.decimalDigits n.natAbs).length ≤ digitLimit) : Readable (.int n)
  | float (x : Binary64) (h : readScalar (x.render names) = .ok (.float x, [])) :
    Readable (.float x)
  | string (s : String) : Readable (.string s)
  | array (items : List Json) (h : ∀ v ∈ items, Readable v) : Readable (.array items)
  | object (fields : List (String × Json)) (hk : (fields.map (·.1)).Nodup)
    (h : ∀ f ∈ fields, Readable f.2) : Readable (.object fields)

/-- Whether a value begins with a character. -/
def startsValue (c : Char) : Prop :=
  startsScalar c ∨ c ∈ ['"', '[', '\x7b']

instance (c : Char) : Decidable (startsValue c) :=
  inferInstanceAs (Decidable (_ ∨ _))

theorem isSpace_of_startsValue {c : Char} (h : startsValue c) : isSpace c = false := by
  cases hc : isSpace c with
  | false => rfl
  | true =>
    simp only [isSpace, Bool.or_eq_true, beq_iff_eq] at hc
    rcases hc with ((rfl | rfl) | rfl) | rfl <;> exact absurd h (by decide)

theorem skipSpace_of_startsValue {c : Char} (h : startsValue c) (t : List Char) :
    skipSpace (c :: t) = c :: t := by
  simp [skipSpace, isSpace_of_startsValue h]

theorem write_head (layout : Layout) (depth : Nat) {v : Json} (h : v.Readable) :
    ∃ c t, write layout depth v = c :: t ∧ startsValue c := by
  cases h with
  | null => exact ⟨_, _, rfl, by decide⟩
  | bool b => cases b <;> exact ⟨_, _, rfl, by decide⟩
  | int n hn =>
    obtain ⟨c, t, hc, h⟩ := readScalar_head (readScalar_signedDigits hn)
    exact ⟨c, t, by rw [write, hc], .inl h⟩
  | float x hx =>
    obtain ⟨c, t, hc, h⟩ := readScalar_head hx
    exact ⟨c, t, hc, .inl h⟩
  | string s => exact ⟨_, _, rfl, by decide⟩
  | array items hi => cases items <;> exact ⟨_, _, rfl, by decide⟩
  | object fields hk hf => cases fields <;> exact ⟨_, _, rfl, by decide⟩

theorem skipSpace_write (layout : Layout) (depth : Nat) {v : Json} (h : v.Readable)
    (rest : List Char) :
    skipSpace (write layout depth v ++ rest) = write layout depth v ++ rest := by
  obtain ⟨c, t, hw, hc⟩ := write_head layout depth h
  rw [hw, List.cons_append, skipSpace_of_startsValue hc]

theorem skipSpace_lineBreak (layout : Layout) (depth : Nat) (rest : List Char) :
    skipSpace (layout.lineBreak depth ++ rest) = skipSpace rest := by
  cases layout with
  | oneLine => rfl
  | indented width =>
    have hspace : ∀ c ∈ '\n' :: List.replicate (width * depth) ' ', isSpace c = true := by
      intro c hc
      rcases List.mem_cons.mp hc with rfl | hc
      · rfl
      · rw [List.eq_of_mem_replicate hc]
        rfl
    exact List.dropWhile_append_of_pos hspace

theorem comma_append (layout : Layout) (depth : Nat) (rest : List Char) :
    ∃ t, layout.comma depth ++ rest = ',' :: t ∧ skipSpace t = skipSpace rest := by
  cases layout with
  | oneLine => exact ⟨' ' :: rest, rfl, rfl⟩
  | indented width => exact ⟨_, rfl, skipSpace_lineBreak (.indented width) depth rest⟩

theorem endsNumber_of_ends {c : Char} (hc : c ∈ [',', ']', '\x7d', '\n']) (rest : List Char) :
    EndsNumber (c :: rest) := by
  intro d t h
  obtain ⟨rfl, -⟩ := List.cons.inj h
  simp only [List.mem_cons, List.not_mem_nil, or_false] at hc
  rcases hc with rfl | rfl | rfl | rfl <;> decide

theorem endsNumber_lineBreak (layout : Layout) (depth : Nat) {rest : List Char}
    (h : EndsNumber rest) : EndsNumber (layout.lineBreak depth ++ rest) := by
  cases layout with
  | oneLine => exact h
  | indented width => exact endsNumber_of_ends (by decide) _

theorem endsNumber_comma (layout : Layout) (depth : Nat) (rest : List Char) :
    EndsNumber (layout.comma depth ++ rest) := by
  obtain ⟨t, h, -⟩ := comma_append layout depth rest
  rw [h]
  exact endsNumber_of_ends (by decide) t

/-- A value is read back from its text, and the text after it is left. -/
def ReadsBack (layout : Layout) (v : Json) : Prop :=
  ∀ depth fuel rest, EndsNumber rest → (write layout depth v).length ≤ fuel →
    readValue fuel (write layout depth v ++ rest) = .ok (v, rest)

section

variable {layout : Layout}

theorem write_length_pos (layout : Layout) (depth : Nat) {v : Json} (h : v.Readable) :
    0 < (write layout depth v).length := by
  obtain ⟨c, t, hw, -⟩ := write_head layout depth h
  rw [hw]
  exact Nat.succ_pos t.length

theorem readItems_write (depth outer : Nat) (rest : List Char) {item : Json} {items : List Json}
    (hr : ∀ v ∈ item :: items, v.Readable) (hb : ∀ v ∈ item :: items, ReadsBack layout v)
    (fuel : Nat) (hfuel : (write layout depth item).length +
      (writeItems layout depth items).length < fuel) :
    readItems fuel (write layout depth item ++ (writeItems layout depth items ++
      (layout.lineBreak outer ++ ']' :: rest))) = .ok (item :: items, rest) := by
  induction items generalizing item fuel with
  | nil =>
    obtain ⟨fuel, rfl⟩ := Nat.exists_eq_add_one_of_ne_zero (Nat.ne_of_gt (Nat.zero_lt_of_lt hfuel))
    have hend : EndsNumber (layout.lineBreak outer ++ ']' :: rest) :=
      endsNumber_lineBreak layout outer (endsNumber_of_ends (by decide) rest)
    have hitem := hb item List.mem_cons_self depth fuel _ hend (by omega)
    have hclose : skipSpace (layout.lineBreak outer ++ ']' :: rest) = ']' :: rest := by
      rw [skipSpace_lineBreak]
      rfl
    rw [writeItems, List.nil_append, readItems_succ, hitem]
    simp only [Bind.bind, Except.bind, hclose]
    rfl
  | cons next items ih =>
    obtain ⟨fuel, rfl⟩ := Nat.exists_eq_add_one_of_ne_zero (Nat.ne_of_gt (Nat.zero_lt_of_lt hfuel))
    simp only [writeItems, List.length_append, List.append_assoc] at hfuel ⊢
    have hitem := hb item List.mem_cons_self depth fuel _ (endsNumber_comma layout depth
      (write layout depth next ++ (writeItems layout depth items ++
        (layout.lineBreak outer ++ ']' :: rest)))) (by omega)
    obtain ⟨t, hcomma, ht⟩ := comma_append layout depth (write layout depth next ++
      (writeItems layout depth items ++ (layout.lineBreak outer ++ ']' :: rest)))
    have hpos := write_length_pos layout depth (hr item List.mem_cons_self)
    have hnext := hr next (by simp)
    rw [skipSpace_write layout depth hnext] at ht
    have hrest := ih (fun v hv => hr v (List.mem_cons_of_mem item hv))
      (fun v hv => hb v (List.mem_cons_of_mem item hv)) fuel (by omega)
    have hskip : skipSpace (',' :: t) = ',' :: t := rfl
    rw [hcomma] at hitem ⊢
    rw [readItems_succ, hitem]
    simp only [Bind.bind, Except.bind, hskip]
    rw [moreItems, ht, hrest]
    rfl

theorem skipSpace_writeString (s : String) (rest : List Char) :
    skipSpace (writeString s ++ rest) = writeString s ++ rest :=
  rfl

/-- A field is read, and put to those before it, of which none has its key. -/
theorem readField_write (depth fuel : Nat) {key : String} {v : Json}
    {before : List (String × Json)} (hk : key ∉ before.map (·.1)) (hv : v.Readable)
    (hb : ReadsBack layout v) (hfuel : (write layout depth v).length ≤ fuel) {rest : List Char}
    (hend : EndsNumber rest) :
    readFields (fuel + 1) before (writeString key ++ ':' :: ' ' :: (write layout depth v ++ rest)) =
      moreFields fuel (before ++ [(key, v)]) (skipSpace rest) := by
  have hcolon (t : List Char) : skipSpace (':' :: t) = ':' :: t := rfl
  have hspace : skipSpace (' ' :: (write layout depth v ++ rest)) =
      write layout depth v ++ rest := skipSpace_write layout depth hv rest
  simp only [writeString, List.cons_append, List.append_assoc, List.nil_append, readFields_quote,
    readString_writeString]
  simp only [Bind.bind, Except.bind, hcolon]
  rw [fieldBody, hspace, hb depth fuel rest hend hfuel, ← put_of_not_mem hk]
  rfl

theorem not_mem_keys_of_nodup {key : String} {v : Json} {before fields : List (String × Json)}
    (hk : ((before ++ (key, v) :: fields).map (·.1)).Nodup) : key ∉ before.map (·.1) := by
  rw [List.map_append, List.nodup_append] at hk
  exact fun hm => hk.2.2 key hm key (by simp) rfl

/-- The fields of an object are read up to the closing brace. -/
theorem readFields_write (depth outer : Nat) (rest : List Char) {key : String} {v : Json}
    {fields before : List (String × Json)}
    (hk : ((before ++ (key, v) :: fields).map (·.1)).Nodup)
    (hr : ∀ f ∈ (key, v) :: fields, f.2.Readable)
    (hb : ∀ f ∈ (key, v) :: fields, ReadsBack layout f.2) (fuel : Nat)
    (hfuel : (write layout depth v).length + (writeFields layout depth fields).length < fuel) :
    readFields fuel before (writeString key ++ ':' :: ' ' :: (write layout depth v ++
      (writeFields layout depth fields ++ (layout.lineBreak outer ++ '\x7d' :: rest)))) =
      .ok (before ++ (key, v) :: fields, rest) := by
  induction fields generalizing key v before fuel with
  | nil =>
    obtain ⟨fuel, rfl⟩ := Nat.exists_eq_add_one_of_ne_zero (Nat.ne_of_gt (Nat.zero_lt_of_lt hfuel))
    have hv : v.Readable := hr (key, v) List.mem_cons_self
    have hread : ReadsBack layout v := hb (key, v) List.mem_cons_self
    have hend : EndsNumber (layout.lineBreak outer ++ '\x7d' :: rest) :=
      endsNumber_lineBreak layout outer (endsNumber_of_ends (by decide) rest)
    have hclose : skipSpace (layout.lineBreak outer ++ '\x7d' :: rest) = '\x7d' :: rest := by
      rw [skipSpace_lineBreak]
      rfl
    have hfield := readField_write depth fuel (not_mem_keys_of_nodup hk) hv hread (by omega) hend
    rw [hclose] at hfield
    exact hfield
  | cons next fields ih =>
    obtain ⟨nextKey, next⟩ := next
    obtain ⟨fuel, rfl⟩ := Nat.exists_eq_add_one_of_ne_zero (Nat.ne_of_gt (Nat.zero_lt_of_lt hfuel))
    have hv : v.Readable := hr (key, v) List.mem_cons_self
    have hread : ReadsBack layout v := hb (key, v) List.mem_cons_self
    have hpos := write_length_pos layout depth hv
    simp only [writeFields, List.length_append, List.length_cons, List.append_assoc,
      List.cons_append] at hfuel ⊢
    -- What comes after the field, from its comma on.
    let tail := writeString nextKey ++ ':' :: ' ' :: (write layout depth next ++
      (writeFields layout depth fields ++ (layout.lineBreak outer ++ '\x7d' :: rest)))
    have hend : EndsNumber (layout.comma depth ++ tail) := endsNumber_comma layout depth tail
    obtain ⟨t, hcomma, ht⟩ := comma_append layout depth tail
    have hskip : skipSpace (',' :: t) = ',' :: t := rfl
    have htail : skipSpace t = tail := ht
    have hfield := readField_write depth fuel (not_mem_keys_of_nodup hk) hv hread (by omega) hend
    rw [hcomma, hskip] at hfield
    have hrest := @ih nextKey next (before ++ [(key, v)]) (by simpa using hk)
      (fun f hf => hr f (List.mem_cons_of_mem _ hf)) (fun f hf => hb f (List.mem_cons_of_mem _ hf))
      fuel (by omega)
    rw [hcomma]
    refine hfield.trans ?_
    rw [moreFields]
    rw [htail, hrest, List.append_assoc, List.singleton_append]

theorem readsBack_of_scalar {v : Json} {s : List Char} (hw : ∀ depth, write layout depth v = s)
    (hs : readScalar s = .ok (v, [])) : ReadsBack layout v := by
  intro depth fuel rest hend hfuel
  obtain ⟨c, t, hc, hstart⟩ := readScalar_head hs
  rw [hw depth, hc] at hfuel ⊢
  obtain ⟨fuel, rfl⟩ := Nat.exists_eq_add_one_of_ne_zero (Nat.ne_of_gt (Nat.zero_lt_of_lt hfuel))
  rw [List.cons_append, readValue_of_startsScalar hstart, ← List.cons_append, ← hc,
    readScalar_append hend hs]
  rfl

theorem readValue_array {inner text rest : List Char} (fuel : Nat)
    (ht : ∃ c t, text = c :: t ∧ startsValue c) (hs : skipSpace inner = text ++ rest) :
    readValue (fuel + 1) ('[' :: inner) = (readItems fuel (text ++ rest)).map fun found =>
      (.array found.1, found.2) := by
  obtain ⟨c, t, rfl, hc⟩ := ht
  have hne : c ≠ ']' := fun h => absurd (h ▸ hc) (by decide)
  rw [readValue_bracket, hs]
  unfold arrayBody
  split
  · next heq => exact absurd (List.cons.inj heq).1 hne
  · cases readItems fuel (c :: t ++ rest) <;> rfl

theorem readValue_object {inner rest : List Char} (fuel : Nat) {key : String}
    (hs : skipSpace inner = writeString key ++ rest) :
    readValue (fuel + 1) ('\x7b' :: inner) =
      (readFields fuel [] (writeString key ++ rest)).map fun found =>
        (.object found.1, found.2) := by
  rw [readValue_brace, hs]
  unfold objectBody
  split
  · next heq => exact absurd (List.cons.inj heq).1 (by decide)
  · cases readFields fuel [] (writeString key ++ rest) <;> rfl

theorem readsBack_of_readable {v : Json} (h : v.Readable) : ReadsBack layout v := by
  induction h with
  | null => exact readsBack_of_scalar (fun _ => rfl) rfl
  | bool b => cases b <;> exact readsBack_of_scalar (fun _ => rfl) rfl
  | int n hn => exact readsBack_of_scalar (fun _ => by rw [write]) (readScalar_signedDigits hn)
  | float x hx => exact readsBack_of_scalar (fun _ => by rw [write]) hx
  | string s =>
    intro depth fuel rest _ hfuel
    obtain ⟨fuel, rfl⟩ := Nat.exists_eq_add_one_of_ne_zero (Nat.ne_of_gt (Nat.zero_lt_of_lt hfuel))
    simp only [write, writeString, List.cons_append, List.append_assoc, List.nil_append,
      readValue_quote, readString_writeString]
    rfl
  | array items hr ih =>
    intro depth fuel rest _ hfuel
    obtain ⟨fuel, rfl⟩ := Nat.exists_eq_add_one_of_ne_zero
      (Nat.ne_of_gt (Nat.lt_of_lt_of_le (write_length_pos layout depth (.array items hr)) hfuel))
    cases items with
    | nil => rfl
    | cons item items =>
      simp only [write, List.cons_append, List.append_assoc, List.length_cons, List.length_append,
        List.nil_append] at hfuel ⊢
      have hitem : item.Readable := hr item List.mem_cons_self
      have hinner := (skipSpace_lineBreak layout (depth + 1) _).trans
        (skipSpace_write layout (depth + 1) hitem (writeItems layout (depth + 1) items ++
          (layout.lineBreak depth ++ ']' :: rest)))
      rw [readValue_array fuel (write_head layout (depth + 1) hitem) hinner,
        readItems_write (depth + 1) depth rest hr ih fuel (by omega)]
      rfl
  | object fields hk hr ih =>
    intro depth fuel rest _ hfuel
    obtain ⟨fuel, rfl⟩ := Nat.exists_eq_add_one_of_ne_zero
      (Nat.ne_of_gt (Nat.lt_of_lt_of_le (write_length_pos layout depth (.object fields hk hr))
        hfuel))
    cases fields with
    | nil => rfl
    | cons field fields =>
      obtain ⟨key, v⟩ := field
      simp only [write, List.cons_append, List.append_assoc, List.length_cons, List.length_append,
        List.nil_append] at hfuel ⊢
      have hinner := (skipSpace_lineBreak layout (depth + 1) _).trans
        (skipSpace_writeString key (':' :: ' ' :: (write layout (depth + 1) v ++
          (writeFields layout (depth + 1) fields ++ (layout.lineBreak depth ++ '\x7d' :: rest)))))
      have hkeys : (([] ++ (key, v) :: fields).map Prod.fst).Nodup := hk
      have hread := readFields_write (depth + 1) depth rest hkeys hr ih fuel (by omega)
      rw [readValue_object fuel hinner, hread]
      rfl

end

/-- Every value that survives being written is read back, in whatever layout it was written. -/
theorem readAll_write (layout : Layout) {v : Json} (h : v.Readable) :
    readAll (write layout 0 v) = .ok v := by
  have hend : EndsNumber [] := by simp [EndsNumber]
  obtain ⟨c, t, hw, hc⟩ := write_head layout 0 h
  have hmark : c ≠ '\ufeff' := fun hm => absurd (hm ▸ hc) (by decide)
  have hback : ReadsBack layout v := readsBack_of_readable h
  have hread := hback 0 (2 * (write layout 0 v).length + 2) [] hend (by omega)
  have hskip := skipSpace_write layout 0 h []
  rw [List.append_nil] at hread hskip
  unfold readAll
  split
  · next heq =>
    rw [hw] at heq
    exact absurd (List.cons.inj heq).1 hmark
  · rw [hskip, hread]
    rfl

end FlowGraph.Json
