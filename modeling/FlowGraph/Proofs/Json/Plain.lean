import FlowGraph.Json.Writer
import FlowGraph.Proofs.Text.Digits

/-! Written text is visible ASCII with spaces and line feeds. So it is the same in any encoding
that extends ASCII, and no line end in it is taken for another. -/

namespace FlowGraph.Json

def Plain (c : Char) : Prop :=
  c = '\n' ∨ 0x20 ≤ c.toNat ∧ c.toNat < 0x7f

instance (c : Char) : Decidable (Plain c) :=
  inferInstanceAs (Decidable (_ ∨ _))

theorem plain_of_all {s : List Char} (h : s.all (Plain ·) = true) : ∀ c ∈ s, Plain c := by
  simpa using h

theorem plain_of_isDigit {c : Char} (h : Text.isDigit c = true) : Plain c := by
  obtain ⟨hlow, hhigh⟩ : 48 ≤ c.toNat ∧ c.toNat ≤ 57 := Text.isDigit_iff.mp h
  exact .inr ⟨by omega, by omega⟩

theorem plain_decimalDigits {n : Nat} {c : Char} (h : c ∈ Text.decimalDigits n) : Plain c :=
  plain_of_isDigit (Text.isDigit_of_mem_decimalDigits h)

theorem plain_signedDigits {n : Int} {c : Char} (h : c ∈ Text.signedDigits n) : Plain c := by
  unfold Text.signedDigits at h
  split at h
  · rcases List.mem_cons.mp h with rfl | h
    · decide
    · exact plain_decimalDigits h
  · exact plain_decimalDigits h

/-! Numbers. -/

theorem plain_layout {digits : List Char} (hd : ∀ c ∈ digits, Plain c) (point : Int) :
    ∀ c ∈ Binary64.layout digits point, Plain c := by
  intro c hc
  have hzeros (n : Nat) (h : c ∈ List.replicate n '0') : Plain c := by
    rw [List.eq_of_mem_replicate h]
    decide
  have hmark (h : c = '.' ∨ c = 'e' ∨ c = '-' ∨ c = '+' ∨ c = '0') : Plain c := by
    rcases h with rfl | rfl | rfl | rfl | rfl <;> decide
  have htake (n : Nat) (h : c ∈ digits.take n) : Plain c := hd c (List.mem_of_mem_take h)
  have hdrop (n : Nat) (h : c ∈ digits.drop n) : Plain c := hd c (List.mem_of_mem_drop h)
  have hpower (n : Nat) (h : c ∈ Text.decimalDigits n) : Plain c := plain_decimalDigits h
  unfold Binary64.layout at hc
  grind

theorem plain_signed {s : List Char} (hs : ∀ c ∈ s, Plain c) (negative : Bool) :
    ∀ c ∈ Binary64.signed negative s, Plain c := by
  cases negative with
  | false => exact hs
  | true => exact List.forall_mem_cons.mpr ⟨by decide, hs⟩

theorem plain_render (x : Binary64) : ∀ c ∈ x.render names, Plain c := by
  cases x with
  | nan => exact plain_of_all rfl
  | infinity negative => exact plain_signed (plain_of_all rfl) negative
  | finite negative mantissa exponent =>
    refine plain_signed ?_ negative
    unfold Binary64.magnitude
    split
    · exact plain_of_all rfl
    · exact plain_layout (fun c => plain_decimalDigits) _

/-! Strings. -/

theorem plain_digitChar {d : Nat} (h : d < 16) : Plain (Text.digitChar d) := by
  revert d
  decide

theorem plain_unitEscape (n : Nat) : ∀ c ∈ unitEscape n, Plain c := by
  have hdigit (m : Nat) : Plain (Text.digitChar (m % 16)) :=
    plain_digitChar (Nat.mod_lt m (by decide))
  simp only [unitEscape, Text.hexDigits_four, List.forall_mem_cons]
  exact ⟨by decide, by decide, hdigit _, hdigit _, hdigit _, hdigit _, by simp⟩

/-- The characters with an escape of their own, and what stands after its backslash. -/
def shortEscapes : List (Char × Char) :=
  [('"', '"'), ('\\', '\\'), ('\n', 'n'), ('\r', 'r'), ('\t', 't'), ('\x08', 'b'), ('\x0c', 'f')]

/-- The four ways in which a character is written. -/
theorem escapeChar_cases (c : Char) :
    (∃ e, (c, e) ∈ shortEscapes ∧ escapeChar c = ['\\', e]) ∨
    (c ≠ '"' ∧ c ≠ '\\' ∧ (0x20 ≤ c.toNat ∧ c.toNat < 0x7f) ∧ escapeChar c = [c]) ∨
    (c.toNat < 0x10000 ∧ escapeChar c = unitEscape c.toNat) ∨
    ¬ c.toNat < 0x10000 ∧ escapeChar c = unitEscape (0xd800 + (c.toNat - 0x10000) / 0x400) ++
      unitEscape (0xdc00 + (c.toNat - 0x10000) % 0x400) := by
  by_cases hshort : ∃ e, (c, e) ∈ shortEscapes
  · obtain ⟨e, he⟩ := hshort
    refine .inl ⟨e, he, ?_⟩
    simp only [shortEscapes, List.mem_cons, Prod.mk.injEq, List.not_mem_nil, or_false] at he
    rcases he with ⟨rfl, rfl⟩ | ⟨rfl, rfl⟩ | ⟨rfl, rfl⟩ | ⟨rfl, rfl⟩ | ⟨rfl, rfl⟩ | ⟨rfl, rfl⟩ |
      ⟨rfl, rfl⟩ <;> rfl
  · have hother (d e : Char) (hd : (d, e) ∈ shortEscapes) : c ≠ d := fun h => hshort ⟨e, h ▸ hd⟩
    have hquote := hother '"' '"' (by decide)
    have hslash := hother '\\' '\\' (by decide)
    have hlong : escapeChar c = if 0x20 ≤ c.toNat ∧ c.toNat < 0x7f then [c]
        else if c.toNat < 0x10000 then unitEscape c.toNat
        else unitEscape (0xd800 + (c.toNat - 0x10000) / 0x400) ++
          unitEscape (0xdc00 + (c.toNat - 0x10000) % 0x400) := by
      rw [escapeChar, if_neg hquote, if_neg hslash, if_neg (hother '\n' 'n' (by decide)),
        if_neg (hother '\r' 'r' (by decide)), if_neg (hother '\t' 't' (by decide)),
        if_neg (hother '\x08' 'b' (by decide)), if_neg (hother '\x0c' 'f' (by decide))]
    by_cases hvisible : 0x20 ≤ c.toNat ∧ c.toNat < 0x7f
    · exact .inr (.inl ⟨hquote, hslash, hvisible, by rw [hlong, if_pos hvisible]⟩)
    rw [if_neg hvisible] at hlong
    by_cases hbmp : c.toNat < 0x10000
    · exact .inr (.inr (.inl ⟨hbmp, by rw [hlong, if_pos hbmp]⟩))
    · exact .inr (.inr (.inr ⟨hbmp, by rw [hlong, if_neg hbmp]⟩))

theorem plain_escapeChar (c : Char) : ∀ d ∈ escapeChar c, Plain d := by
  rcases escapeChar_cases c with ⟨e, he, h⟩ | ⟨-, -, hvisible, h⟩ | ⟨-, h⟩ | ⟨-, h⟩ <;> rw [h]
  · have hmarks : ∀ p ∈ shortEscapes, Plain p.2 := by decide
    simp only [List.forall_mem_cons]
    exact ⟨by decide, hmarks _ he, List.forall_mem_nil _⟩
  · exact List.forall_mem_singleton.mpr (.inr hvisible)
  · exact plain_unitEscape _
  · exact List.forall_mem_append.mpr ⟨plain_unitEscape _, plain_unitEscape _⟩

theorem plain_writeString (s : String) : ∀ c ∈ writeString s, Plain c := by
  have hchars : ∀ c ∈ s.toList.flatMap escapeChar, Plain c := by
    intro d hd
    obtain ⟨c, -, hc⟩ := List.mem_flatMap.mp hd
    exact plain_escapeChar c d hc
  unfold writeString
  rw [List.cons_append, List.forall_mem_cons, List.forall_mem_append]
  exact ⟨by decide, hchars, plain_of_all rfl⟩

/-! Arrays and objects. -/

theorem plain_lineBreak (layout : Layout) (depth : Nat) :
    ∀ c ∈ layout.lineBreak depth, Plain c := by
  cases layout with
  | oneLine => simp [Layout.lineBreak]
  | indented width =>
    refine List.forall_mem_cons.mpr ⟨by decide, fun c hc => ?_⟩
    rw [List.eq_of_mem_replicate hc]
    decide

theorem plain_comma (layout : Layout) (depth : Nat) : ∀ c ∈ layout.comma depth, Plain c := by
  cases layout with
  | oneLine => simp [Layout.comma, Plain]
  | indented width => exact List.forall_mem_cons.mpr ⟨by decide, plain_lineBreak _ depth⟩

mutual

theorem plain_write (layout : Layout) (depth : Nat) :
    (v : Json) → ∀ c ∈ write layout depth v, Plain c
  | .null => by
    rw [write]
    exact plain_of_all rfl
  | .bool true => by
    rw [write]
    exact plain_of_all rfl
  | .bool false => by
    rw [write]
    exact plain_of_all rfl
  | .int n => fun _ => plain_signedDigits
  | .float x => plain_render x
  | .string s => plain_writeString s
  | .array [] => by
    rw [write]
    exact plain_of_all rfl
  | .array (item :: items) => by
    have hitem := plain_write layout (depth + 1) item
    have hitems := plain_writeItems layout (depth + 1) items
    have hopen := plain_lineBreak layout (depth + 1)
    have hclose := plain_lineBreak layout depth
    simp only [write, List.cons_append, List.append_assoc, List.forall_mem_cons,
      List.forall_mem_append]
    exact ⟨by decide, hopen, hitem, hitems, hclose, by decide, List.forall_mem_nil _⟩
  | .object [] => by
    rw [write]
    exact plain_of_all rfl
  | .object ((key, value) :: fields) => by
    have hkey := plain_writeString key
    have hvalue := plain_write layout (depth + 1) value
    have hfields := plain_writeFields layout (depth + 1) fields
    have hopen := plain_lineBreak layout (depth + 1)
    have hclose := plain_lineBreak layout depth
    simp only [write, List.cons_append, List.append_assoc, List.forall_mem_cons,
      List.forall_mem_append]
    exact ⟨by decide, hopen, hkey, by decide, by decide, hvalue, hfields, hclose, by decide,
      List.forall_mem_nil _⟩

theorem plain_writeItems (layout : Layout) (depth : Nat) :
    (items : List Json) → ∀ c ∈ writeItems layout depth items, Plain c
  | [] => by simp [writeItems]
  | item :: items => by
    have hcomma := plain_comma layout depth
    have hitem := plain_write layout depth item
    have hitems := plain_writeItems layout depth items
    simp only [writeItems, List.forall_mem_append]
    exact ⟨⟨hcomma, hitem⟩, hitems⟩

theorem plain_writeFields (layout : Layout) (depth : Nat) :
    (fields : List (String × Json)) → ∀ c ∈ writeFields layout depth fields, Plain c
  | [] => by simp [writeFields]
  | (key, value) :: fields => by
    have hcomma := plain_comma layout depth
    have hkey := plain_writeString key
    have hvalue := plain_write layout depth value
    have hfields := plain_writeFields layout depth fields
    simp only [writeFields, List.cons_append, List.append_assoc, List.forall_mem_cons,
      List.forall_mem_append]
    exact ⟨hcomma, hkey, by decide, by decide, hvalue, hfields⟩

end

theorem plain_toText (layout : Layout) (v : Json) : ∀ c ∈ (toText layout v).toList, Plain c := by
  rw [toText, String.toList_ofList]
  exact plain_write layout 0 v

end FlowGraph.Json
