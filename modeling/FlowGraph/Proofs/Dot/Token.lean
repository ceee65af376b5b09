import FlowGraph.Dot.Identifier
import FlowGraph.Proofs.Dot.Language
import FlowGraph.Proofs.Program.Lexeme
import Mathlib.Data.List.Induction

/-! The token that an identifier is read as. A string ends at its own quote unless an odd number of
backslashes stands before it, and markup at its own last bracket just if it is balanced. -/

namespace FlowGraph.Dot

open FlowGraph.Dot.Language

variable {s rest : List Char}

/-- What is changed about a reading is not what comes after it. -/
theorem exists_of_map_fst {α β γ : Type} {found : Option (α × γ)} (f : α → β) {b : β} {after : γ}
    (h : found.map (fun (a, after) => (f a, after)) = some (b, after)) :
    ∃ a, found = some (a, after) ∧ f a = b := by
  obtain ⟨⟨a, _⟩, hfound, hpair⟩ := Option.map_eq_some_iff.mp h
  obtain ⟨hb, rfl⟩ := Prod.mk.inj hpair
  exact ⟨a, hfound, hb⟩

/-! Strings. -/

/-- A character that is not the closing quote, nor a backslash with an effect. -/
theorem quotedBody_kept {c : Char} (hquote : c ≠ '"')
    (hslash : c = '\\' → ∀ d ∈ s.head?, d ∉ ['"', '\\', '\n']) :
    quotedBody (c :: s) = (quotedBody s).map fun (s, after) => (c :: s, after) := by
  have hnext (d : Char) (hd : d ∈ ['"', '\\', '\n']) (tail : List Char) (hc : c = '\\') :
      s ≠ d :: tail := by
    rintro rfl
    exact hslash hc d rfl hd
  rewrite [quotedBody]
  · rfl
  · exact hquote
  · exact fun tail hc => hnext '"' (by decide) tail hc
  · exact fun tail hc => hnext '\\' (by decide) tail hc
  · exact fun tail hc => hnext '\n' (by decide) tail hc

theorem quotedBody_cons {c : Char} (hquote : c ≠ '"') (hslash : c ≠ '\\') (rest : List Char) :
    quotedBody (c :: rest) = (quotedBody rest).map fun (s, after) => (c :: s, after) :=
  quotedBody_kept hquote fun h => absurd h hslash

theorem quotedBody_slash {c : Char} (hquote : c ≠ '"') (hslash : c ≠ '\\') (hline : c ≠ '\n')
    (rest : List Char) : quotedBody ('\\' :: c :: rest) =
      (quotedBody rest).map fun (s, after) => ('\\' :: c :: s, after) := by
  have hplain : ∀ d ∈ (c :: rest).head?, d ∉ ['"', '\\', '\n'] := by
    intro d hd
    obtain rfl : c = d := by simpa using hd
    simp [hquote, hslash, hline]
  rw [quotedBody_kept (by decide) fun _ => hplain, quotedBody_cons hquote hslash, Option.map_map]
  rfl

theorem escapeQuotes_cons {c : Char} (hquote : c ≠ '"') (hslash : c ≠ '\\') (odd : Bool)
    (s : List Char) : escapeQuotes odd (c :: s) = c :: escapeQuotes false s := by
  rw [escapeQuotes]
  · exact hquote
  · exact hslash

/-- Without backslashes a string is read as it was written. -/
theorem quotedBody_of_not_mem (h : '\\' ∉ s) (rest : List Char) :
    quotedBody (escapeQuotes false s ++ '"' :: rest) = some (s, rest) := by
  induction s with
  | nil => rfl
  | cons c s ih =>
    rw [List.mem_cons, not_or] at h
    have hs := ih h.2
    by_cases hquote : c = '"'
    · subst hquote
      exact congrArg (Option.map fun (s, after) => ('"' :: s, after)) hs
    · rw [escapeQuotes_cons hquote (Ne.symm h.1), List.cons_append,
        quotedBody_cons hquote (Ne.symm h.1), hs]
      rfl

/-- Whether an even number of backslashes stands at the end, where `odd` tells of those before. -/
def endsEven (odd : Bool) : List Char → Bool
  | [] => !odd
  | '\\' :: s => endsEven (!odd) s
  | _ :: s => endsEven false s

theorem endsEven_cons {c : Char} (hslash : c ≠ '\\') (odd : Bool) (s : List Char) :
    endsEven odd (c :: s) = endsEven false s := by
  rw [endsEven]
  exact hslash

theorem endsEven_concat (odd : Bool) (s : List Char) (c : Char) :
    endsEven odd (s ++ [c]) = if c = '\\' then !endsEven odd s else true := by
  induction s generalizing odd with
  | nil =>
    by_cases hc : c = '\\'
    · simp [hc, endsEven]
    · simp [hc, endsEven_cons hc, endsEven]
  | cons d s ih =>
    by_cases hd : d = '\\'
    · subst hd
      exact ih (!odd)
    · rw [List.cons_append, endsEven_cons hd, endsEven_cons hd, ih]

theorem endsEven_iff (s : List Char) :
    endsEven false s = true ↔ (s.reverse.takeWhile (· = '\\')).length % 2 = 0 := by
  induction s using List.reverseRecOn with
  | nil => simp [endsEven]
  | append_singleton s c ih =>
    rw [endsEven_concat, List.reverse_concat, List.takeWhile_cons]
    by_cases hc : c = '\\'
    · simp only [hc, decide_true, if_true, List.length_cons, Bool.not_eq_true', ← Bool.not_eq_true,
        ih]
      omega
    · simp [hc]

/-- What happens to a string with this body at its closing quote: it ends there, or the quote
belongs to it and it goes on. -/
def Closes (ends : Bool) (body value : List Char) : Prop :=
  ∀ rest, quotedBody (body ++ '"' :: rest) =
    if ends then some (value, rest)
    else (quotedBody rest).map fun (s, after) => (value ++ s, after)

theorem Closes.front {ends : Bool} {body value : List Char} (first read : List Char)
    (hfirst : ∀ t, quotedBody (first ++ t) =
      (quotedBody t).map fun (s, after) => (read ++ s, after))
    (h : Closes ends body value) : Closes ends (first ++ body) (read ++ value) := by
  intro rest
  rw [List.append_assoc, hfirst, h rest]
  cases ends with
  | true => rfl
  | false =>
    rw [if_neg Bool.false_ne_true, if_neg Bool.false_ne_true, Option.map_map]
    congr 1
    funext found
    simp

/-- A backslash stands before the text if `odd` is set. -/
theorem closes_escapeQuotes (odd : Bool) (s : List Char) : ∃ value,
    Closes (endsEven odd s) ((if odd then ['\\'] else []) ++ escapeQuotes odd s) value := by
  induction s generalizing odd with
  | nil =>
    cases odd with
    | false => exact ⟨[], fun rest => rfl⟩
    | true => exact ⟨['"'], fun rest => rfl⟩
  | cons c s ih =>
    obtain ⟨value, hvalue⟩ := ih false
    by_cases hquote : c = '"'
    · subst hquote
      have hclosed := Closes.front ['\\', '"'] ['"'] (fun t => rfl) hvalue
      cases odd <;> exact ⟨_, hclosed⟩
    by_cases hslash : c = '\\'
    · subst hslash
      cases odd with
      | false => exact ih true
      | true => exact ⟨_, .front ['\\', '\\'] ['\\', '\\'] (fun t => rfl) hvalue⟩
    rw [escapeQuotes_cons hquote hslash, endsEven_cons hslash]
    cases odd with
    | false => exact ⟨_, .front [c] [c] (quotedBody_cons hquote hslash) hvalue⟩
    | true =>
      by_cases hline : c = '\n'
      · subst hline
        have hdropped (t : List Char) : quotedBody ('\\' :: '\n' :: t) =
            (quotedBody t).map fun (s, after) => ([] ++ s, after) := Option.map_id'.symm
        exact ⟨_, .front ['\\', '\n'] [] hdropped hvalue⟩
      · exact ⟨_, .front ['\\', c] ['\\', c] (quotedBody_slash hquote hslash hline) hvalue⟩

/-! Markup. -/

/-- Text after which just as many brackets are closed as were opened in it or, `depth` of them,
before it; and never more. -/
inductive Balanced : Nat → List Char → Prop
  | nil : Balanced 0 []
  | opened {depth : Nat} {s : List Char} (h : Balanced (depth + 1) s) : Balanced depth ('<' :: s)
  | closed {depth : Nat} {s : List Char} (h : Balanced depth s) : Balanced (depth + 1) ('>' :: s)
  | other {depth : Nat} {c : Char} {s : List Char} (hopen : c ≠ '<') (hclose : c ≠ '>')
    (h : Balanced depth s) : Balanced depth (c :: s)

theorem markupBody_cons {c : Char} (hopen : c ≠ '<') (hclose : c ≠ '>') (depth : Nat)
    (rest : List Char) : markupBody depth (c :: rest) =
      (markupBody depth rest).map fun (s, after) => (c :: s, after) := by
  rewrite [markupBody]
  · rfl
  · exact hopen
  · exact fun _ => hclose
  · exact fun _ _ => hclose

theorem markupBody_append {depth : Nat} {body : List Char} (h : Balanced depth body)
    (after : List Char) : markupBody depth (body ++ '>' :: after) = some (body, after) := by
  induction h with
  | nil => rfl
  | opened _ ih => exact congrArg (Option.map fun (s, after) => ('<' :: s, after)) ih
  | closed _ ih => exact congrArg (Option.map fun (s, after) => ('>' :: s, after)) ih
  | other hopen hclose _ ih =>
    rw [List.cons_append, markupBody_cons hopen hclose, ih, Option.map_some]

theorem markupBody_eq_some_iff {depth : Nat} {s body after : List Char} :
    markupBody depth s = some (body, after) ↔ s = body ++ '>' :: after ∧ Balanced depth body := by
  constructor
  · intro h
    induction s generalizing depth body with
    | nil => cases h
    | cons c s ih =>
      by_cases hopen : c = '<'
      · subst hopen
        obtain ⟨inner, hinner, rfl⟩ := exists_of_map_fst _ h
        obtain ⟨rfl, hb⟩ := ih hinner
        exact ⟨rfl, .opened hb⟩
      by_cases hclose : c = '>'
      · subst hclose
        cases depth with
        | zero =>
          cases h
          exact ⟨rfl, .nil⟩
        | succ depth =>
          obtain ⟨inner, hinner, rfl⟩ := exists_of_map_fst _ h
          obtain ⟨rfl, hb⟩ := ih hinner
          exact ⟨rfl, .closed hb⟩
      · rw [markupBody_cons hopen hclose] at h
        obtain ⟨inner, hinner, rfl⟩ := exists_of_map_fst _ h
        obtain ⟨rfl, hb⟩ := ih hinner
        exact ⟨rfl, .other hopen hclose hb⟩
  · rintro ⟨rfl, hb⟩
    exact markupBody_append hb after

/-! Words and numerals. -/

theorem isDigit_eq (c : Char) : Text.isDigit c = c.isDigit :=
  rfl

theorem isLetter_iff {c : Char} :
    isLetter c = true ↔ ('a' ≤ c ∧ c ≤ 'z' ∨ 'A' ≤ c ∧ c ≤ 'Z') ∨ c = '_' := by
  simp [isLetter]

theorem isNameStart_iff {c : Char} : isNameStart c = true ↔
    (65 ≤ c.toNat ∧ c.toNat ≤ 90 ∨ 97 ≤ c.toNat ∧ c.toNat ≤ 122) ∨ c = '_' ∨ 128 ≤ c.toNat := by
  have halpha : c.isAlpha = (decide (65 ≤ c.val ∧ c.val ≤ 90) ||
      decide (97 ≤ c.val) && decide (c.val ≤ 122)) := rfl
  simp [isNameStart, halpha, or_assoc, UInt32.le_iff_toNat_le]

theorem isNameStart_of_isLetter {c : Char} (h : isLetter c = true) : isNameStart c = true := by
  rw [isNameStart_iff]
  rcases isLetter_iff.mp h with (h | h) | h
  · have hlower : 97 ≤ c.toNat ∧ c.toNat ≤ 122 := h
    exact .inl (.inr hlower)
  · have hupper : 65 ≤ c.toNat ∧ c.toNat ≤ 90 := h
    exact .inl (.inl hupper)
  · exact .inr (.inl h)

theorem not_mem_of_class {p : Char → Bool} {c : Char} {l : List Char} (hc : p c = true)
    (hl : l.any p = false) : c ∉ l :=
  fun h => List.any_eq_false.mp hl c h hc

theorem isMark_of_class {p : Char → Bool} {c : Char} (hc : p c = true)
    (hp : ['\x7b', '\x7d', '[', ']', ';', ',', ':', '='].any p = false) :
    isMark c = false := by
  rw [isMark, ← Bool.not_eq_true, List.contains_iff_mem]
  exact not_mem_of_class hc hp

/-- What can follow an identifier in a document. -/
def Ends (rest : List Char) : Prop :=
  ∃ c after, rest = c :: after ∧ c ∈ [' ', ']', '\n']

theorem Ends.head {p : Char → Bool} (hr : Ends rest) (hp : [' ', ']', '\n'].any p = false) :
    ∀ c ∈ rest.head?, p c = false := by
  obtain ⟨d, after, rfl, hd⟩ := hr
  intro c hc
  obtain rfl := Option.some.inj hc
  exact Bool.eq_false_iff.mpr (List.any_eq_false.mp hp _ hd)

theorem token?_cons {c : Char} (hc : c ∉ ['"', '<', '-']) (rest : List Char) :
    token? (c :: rest) = if isMark c then some (.mark c, rest)
      else if isNameStart c then
        some (word ((c :: rest).takeWhile isNameChar), (c :: rest).dropWhile isNameChar)
      else (numeral? (c :: rest)).map fun (s, after) => (.id (.text s), after) := by
  simp only [List.mem_cons, List.not_mem_nil, or_false, not_or] at hc
  rw [token?]
  · exact hc.1
  · exact hc.2.1
  · exact fun _ h => absurd h hc.2.2
  · exact fun _ h => absurd h hc.2.2
  · exact hc.2.2

theorem token?_word (hs : isPlainName s = true) (hr : Ends rest) :
    token? (s ++ rest) = some (word s, rest) := by
  cases s with
  | nil => cases hs
  | cons c t =>
    simp only [isPlainName, Bool.and_eq_true, List.all_eq_true] at hs
    have hstart : isNameStart c = true := isNameStart_of_isLetter hs.1
    have hchars : ∀ d ∈ c :: t, Language.isNameChar d = true := by
      intro d hd
      have hkind : isLetter d = true ∨ Text.isDigit d = true := by
        rcases List.mem_cons.mp hd with rfl | hd
        · exact .inl hs.1
        · simpa using hs.2 d hd
      rcases hkind with h | h
      · simp [Language.isNameChar, isNameStart_of_isLetter h]
      · rw [isDigit_eq] at h
        simp [Language.isNameChar, h]
    have hend : ∀ d ∈ rest.head?, Language.isNameChar d = false := hr.head (by decide)
    have hplain : c ∉ ['"', '<', '-'] := not_mem_of_class hs.1 (by decide)
    have hmark : isMark c = false := isMark_of_class hs.1 (by decide)
    rw [List.cons_append, token?_cons hplain, hmark, if_neg Bool.false_ne_true, if_pos hstart,
      ← List.cons_append, Program.takeWhile_append_of_stop hchars hend,
      Program.dropWhile_append_of_stop hchars hend]

/-- Digits, or digits around a point. -/
theorem isUnsignedNumeral_cases (hs : isUnsignedNumeral s = true) :
    (s ≠ [] ∧ ∀ c ∈ s, c.isDigit = true) ∨
    ∃ whole fraction, s = whole ++ '.' :: fraction ∧ ¬ (whole = [] ∧ fraction = []) ∧
      (∀ c ∈ whole, c.isDigit = true) ∧ ∀ c ∈ fraction, c.isDigit = true := by
  have hwhole : ∀ c ∈ s.takeWhile Text.isDigit, c.isDigit = true :=
    fun c hc => List.mem_takeWhile_imp hc
  have hsplit : s.takeWhile Text.isDigit ++ s.dropWhile Text.isDigit = s :=
    List.takeWhile_append_dropWhile
  unfold isUnsignedNumeral at hs
  dsimp only at hs
  split at hs
  · next hrest =>
    rw [hrest, List.append_nil] at hsplit
    rw [hsplit] at hwhole
    exact .inl ⟨by simpa using hs, hwhole⟩
  · next fraction hrest =>
    rw [hrest] at hsplit hs
    simp only [Bool.and_eq_true, List.all_eq_true, Bool.or_eq_true, bne_iff_ne] at hs
    refine .inr ⟨_, fraction, hsplit.symm, ?_, hwhole, hs.1⟩
    rintro ⟨hnone, rfl⟩
    rw [hnone] at hsplit
    exact hs.2.elim (absurd rfl) (absurd hsplit)
  · cases hs

theorem numeral?_append (hs : isUnsignedNumeral s = true) (hr : Ends rest) :
    numeral? (s ++ rest) = some (s, rest) := by
  have hend : ∀ c ∈ rest.head?, c.isDigit = false := hr.head (by decide)
  unfold numeral?
  rcases isUnsignedNumeral_cases hs with ⟨hne, hdigits⟩ | ⟨whole, fraction, rfl, hne, hw, hf⟩
  · rw [Program.takeWhile_append_of_stop hdigits hend,
      Program.dropWhile_append_of_stop hdigits hend]
    obtain ⟨c, after, rfl, hc⟩ := hr
    have hpoint : c ≠ '.' := by
      rintro rfl
      exact absurd hc (by decide)
    simp [hpoint, hne]
  · have hpoint : ∀ c ∈ ('.' :: fraction ++ rest).head?, c.isDigit = false := by
      intro c hc
      obtain rfl := Option.some.inj hc
      rfl
    rw [List.append_assoc, Program.takeWhile_append_of_stop hw hpoint,
      Program.dropWhile_append_of_stop hw hpoint, List.cons_append]
    simp only [Program.takeWhile_append_of_stop hf hend, Program.dropWhile_append_of_stop hf hend,
      if_neg hne]

def startsNumeral (c : Char) : Bool :=
  c.isDigit || c == '.'

theorem exists_startsNumeral (hs : isUnsignedNumeral s = true) :
    ∃ c t, s = c :: t ∧ startsNumeral c = true := by
  rcases isUnsignedNumeral_cases hs with ⟨hne, hdigits⟩ | ⟨whole, fraction, rfl, -, hw, -⟩
  · obtain ⟨c, t, rfl⟩ := List.exists_cons_of_ne_nil hne
    exact ⟨c, t, rfl, by simp [startsNumeral, hdigits c List.mem_cons_self]⟩
  · cases whole with
    | nil => exact ⟨'.', fraction, rfl, rfl⟩
    | cons c t => exact ⟨c, _, rfl, by simp [startsNumeral, hw c List.mem_cons_self]⟩

theorem isNameStart_of_startsNumeral {c : Char} (h : startsNumeral c = true) :
    isNameStart c = false := by
  have hkind : c.isDigit = true ∨ c = '.' := by simpa [startsNumeral] using h
  rcases hkind with h | rfl
  · have hrange : 48 ≤ c.toNat ∧ c.toNat ≤ 57 := by
      simpa [Char.isDigit, UInt32.le_iff_toNat_le] using h
    have hunder : c ≠ '_' := by
      rintro rfl
      cases h
    rw [Bool.eq_false_iff, Ne, isNameStart_iff]
    rintro (hletter | rfl | hwide)
    · omega
    · exact hunder rfl
    · omega
  · rfl

theorem token?_numeral (hs : isNumeral s = true) (hr : Ends rest) :
    token? (s ++ rest) = some (.id (.text s), rest) := by
  unfold isNumeral at hs
  split at hs
  · next u =>
    have hnumeral := numeral?_append hs hr
    obtain ⟨c, t, rfl, hc⟩ := exists_startsNumeral hs
    have hother : c ∉ ['>', '-'] := not_mem_of_class hc (by decide)
    simp only [List.mem_cons, List.not_mem_nil, or_false, not_or] at hother
    rw [List.cons_append, token?, hnumeral]
    · rfl
    · exact fun _ h => hother.1 (List.cons.inj h).1
    · exact fun _ h => hother.2 (List.cons.inj h).1
  · have hnumeral := numeral?_append hs hr
    obtain ⟨c, t, rfl, hc⟩ := exists_startsNumeral hs
    have hplain : c ∉ ['"', '<', '-'] := not_mem_of_class hc (by decide)
    rw [List.cons_append] at hnumeral ⊢
    rw [token?_cons hplain, isMark_of_class hc (by decide), if_neg Bool.false_ne_true,
      isNameStart_of_startsNumeral hc, if_neg Bool.false_ne_true, hnumeral]
    rfl

end FlowGraph.Dot
