import FlowGraph.Program.Lexeme
import Mathlib.Data.List.TakeWhile

/-! The forms of the lexemes, and the scan of a text. Whatever the scan takes has the form of its
lexeme, nothing is lost between two lexemes, and the scan stops only where no form fits. -/

namespace FlowGraph.Program

/-- A run of name characters, then groups of a hyphen and further name characters. -/
def IsName (s : List Char) : Prop :=
  ∃ (first : List Char) (groups : List (List Char)), first ≠ [] ∧
    (∀ c ∈ first, isNameChar c = true) ∧ (∀ g ∈ groups, ∀ c ∈ g, isNameChar c = true) ∧
    s = first ++ groups.flatMap ('-' :: ·)

/-- No quote stands alone, and a backslash stands before a character that is no line feed. -/
inductive IsLiteralBody : List Char → Prop
  | nil : IsLiteralBody []
  | plain {c : Char} {s : List Char} (hq : c ≠ '\x27') (hb : c ≠ '\\') (h : IsLiteralBody s) :
    IsLiteralBody (c :: s)
  | escaped {c : Char} {s : List Char} (hc : c ≠ '\n') (h : IsLiteralBody s) :
    IsLiteralBody ('\\' :: c :: s)

def Lexeme.Valid : Lexeme → Prop
  | .comment body => '\n' ∉ body
  | .literal body => IsLiteralBody body
  | .arrow => True
  | .node id component => IsName id ∧ ∀ c ∈ component, isComponentChar c = true
  | .word text => IsName text
  | .separator c => c = ',' ∨ c = '\n'
  | .blanks text => text ≠ [] ∧ ∀ c ∈ text, isGap c = true

theorem takeWhile_append_of_stop {p : Char → Bool} {s rest : List Char}
    (hs : ∀ c ∈ s, p c = true) (hr : ∀ c ∈ rest.head?, p c = false) :
    (s ++ rest).takeWhile p = s := by
  rw [List.takeWhile_append_of_pos hs]
  cases rest with
  | nil => simp
  | cons c rest => simp [hr c rfl]

theorem dropWhile_append_of_stop {p : Char → Bool} {s rest : List Char}
    (hs : ∀ c ∈ s, p c = true) (hr : ∀ c ∈ rest.head?, p c = false) :
    (s ++ rest).dropWhile p = rest := by
  rw [List.dropWhile_append_of_pos hs]
  cases rest with
  | nil => rfl
  | cons c rest => simp [hr c rfl]

/-! Names. -/

theorem exists_groups {s : List Char} (h : ∀ c ∈ s, isNameChar c = true ∨ c = '-') :
    ∃ (first : List Char) (groups : List (List Char)), (∀ c ∈ first, isNameChar c = true) ∧
      (∀ g ∈ groups, ∀ c ∈ g, isNameChar c = true) ∧ s = first ++ groups.flatMap ('-' :: ·) := by
  induction s with
  | nil => exact ⟨[], [], by simp, by simp, rfl⟩
  | cons c s ih =>
    rw [List.forall_mem_cons] at h
    obtain ⟨first, groups, hf, hg, rfl⟩ := ih h.2
    rcases h.1 with hc | rfl
    · exact ⟨c :: first, groups, by simpa using ⟨hc, hf⟩, hg, rfl⟩
    · exact ⟨[], first :: groups, by simp, by simpa using ⟨hf, hg⟩, rfl⟩

theorem isName_iff {s : List Char} : IsName s ↔ ∃ c rest, s = c :: rest ∧ isNameChar c = true ∧
    ∀ d ∈ rest, isNameChar d = true ∨ d = '-' := by
  constructor
  · rintro ⟨first, groups, hne, hf, hg, rfl⟩
    obtain ⟨c, first, rfl⟩ := List.exists_cons_of_ne_nil hne
    rw [List.forall_mem_cons] at hf
    refine ⟨c, first ++ groups.flatMap ('-' :: ·), rfl, hf.1, fun d hd => ?_⟩
    rcases List.mem_append.mp hd with hd | hd
    · exact .inl (hf.2 d hd)
    · obtain ⟨g, hgroup, hd⟩ := List.mem_flatMap.mp hd
      rcases List.mem_cons.mp hd with rfl | hd
      · exact .inr rfl
      · exact .inl (hg g hgroup d hd)
  · rintro ⟨c, rest, rfl, hc, hrest⟩
    obtain ⟨first, groups, hf, hg, rfl⟩ := exists_groups hrest
    exact ⟨c :: first, groups, by simp, by simpa using ⟨hc, hf⟩, hg, rfl⟩

instance : DecidablePred IsName
  | [] => isFalse (by simp [isName_iff])
  | c :: rest => decidable_of_iff
      ((isNameChar c && rest.all fun d => isNameChar d || d == '-') = true) (by
        rw [Bool.and_eq_true, List.all_eq_true]
        simp only [Bool.or_eq_true, beq_iff_eq]
        refine ⟨fun h => isName_iff.mpr ⟨c, rest, rfl, h⟩, fun h => ?_⟩
        obtain ⟨d, t, he, h⟩ := isName_iff.mp h
        obtain ⟨rfl, rfl⟩ := List.cons.inj he
        exact h)

theorem nameRest_sound (s : List Char) : s = (nameRest s).1 ++ (nameRest s).2 ∧
    ∀ d ∈ (nameRest s).1, isNameChar d = true ∨ d = '-' := by
  induction s with
  | nil => simp [nameRest]
  | cons c s ih =>
    by_cases h : (isNameChar c || c == '-' && s.head? != some '>') = true
    · have hc : isNameChar c = true ∨ c = '-' := by
        rw [Bool.or_eq_true, Bool.and_eq_true, beq_iff_eq] at h
        exact h.imp_right And.left
      simp only [nameRest, h, if_true, List.cons_append, List.cons.injEq, true_and,
        List.forall_mem_cons]
      exact ⟨ih.1, hc, ih.2⟩
    · simp [nameRest, h]

/-- A name goes on into the text after it, unless that would cut an arrow. -/
theorem nameRest_append_of_uncut {name rest : List Char}
    (hn : ∀ d ∈ name, isNameChar d = true ∨ d = '-')
    (hr : name.getLast? = some '-' → rest.head? ≠ some '>') :
    nameRest (name ++ rest) = (name ++ (nameRest rest).1, (nameRest rest).2) := by
  have hgreater : isNameChar '>' = false := by decide
  induction name with
  | nil => rfl
  | cons d name ih =>
    rw [List.forall_mem_cons] at hn
    have hnext : d = '-' → (name ++ rest).head? ≠ some '>' := by
      rintro rfl he
      cases name with
      | nil => exact hr rfl he
      | cons e name =>
        obtain rfl : e = '>' := by simpa using he
        rcases hn.2 '>' (by simp) with h | h
        · rw [hgreater] at h
          cases h
        · exact absurd h (by decide)
    have hd : (isNameChar d || d == '-' && (name ++ rest).head? != some '>') = true := by
      rcases hn.1 with h | h
      · rw [h, Bool.true_or]
      · rw [bne_iff_ne.mpr (hnext h), beq_iff_eq.mpr h, Bool.and_true, Bool.or_true]
    have hlast : name.getLast? = some '-' → rest.head? ≠ some '>' := by
      intro h
      exact hr (by rw [List.getLast?_cons, h, Option.getD_some])
    simp only [List.cons_append, nameRest, hd, if_true, ih hn.2 hlast]

/-- What may follow a name that is taken as a whole. -/
def EndsName (rest : List Char) : Prop :=
  ∀ c ∈ rest.head?, isNameChar c = false ∧ c ≠ '-' ∧ c ≠ '>'

theorem nameRest_append {name rest : List Char} (hn : ∀ d ∈ name, isNameChar d = true ∨ d = '-')
    (hr : EndsName rest) : nameRest (name ++ rest) = (name, rest) := by
  have hrest : nameRest rest = ([], rest) := by
    cases rest with
    | nil => rfl
    | cons c rest =>
      obtain ⟨hc, hhyphen, -⟩ := hr c rfl
      simp [nameRest, hc, hhyphen]
  have huncut : name.getLast? = some '-' → rest.head? ≠ some '>' :=
    fun _ he => (hr '>' he).2.2 rfl
  rw [nameRest_append_of_uncut hn huncut, hrest, List.append_nil]

/-! Components and literals. -/

theorem component?_eq_some_iff {s component rest : List Char} :
    component? s = some (component, rest) ↔
      (∀ c ∈ component, isComponentChar c = true) ∧ s = '(' :: component ++ ')' :: rest := by
  have hclosing : isComponentChar ')' = false := by decide
  constructor
  · intro h
    unfold component? at h
    split at h
    · next s =>
      split at h
      · next after hdrop =>
        obtain ⟨rfl, rfl⟩ := Prod.mk.inj (Option.some.inj h)
        refine ⟨fun c hc => List.mem_takeWhile_imp hc, ?_⟩
        rw [List.cons_append, ← hdrop, List.takeWhile_append_dropWhile]
      · cases h
    · cases h
  · rintro ⟨hc, rfl⟩
    have hstop : ∀ c ∈ (')' :: rest).head?, isComponentChar c = false := by
      simpa using hclosing
    rw [List.cons_append, component?, dropWhile_append_of_stop hc hstop,
      takeWhile_append_of_stop hc hstop]
    rfl

theorem literalBody?_append {body : List Char} (h : IsLiteralBody body) (rest : List Char) :
    literalBody? (body ++ '\x27' :: rest) = some (body, rest) := by
  induction h with
  | nil => rfl
  | plain hq hb h ih =>
    rw [List.cons_append, literalBody?, ih, Option.map_some]
    all_goals simp_all
  | @escaped c s hc h ih =>
    exact (if_neg hc).trans (congrArg (Option.map fun found : List Char × List Char =>
      ('\\' :: c :: found.1, found.2)) ih)

theorem literalBody?_eq_some_iff {s body rest : List Char} :
    literalBody? s = some (body, rest) ↔ IsLiteralBody body ∧ s = body ++ '\x27' :: rest := by
  constructor
  · intro h
    fun_induction literalBody? s generalizing body with
    | case1 => cases h
    | case2 s =>
      obtain ⟨rfl, rfl⟩ := Prod.mk.inj (Option.some.inj h)
      exact ⟨.nil, rfl⟩
    | case3 => cases h
    | case4 c s hc ih =>
      obtain ⟨⟨inner, after⟩, hs, he⟩ := Option.map_eq_some_iff.mp h
      obtain ⟨rfl, rfl⟩ := Prod.mk.inj he
      obtain ⟨hbody, rfl⟩ := ih hs
      exact ⟨.escaped hc hbody, rfl⟩
    | case5 => cases h
    | case6 c s hq hb hb' ih =>
      have hslash : c ≠ '\\' := by
        intro hc
        cases s with
        | nil => exact hb' hc rfl
        | cons d s => exact hb d s hc rfl
      obtain ⟨⟨inner, after⟩, hs, he⟩ := Option.map_eq_some_iff.mp h
      obtain ⟨rfl, rfl⟩ := Prod.mk.inj he
      obtain ⟨hbody, rfl⟩ := ih hs
      exact ⟨.plain hq hslash hbody, rfl⟩
  · rintro ⟨hbody, rfl⟩
    exact literalBody?_append hbody rest

/-! One lexeme. -/

/-- What is taken at a character that begins no comment, literal or arrow. -/
def plainLexeme? (c : Char) (s : List Char) : Option (Lexeme × List Char) :=
  if isNameChar c then
    match component? (nameRest s).2 with
    | some (component, after) => some (.node (c :: (nameRest s).1) component, after)
    | none => some (.word (c :: (nameRest s).1), (nameRest s).2)
  else if c = ',' ∨ c = '\n' then some (.separator c, s)
  else if isGap c then some (.blanks (c :: s.takeWhile isGap), s.dropWhile isGap)
  else none

theorem lexeme?_cases (s : List Char) : s = [] ∨ (∃ t, s = '#' :: t) ∨ (∃ t, s = '\x27' :: t) ∨
    (∃ t, s = '-' :: '>' :: t) ∨ ∃ c t, s = c :: t ∧ lexeme? s = plainLexeme? c t := by
  unfold lexeme?
  split
  · exact .inl rfl
  · exact .inr (.inl ⟨_, rfl⟩)
  · exact .inr (.inr (.inl ⟨_, rfl⟩))
  · exact .inr (.inr (.inr (.inl ⟨_, rfl⟩)))
  · exact .inr (.inr (.inr (.inr ⟨_, _, rfl, rfl⟩)))

theorem lexeme?_literal {body : List Char} (h : IsLiteralBody body) (after : List Char) :
    lexeme? ('\x27' :: (body ++ '\x27' :: after)) = some (.literal body, after) :=
  congrArg (Option.map fun found : List Char × List Char => (Lexeme.literal found.1, found.2))
    (literalBody?_append h after)

/-- A character that begins a name, a separator or blanks begins nothing else. -/
theorem lexeme?_cons {c : Char} (s : List Char) (h : c ∉ ['#', '\x27', '-']) :
    lexeme? (c :: s) = plainLexeme? c s := by
  rcases lexeme?_cases (c :: s) with hs | ⟨t, hs⟩ | ⟨t, hs⟩ | ⟨t, hs⟩ | ⟨d, t, hs, hplain⟩
  · cases hs
  · exact absurd (by simp [(List.cons.inj hs).1]) h
  · exact absurd (by simp [(List.cons.inj hs).1]) h
  · exact absurd (by simp [(List.cons.inj hs).1]) h
  · obtain ⟨rfl, rfl⟩ := List.cons.inj hs
    exact hplain

theorem not_mem_marks_of_isNameChar {c : Char} (h : isNameChar c = true) :
    c ∉ ['#', '\x27', '-'] := by
  have hmarks : ['#', '\x27', '-'].any isNameChar = false := by decide
  intro hc
  rw [List.any_eq_false] at hmarks
  exact hmarks c hc h

theorem lexeme?_name {c : Char} (h : isNameChar c = true) (s : List Char) : lexeme? (c :: s) =
    match component? (nameRest s).2 with
    | some (component, after) => some (.node (c :: (nameRest s).1) component, after)
    | none => some (.word (c :: (nameRest s).1), (nameRest s).2) := by
  rw [lexeme?_cons s (not_mem_marks_of_isNameChar h), plainLexeme?, if_pos h]

theorem plain_of_isGap {c : Char} (h : isGap c = true) :
    isNameChar c = false ∧ c ∉ ['#', '\x27', '-'] ∧ ¬ (c = ',' ∨ c = '\n') := by
  simp only [isGap, Bool.or_eq_true, beq_iff_eq] at h
  rcases h with (rfl | rfl) | rfl <;> decide

theorem lexeme?_blanks {c : Char} (h : isGap c = true) (s : List Char) :
    lexeme? (c :: s) = some (.blanks (c :: s.takeWhile isGap), s.dropWhile isGap) := by
  obtain ⟨hname, hmarks, hseparator⟩ := plain_of_isGap h
  rw [lexeme?_cons s hmarks, plainLexeme?, if_neg (by simp [hname]), if_neg hseparator, if_pos h]

/-- How a lexeme is taken from the start of a text, and what is left of the text after it. -/
inductive Lexeme.Takes : List Char → Lexeme → List Char → Prop
  | comment (rest : List Char) :
    Takes ('#' :: rest) (.comment (rest.takeWhile (· ≠ '\n'))) (rest.dropWhile (· ≠ '\n'))
  | literal {body : List Char} (h : IsLiteralBody body) (after : List Char) :
    Takes ('\x27' :: (body ++ '\x27' :: after)) (.literal body) after
  | arrow (after : List Char) : Takes ('-' :: '>' :: after) .arrow after
  | node {c : Char} {rest component after : List Char} (hc : isNameChar c = true)
    (h : component? (nameRest rest).2 = some (component, after)) :
    Takes (c :: rest) (.node (c :: (nameRest rest).1) component) after
  | word {c : Char} {rest : List Char} (hc : isNameChar c = true)
    (h : component? (nameRest rest).2 = none) :
    Takes (c :: rest) (.word (c :: (nameRest rest).1)) (nameRest rest).2
  | separator {c : Char} (hc : c = ',' ∨ c = '\n') (after : List Char) :
    Takes (c :: after) (.separator c) after
  | blanks {c : Char} (hc : isGap c = true) (rest : List Char) :
    Takes (c :: rest) (.blanks (c :: rest.takeWhile isGap)) (rest.dropWhile isGap)

theorem takes_of_plainLexeme? {c : Char} {s after : List Char} {l : Lexeme}
    (h : plainLexeme? c s = some (l, after)) : l.Takes (c :: s) after := by
  unfold plainLexeme? at h
  split at h
  · next hc =>
    split at h
    · next component rest hcomponent =>
      obtain ⟨rfl, rfl⟩ := Prod.mk.inj (Option.some.inj h)
      exact .node hc hcomponent
    · next hcomponent =>
      obtain ⟨rfl, rfl⟩ := Prod.mk.inj (Option.some.inj h)
      exact .word hc hcomponent
  · split at h
    · next hseparator =>
      obtain ⟨rfl, rfl⟩ := Prod.mk.inj (Option.some.inj h)
      exact .separator hseparator s
    · split at h
      · next hgap =>
        obtain ⟨rfl, rfl⟩ := Prod.mk.inj (Option.some.inj h)
        exact .blanks hgap s
      · cases h

theorem lexeme?_eq_some_iff {s after : List Char} {l : Lexeme} :
    lexeme? s = some (l, after) ↔ l.Takes s after := by
  constructor
  · intro h
    rcases lexeme?_cases s with rfl | ⟨t, rfl⟩ | ⟨t, rfl⟩ | ⟨t, rfl⟩ | ⟨c, t, rfl, hplain⟩
    · cases h
    · obtain ⟨rfl, rfl⟩ := Prod.mk.inj (Option.some.inj h)
      exact .comment t
    · obtain ⟨⟨body, rest⟩, hs, he⟩ := Option.map_eq_some_iff.mp h
      obtain ⟨rfl, rfl⟩ := Prod.mk.inj he
      obtain ⟨hbody, rfl⟩ := literalBody?_eq_some_iff.mp hs
      exact .literal hbody rest
    · obtain ⟨rfl, rfl⟩ := Prod.mk.inj (Option.some.inj h)
      exact .arrow t
    · exact takes_of_plainLexeme? (hplain.symm.trans h)
  · intro h
    cases h with
    | comment rest => rfl
    | literal hbody after => exact lexeme?_literal hbody after
    | arrow after => rfl
    | node hc h => rw [lexeme?_name hc, h]
    | word hc h => rw [lexeme?_name hc, h]
    | separator hc after => rcases hc with rfl | rfl <;> rfl
    | blanks hc rest => exact lexeme?_blanks hc rest

theorem Lexeme.text_literal_append (body after : List Char) :
    (Lexeme.literal body).text ++ after = '\x27' :: (body ++ '\x27' :: after) := by
  simp [Lexeme.text]

theorem lexeme?_sound {s after : List Char} {l : Lexeme} (h : lexeme? s = some (l, after)) :
    l.Valid ∧ s = l.text ++ after := by
  have hname {c : Char} (hc : isNameChar c = true) (rest : List Char) :
      IsName (c :: (nameRest rest).1) :=
    isName_iff.mpr ⟨c, _, rfl, hc, (nameRest_sound rest).2⟩
  cases lexeme?_eq_some_iff.mp h with
  | comment rest =>
    refine ⟨fun hmem => ?_, by simp [Lexeme.text, List.takeWhile_append_dropWhile]⟩
    simpa using List.mem_takeWhile_imp hmem
  | @literal body hbody after => exact ⟨hbody, (Lexeme.text_literal_append body after).symm⟩
  | arrow after => exact ⟨trivial, rfl⟩
  | @node c rest component after hc h =>
    obtain ⟨hchars, hrest⟩ := component?_eq_some_iff.mp h
    have htext := (nameRest_sound rest).1
    rw [hrest] at htext
    exact ⟨⟨hname hc rest, hchars⟩, (congrArg (c :: ·) htext).trans (by simp [Lexeme.text])⟩
  | @word c rest hc h =>
    exact ⟨hname hc rest, congrArg (c :: ·) (nameRest_sound rest).1⟩
  | separator hc after => exact ⟨hc, rfl⟩
  | blanks hc rest =>
    refine ⟨⟨by simp, ?_⟩, by simp [Lexeme.text, List.takeWhile_append_dropWhile]⟩
    simpa using ⟨hc, fun d hd => List.mem_takeWhile_imp hd⟩

theorem lexeme?_isSome_of_valid {l : Lexeme} (h : l.Valid) (after : List Char) :
    (lexeme? (l.text ++ after)).isSome = true := by
  have hname {s : List Char} (hs : IsName s) (rest : List Char) :
      (lexeme? (s ++ rest)).isSome = true := by
    obtain ⟨c, t, rfl, hc, -⟩ := isName_iff.mp hs
    rw [List.cons_append, lexeme?_name hc]
    split <;> rfl
  cases l with
  | comment body => rfl
  | literal body =>
    rw [Lexeme.text_literal_append, lexeme?_literal h]
    rfl
  | arrow => rfl
  | node id component =>
    rw [Lexeme.text, List.append_assoc, List.append_assoc]
    exact hname h.1 _
  | word text => exact hname h after
  | separator c =>
    rcases h with rfl | rfl
    · rfl
    · rfl
  | blanks text =>
    obtain ⟨c, t, rfl⟩ := List.exists_cons_of_ne_nil h.1
    rw [Lexeme.text, List.cons_append, lexeme?_blanks (h.2 c List.mem_cons_self)]
    rfl

/-- What may follow a lexeme that is taken as a whole. -/
def Lexeme.EndsBefore (rest : List Char) : Lexeme → Prop
  | .comment _ => ∀ c ∈ rest.head?, c = '\n'
  | .word _ => EndsName rest ∧ rest.head? ≠ some '('
  | .blanks _ => ∀ c ∈ rest.head?, isGap c = false
  | _ => True

theorem lexeme?_append {l : Lexeme} {rest : List Char} (h : l.Valid) (hr : l.EndsBefore rest) :
    lexeme? (l.text ++ rest) = some (l, rest) := by
  have hname {s more : List Char} (hs : IsName s) (hmore : EndsName more) :
      lexeme? (s ++ more) = match component? more with
        | some (component, after) => some (.node s component, after)
        | none => some (.word s, more) := by
    obtain ⟨c, t, rfl, hc, ht⟩ := isName_iff.mp hs
    rw [List.cons_append, lexeme?_name hc, nameRest_append ht hmore]
  cases l with
  | comment body =>
    have hbody : ∀ c ∈ body, decide (c ≠ '\n') = true := by
      intro c hc
      rw [decide_eq_true_iff]
      rintro rfl
      exact h hc
    have hstop : ∀ c ∈ rest.head?, decide (c ≠ '\n') = false := by
      intro c hc
      rw [decide_eq_false_iff_not, not_not]
      exact hr c hc
    have htake := takeWhile_append_of_stop hbody hstop
    have hdrop := dropWhile_append_of_stop hbody hstop
    exact congrArg some (Prod.ext (congrArg Lexeme.comment htake) hdrop)
  | literal body => rw [Lexeme.text_literal_append, lexeme?_literal h]
  | arrow => rfl
  | node id component =>
    have hopening : EndsName ('(' :: component ++ ')' :: rest) := by
      have hnot : isNameChar '(' = false := by decide
      intro c hc
      obtain rfl : '(' = c := by simpa using hc
      exact ⟨hnot, by decide, by decide⟩
    have htext : (Lexeme.node id component).text ++ rest =
        id ++ ('(' :: component ++ ')' :: rest) := by
      simp [Lexeme.text]
    rw [htext, hname h.1 hopening, component?_eq_some_iff.mpr ⟨h.2, rfl⟩]
  | word text =>
    have hno : component? rest = none := by
      cases hc : component? rest with
      | none => rfl
      | some found =>
        obtain ⟨component, after⟩ := found
        obtain ⟨-, rfl⟩ := component?_eq_some_iff.mp hc
        exact absurd rfl hr.2
    rw [Lexeme.text, hname h hr.1, hno]
  | separator c =>
    rcases h with rfl | rfl
    · rfl
    · rfl
  | blanks text =>
    obtain ⟨c, t, rfl⟩ := List.exists_cons_of_ne_nil h.1
    have hall := List.forall_mem_cons.mp h.2
    rw [Lexeme.text, List.cons_append, lexeme?_blanks hall.1,
      takeWhile_append_of_stop hall.2 hr, dropWhile_append_of_stop hall.2 hr]

/-- No lexeme is found just where no text of a valid lexeme begins. -/
theorem lexeme?_eq_none_iff {s : List Char} :
    lexeme? s = none ↔ ∀ (l : Lexeme) (after : List Char), l.Valid → s ≠ l.text ++ after := by
  constructor
  · rintro h l after hl rfl
    have hsome := lexeme?_isSome_of_valid hl after
    rw [h] at hsome
    cases hsome
  · intro h
    cases hs : lexeme? s with
    | none => rfl
    | some found =>
      obtain ⟨hl, he⟩ := lexeme?_sound hs
      exact absurd he (h found.1 found.2 hl)

theorem Lexeme.text_ne_nil {l : Lexeme} (h : l.Valid) : l.text ≠ [] := by
  intro hnil
  have hsome := lexeme?_isSome_of_valid h []
  rw [hnil] at hsome
  cases hsome

end FlowGraph.Program
