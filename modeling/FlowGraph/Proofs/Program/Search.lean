import FlowGraph.Proofs.Program.Scan

/-! The search of a text for lexemes. At each place the longest lexeme that fits is taken. A search
may pass over what it does not know, but no text has anything of the kind: each lexeme stands where
the one before it ends, up to the end of the text or to a stray character. -/

namespace FlowGraph.Program

/-! The longest lexeme. -/

/-- A word that ends with the hyphen of an arrow cuts the arrow in two. -/
def Lexeme.CutsArrow (after : List Char) : Lexeme → Prop
  | .word text => text.getLast? = some '-' ∧ after.head? = some '>'
  | _ => False

/-- The text begins with the lexeme. -/
def Lexeme.Fits (s : List Char) (l : Lexeme) : Prop :=
  l.Valid ∧ ∃ after, s = l.text ++ after ∧ ¬ l.CutsArrow after

def Lexeme.Longest (s : List Char) (l : Lexeme) : Prop :=
  l.Fits s ∧ ∀ m : Lexeme, m.Fits s → m.text.length ≤ l.text.length

theorem nameRest_uncut {s : List Char} (h : (nameRest s).1.getLast? = some '-') :
    (nameRest s).2.head? ≠ some '>' := by
  induction s with
  | nil => simp [nameRest]
  | cons c s ih =>
    by_cases hc : (isNameChar c || c == '-' && s.head? != some '>') = true
    · simp only [nameRest, hc, if_true] at h ⊢
      rw [List.getLast?_cons] at h
      cases hlast : (nameRest s).1.getLast? with
      | some d =>
        have hd : (nameRest s).1.getLast? = some '-' := by simpa [hlast] using h
        exact ih hd
      | none =>
        -- The name ends with this character, so the text after it is what is left.
        have hnil : (nameRest s).1 = [] := List.getLast?_eq_none_iff.mp hlast
        have hrest : s = (nameRest s).2 := by simpa [hnil] using (nameRest_sound s).1
        have hhyphen : c = '-' := by simpa [hlast] using h
        have hname : isNameChar '-' = false := by decide
        rw [← hrest]
        simpa [hhyphen, hname] using hc
    · simp [nameRest, hc] at h

theorem not_cutsArrow_of_takes {s after : List Char} {l : Lexeme} (h : l.Takes s after) :
    ¬ l.CutsArrow after := by
  cases h with
  | @word c rest hc h =>
    have hname : nameRest (c :: rest) = (c :: (nameRest rest).1, (nameRest rest).2) := by
      simp [nameRest, hc]
    have huncut := @nameRest_uncut (c :: rest)
    rw [hname] at huncut
    rintro ⟨hlast, hhead⟩
    exact huncut hlast hhead
  | _ => exact id

theorem fits_of_lexeme? {s after : List Char} {l : Lexeme} (h : lexeme? s = some (l, after)) :
    l.Fits s := by
  obtain ⟨hl, he⟩ := lexeme?_sound h
  exact ⟨hl, after, he, not_cutsArrow_of_takes (lexeme?_eq_some_iff.mp h)⟩

theorem length_le_length_takeWhile {p : Char → Bool} {t : List Char} (h : ∀ c ∈ t, p c = true)
    (rest : List Char) : t.length ≤ ((t ++ rest).takeWhile p).length := by
  rw [List.takeWhile_append_of_pos h, List.length_append]
  exact Nat.le_add_right _ _

/-- Where a lexeme fits, one is taken that is no shorter. -/
theorem exists_lexeme?_of_fits {s : List Char} {m : Lexeme} (h : m.Fits s) :
    ∃ l after, lexeme? s = some (l, after) ∧ m.text.length ≤ l.text.length := by
  obtain ⟨hm, rest, rfl, hcut⟩ := h
  cases m with
  | comment body =>
    have hbody : ∀ c ∈ body, decide (c ≠ '\n') = true := by
      intro c hc
      rw [decide_eq_true_iff]
      rintro rfl
      exact hm hc
    exact ⟨_, _, rfl, Nat.succ_le_succ (length_le_length_takeWhile hbody rest)⟩
  | literal body => exact ⟨_, _, lexeme?_append hm trivial, le_refl _⟩
  | arrow => exact ⟨_, _, lexeme?_append hm trivial, le_refl _⟩
  | node id component => exact ⟨_, _, lexeme?_append hm trivial, le_refl _⟩
  | word text =>
    obtain ⟨c, name, rfl, hc, hname⟩ := isName_iff.mp hm
    have huncut : name.getLast? = some '-' → rest.head? ≠ some '>' := by
      intro hlast hhead
      exact hcut ⟨by rw [List.getLast?_cons, hlast, Option.getD_some], hhead⟩
    have hlonger : (c :: name).length ≤ (c :: (name ++ (nameRest rest).1)).length := by
      simp only [List.length_cons, List.length_append]
      omega
    rw [Lexeme.text, List.cons_append, lexeme?_name hc,
      nameRest_append_of_uncut hname huncut]
    split
    · refine ⟨_, _, rfl, hlonger.trans ?_⟩
      rw [Lexeme.text, List.append_assoc, List.length_append]
      exact Nat.le_add_right _ _
    · exact ⟨_, _, rfl, hlonger⟩
  | separator c => exact ⟨_, _, lexeme?_append hm trivial, le_refl _⟩
  | blanks text =>
    obtain ⟨c, gap, rfl⟩ := List.exists_cons_of_ne_nil hm.1
    have hgap := List.forall_mem_cons.mp hm.2
    refine ⟨_, _, lexeme?_blanks hgap.1 (gap ++ rest), ?_⟩
    exact Nat.succ_le_succ (length_le_length_takeWhile hgap.2 rest)

theorem Lexeme.eq_of_text_eq {l m : Lexeme} (hl : l.Valid) (hm : m.Valid) (h : l.text = m.text) :
    l = m := by
  have halone {k : Lexeme} (hk : k.Valid) : lexeme? k.text = some (k, []) := by
    have hend : k.EndsBefore [] := by cases k <;> simp [Lexeme.EndsBefore, EndsName]
    simpa using lexeme?_append hk hend
  have he := halone hl
  rw [h, halone hm] at he
  exact (Prod.mk.inj (Option.some.inj he)).1.symm

/-- The order in which the forms are tried makes no difference: the longest lexeme is taken. -/
theorem lexeme?_eq_some_iff_longest {s after : List Char} {l : Lexeme} :
    lexeme? s = some (l, after) ↔ l.Longest s ∧ s = l.text ++ after := by
  constructor
  · intro h
    refine ⟨⟨fits_of_lexeme? h, fun m hm => ?_⟩, (lexeme?_sound h).2⟩
    obtain ⟨k, rest, hk, hle⟩ := exists_lexeme?_of_fits hm
    rw [h] at hk
    obtain ⟨rfl, -⟩ := Prod.mk.inj (Option.some.inj hk)
    exact hle
  · rintro ⟨⟨hfits, hlongest⟩, he⟩
    obtain ⟨k, rest, hk, hle⟩ := exists_lexeme?_of_fits hfits
    have hlength : k.text.length = l.text.length :=
      Nat.le_antisymm (hlongest k (fits_of_lexeme? hk)) hle
    obtain ⟨hvalid, htext⟩ := lexeme?_sound hk
    obtain ⟨hsame, rfl⟩ := List.append_inj (htext.symm.trans he) hlength
    rw [hk, Lexeme.eq_of_text_eq hvalid hfits.1 hsame]

theorem Lexeme.Longest.unique {s : List Char} {l m : Lexeme} (hl : l.Longest s)
    (hm : m.Longest s) : l = m := by
  obtain ⟨-, after, htext, -⟩ := hl.1
  obtain ⟨-, rest, hrest, -⟩ := hm.1
  have hsame := lexeme?_eq_some_iff_longest.mpr ⟨hl, htext⟩
  rw [lexeme?_eq_some_iff_longest.mpr ⟨hm, hrest⟩] at hsame
  exact (Prod.mk.inj (Option.some.inj hsame)).1.symm

theorem lexeme?_eq_none_iff_not_fits {s : List Char} :
    lexeme? s = none ↔ ∀ l : Lexeme, ¬ l.Fits s := by
  constructor
  · rintro h l ⟨hl, after, he, -⟩
    exact lexeme?_eq_none_iff.mp h l after hl he
  · intro h
    cases hs : lexeme? s with
    | none => rfl
    | some found => exact absurd (fits_of_lexeme? hs) (h found.1)

/-! Places. -/

/-- A lexeme and the number of characters before it. -/
structure Placed where
  start : Nat
  lexeme : Lexeme
  deriving DecidableEq, Repr

/-- Lexemes one after the other, the first one at a given place. -/
def placed (start : Nat) : List Lexeme → List Placed
  | [] => []
  | l :: rest => ⟨start, l⟩ :: placed (start + l.text.length) rest

/-- The token of a lexeme in a text, on the line that the line feeds before the lexeme tell. -/
def Placed.located? (s : List Char) (p : Placed) : Option Located :=
  p.lexeme.token?.map (⟨·, 1 + Text.countNewlines (s.take p.start)⟩)

theorem filterMap_located?_placed (before : List Char) (lexemes : List Lexeme)
    (rest : List Char) :
    (placed before.length lexemes).filterMap
        (Placed.located? (before ++ (lexemes.flatMap Lexeme.text ++ rest))) =
      locate (1 + Text.countNewlines before) lexemes := by
  induction lexemes generalizing before with
  | nil => rfl
  | cons l lexemes ih =>
    have hrest := ih (before ++ l.text)
    rw [List.length_append, countNewlines_append, List.append_assoc, ← Nat.add_assoc] at hrest
    rw [placed, locate, List.flatMap_cons, List.append_assoc]
    cases h : l.token? with
    | none => simp [Placed.located?, h, hrest]
    | some token => simp [Placed.located?, h, hrest]

/-! The search. -/

/-- A search takes notice of a lexeme, or else of a character that is no line feed. -/
def Noticed (s : List Char) : Prop :=
  (∃ l : Lexeme, l.Fits s) ∨ ∃ c ∈ s.head?, c ≠ '\n'

/-- From one place the search goes on to the first where it takes notice. -/
structure Noticed.First (s : List Char) (k j : Nat) : Prop where
  le : k ≤ j
  noticed : Noticed (s.drop j)
  passed : ∀ i, k ≤ i → i < j → ¬ Noticed (s.drop i)

/-- What a search of a text finds from a place on, and where a stray character ends it. -/
inductive Search (s : List Char) : Nat → List Placed → Option Nat → Prop
  | ended {k : Nat} (h : ∀ j, k ≤ j → ¬ Noticed (s.drop j)) : Search s k [] none
  | stray {k j : Nat} (hj : Noticed.First s k j) (h : ∀ l : Lexeme, ¬ l.Fits (s.drop j)) :
    Search s k [] (some j)
  | found {k j : Nat} {l : Lexeme} {later : List Placed} {stray : Option Nat}
    (hj : Noticed.First s k j) (hl : l.Longest (s.drop j))
    (h : Search s (j + l.text.length) later stray) : Search s k (⟨j, l⟩ :: later) stray

/-- Every character is noticed, for a line feed is a separator. -/
theorem noticed_iff {s : List Char} : Noticed s ↔ s ≠ [] := by
  constructor
  · rintro (⟨l, hl, after, rfl, -⟩ | ⟨c, hc, -⟩) hnil
    · exact Lexeme.text_ne_nil hl (List.append_eq_nil_iff.mp hnil).1
    · rw [hnil] at hc
      cases hc
  · intro hne
    obtain ⟨c, rest, rfl⟩ := List.exists_cons_of_ne_nil hne
    by_cases hc : c = '\n'
    · exact .inl ⟨.separator c, .inr hc, rest, rfl, id⟩
    · exact .inr ⟨c, rfl, hc⟩

/-- Nothing is passed over. -/
theorem first_iff {s : List Char} {k j : Nat} :
    Noticed.First s k j ↔ k = j ∧ k < s.length := by
  have hdrop (i : Nat) : Noticed (s.drop i) ↔ i < s.length := by
    rw [noticed_iff, ne_eq, List.drop_eq_nil_iff, not_le]
  constructor
  · rintro ⟨hle, hj, hpassed⟩
    rw [hdrop] at hj
    have hk : ¬ k < j := fun hlt => hpassed k (le_refl k) hlt ((hdrop k).mpr (by omega))
    omega
  · rintro ⟨rfl, hlt⟩
    exact ⟨le_refl k, (hdrop k).mpr hlt, fun i hi hj => absurd hi (by omega)⟩

theorem search_iff_of_none {s : List Char} {k : Nat} (h : lexeme? (s.drop k) = none)
    (found : List Placed) (stray : Option Nat) : Search s k found stray ↔
      found = [] ∧ stray = if s.drop k = [] then none else some k := by
  have hfits := lexeme?_eq_none_iff_not_fits.mp h
  constructor
  · intro hsearch
    cases hsearch with
    | ended hend =>
      have hnil : s.drop k = [] := by
        by_contra hne
        exact hend k (le_refl k) (noticed_iff.mpr hne)
      exact ⟨rfl, by rw [if_pos hnil]⟩
    | stray hj _ =>
      obtain ⟨rfl, hlt⟩ := first_iff.mp hj
      have hne : s.drop k ≠ [] := by rwa [ne_eq, List.drop_eq_nil_iff, not_le]
      exact ⟨rfl, by rw [if_neg hne]⟩
    | found hj hl _ =>
      obtain ⟨rfl, -⟩ := first_iff.mp hj
      exact absurd hl.1 (hfits _)
  · rintro ⟨rfl, rfl⟩
    by_cases hnil : s.drop k = []
    · rw [if_pos hnil]
      refine .ended fun j hj hnoticed => noticed_iff.mp hnoticed ?_
      rw [List.drop_eq_nil_iff] at hnil ⊢
      omega
    · rw [if_neg hnil]
      have hlt : k < s.length := by rwa [List.drop_eq_nil_iff, not_le] at hnil
      exact .stray (first_iff.mpr ⟨rfl, hlt⟩) hfits

theorem search_iff_of_some {s after : List Char} {k : Nat} {l : Lexeme}
    (h : lexeme? (s.drop k) = some (l, after)) (found : List Placed) (stray : Option Nat) :
    Search s k found stray ↔
      ∃ later, found = ⟨k, l⟩ :: later ∧ Search s (k + l.text.length) later stray := by
  have hlongest := (lexeme?_eq_some_iff_longest.mp h).1
  have hlt : k < s.length := by
    have hshorter := length_lt_of_lexeme? h
    rw [List.length_drop] at hshorter
    omega
  constructor
  · intro hsearch
    cases hsearch with
    | ended hend => exact absurd (.inl ⟨l, hlongest.1⟩) (hend k (le_refl k))
    | stray hj hfits =>
      obtain ⟨rfl, -⟩ := first_iff.mp hj
      exact absurd hlongest.1 (hfits l)
    | found hj hm hlater =>
      obtain ⟨rfl, -⟩ := first_iff.mp hj
      obtain rfl := hm.unique hlongest
      exact ⟨_, rfl, hlater⟩
  · rintro ⟨later, rfl, hlater⟩
    exact .found (first_iff.mpr ⟨rfl, hlt⟩) hlongest hlater

/-- Where a stray character ends the search that begins at a place. -/
def strayFrom (k : Nat) (s : List Char) : Option Nat :=
  if (scan s).2 = [] then none else some (k + ((scan s).1.flatMap Lexeme.text).length)

theorem strayFrom_of_some {s after : List Char} {l : Lexeme} (h : lexeme? s = some (l, after))
    (k : Nat) : strayFrom k s = strayFrom (k + l.text.length) after := by
  unfold strayFrom
  rw [scan_of_some h]
  by_cases hrest : (scan after).2 = []
  · rw [if_pos hrest, if_pos hrest]
  · rw [if_neg hrest, if_neg hrest, List.flatMap_cons, List.length_append, Nat.add_assoc]

/-- From any place on the search finds what the scan takes there, and nothing else. -/
theorem search_iff {s u : List Char} {k : Nat} (hu : s.drop k = u) {found : List Placed}
    {stray : Option Nat} :
    Search s k found stray ↔ found = placed k (scan u).1 ∧ stray = strayFrom k u := by
  induction u using scan_induction generalizing k found with
  | stop u h =>
    subst hu
    rw [search_iff_of_none h, strayFrom, scan_of_none h]
    simp [placed]
  | next u l after h ih =>
    have hafter : s.drop (k + l.text.length) = after := by
      rw [← List.drop_drop, hu, (lexeme?_sound h).2, List.drop_left]
    subst hu
    rw [search_iff_of_some h, strayFrom_of_some h, scan_of_some h, placed]
    constructor
    · rintro ⟨later, rfl, hlater⟩
      obtain ⟨rfl, rfl⟩ := (ih hafter).mp hlater
      exact ⟨rfl, rfl⟩
    · rintro ⟨rfl, rfl⟩
      exact ⟨_, rfl, (ih hafter).mpr ⟨rfl, rfl⟩⟩

theorem Search.longest {s : List Char} {k : Nat} {found : List Placed} {stray : Option Nat}
    (h : Search s k found stray) : ∀ p ∈ found, p.lexeme.Longest (s.drop p.start) := by
  induction h with
  | ended _ => simp
  | stray _ _ => simp
  | found hj hl h ih => exact List.forall_mem_cons.mpr ⟨hl, ih⟩

/-- A search that may pass over characters finds just the lexemes of the scan, each the longest
where it stands, from the first character on and with nothing between them. Either they make up
the text, and the tokens of its statements are theirs, each on the line that the line feeds before
its lexeme tell; or they end just before a character at which no lexeme begins, and this one is
reported on its line. -/
theorem search_loses_nothing (s : List Char) : ∃ lexemes rest,
    scan s = (lexemes, rest) ∧ s = lexemes.flatMap Lexeme.text ++ rest ∧
    (∀ p ∈ placed 0 lexemes, p.lexeme.text ≠ [] ∧ p.lexeme.Longest (s.drop p.start)) ∧
    (∀ found stray, Search s 0 found stray ↔ found = placed 0 lexemes ∧
      stray = if rest = [] then none else some (lexemes.flatMap Lexeme.text).length) ∧
    ((rest = [] ∧ ∃ statements, tokenize s = .ok statements ∧
        statements.flatten = (placed 0 lexemes).filterMap (Placed.located? s)) ∨
      ∃ c after, rest = c :: after ∧
        (∀ (l : Lexeme) (later : List Char), l.Valid → rest ≠ l.text ++ later) ∧
        tokenize s =
          .error ⟨.unexpected c, 1 + Text.countNewlines (lexemes.flatMap Lexeme.text)⟩) := by
  obtain ⟨htext, -, hstop⟩ := scan_sound s
  refine ⟨(scan s).1, (scan s).2, rfl, htext, fun p hp => ?_, fun found stray => ?_, ?_⟩
  · have hsearch : Search s 0 (placed 0 (scan s).1) (strayFrom 0 s) :=
      (search_iff List.drop_zero).mpr ⟨rfl, rfl⟩
    have hlongest := hsearch.longest p hp
    exact ⟨Lexeme.text_ne_nil hlongest.1.1, hlongest⟩
  · rw [search_iff List.drop_zero, strayFrom, Nat.zero_add]
  · cases hrest : (scan s).2 with
    | nil =>
      refine .inl ⟨rfl, _, tokenize_eq_ok_iff.mpr ⟨hrest, rfl⟩, ?_⟩
      have hplaced := filterMap_located?_placed [] (scan s).1 (scan s).2
      rw [List.nil_append, ← htext] at hplaced
      rw [flatten_group, List.nil_append]
      exact hplaced.symm
    | cons c after =>
      refine .inr ⟨c, after, rfl, ?_, ?_⟩
      · rw [← hrest]
        exact lexeme?_eq_none_iff.mp hstop
      · rw [tokenize_eq_error_iff.mpr ⟨c, after, hrest, rfl⟩, lineAfter_eq]

/-- A literal over two lines, a hyphen before an arrow, and a quote that is not closed. -/
example : tokenize "'a\n#' -> IN B-->x\nC '".toList = .error ⟨.unexpected '\x27', 3⟩ := by
  decide

end FlowGraph.Program
