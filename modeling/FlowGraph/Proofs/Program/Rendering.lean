import FlowGraph.Proofs.Program.Grammar
import FlowGraph.Proofs.Program.Scan

/-! Programs as they may be written. Between the tokens of a statement stand blanks, and between
statements blanks, separators and comments. However a program is laid out, it is read as the same
chains. -/

namespace FlowGraph.Program

def escape (s : List Char) : List Char :=
  s.flatMap fun c => if c = '\x27' ∨ c = '\\' then ['\\', c] else [c]

def Token.lexeme : Token → Lexeme
  | .literal data => .literal (escape data.toList)
  | .arrow => .arrow
  | .node id component => .node id.toList component.toList
  | .word text => .word text.toList

/-- Any text can be a literal, but only a name can be a port or a node. -/
def Token.Spellable : Token → Prop
  | .literal _ => True
  | .arrow => True
  | .node id component => IsName id.toList ∧ ∀ c ∈ component.toList, isComponentChar c = true
  | .word text => IsName text.toList

instance : DecidablePred Token.Spellable
  | .literal _ => isTrue trivial
  | .arrow => isTrue trivial
  | .node _ _ => @instDecidableAnd _ _ inferInstance (decidable_of_iff _ List.all_eq_true)
  | .word text => inferInstanceAs (Decidable (IsName text.toList))

def Chain.Spellable (c : Chain) : Prop :=
  ∀ t ∈ c.tokens, t.Spellable

instance (c : Chain) : Decidable c.Spellable :=
  inferInstanceAs (Decidable (∀ t ∈ c.tokens, t.Spellable))

/-- The tokens of a statement with blanks between them. -/
inductive Spaced : List Token → List Char → Prop
  | single (t : Token) : Spaced [t] t.lexeme.text
  | cons {t : Token} {ts : List Token} {gap s : List Char} (hne : gap ≠ [])
    (hgap : ∀ c ∈ gap, isGap c = true) (h : Spaced ts s) :
    Spaced (t :: ts) (t.lexeme.text ++ gap ++ s)

/-- Text without tokens, and whether it separates statements. A comment separates them by the line
feed that ends it. -/
inductive Filler : Bool → List Char → Prop
  | nil : Filler false []
  | blank {c : Char} {b : Bool} {s : List Char} (hc : isGap c = true) (h : Filler b s) :
    Filler b (c :: s)
  | separator {c : Char} {b : Bool} {s : List Char} (hc : c = ',' ∨ c = '\n') (h : Filler b s) :
    Filler true (c :: s)
  | comment {body : List Char} {b : Bool} {s : List Char} (hbody : '\n' ∉ body)
    (h : Filler b s) : Filler true ('#' :: body ++ '\n' :: s)

/-- The texts of a list of statements. Once one has begun, a filler that separates must stand
before the next one. -/
inductive Renders : Bool → List Chain → List Char → Prop
  | nil {begun b : Bool} {s : List Char} (h : Filler b s) : Renders begun [] s
  | cons {begun b : Bool} {c : Chain} {cs : List Chain} {filler s rest : List Char}
    (hf : Filler b filler) (hb : begun = true → b = true) (hs : Spaced c.tokens s)
    (h : Renders true cs rest) : Renders begun (c :: cs) (filler ++ s ++ rest)

/-! Tokens and their lexemes. -/

theorem unescape_escape (s : List Char) : unescape (escape s) = s := by
  induction s with
  | nil => rfl
  | cons c s ih =>
    by_cases h : c = '\x27' ∨ c = '\\'
    · have he : escape (c :: s) = '\\' :: c :: escape s := by simp [escape, h]
      rw [he, unescape, ih]
    · have he : escape (c :: s) = c :: escape s := by simp [escape, h]
      rw [not_or] at h
      rw [he, unescape, ih]
      exact fun _ _ hc _ => h.2 hc

theorem isLiteralBody_escape (s : List Char) : IsLiteralBody (escape s) := by
  induction s with
  | nil => exact .nil
  | cons c s ih =>
    by_cases h : c = '\x27' ∨ c = '\\'
    · have he : escape (c :: s) = '\\' :: c :: escape s := by simp [escape, h]
      have hc : c ≠ '\n' := by
        rintro rfl
        simp at h
      exact he ▸ .escaped hc ih
    · have he : escape (c :: s) = c :: escape s := by simp [escape, h]
      rw [not_or] at h
      exact he ▸ .plain h.1 h.2 ih

theorem token?_lexeme (t : Token) : t.lexeme.token? = some t := by
  cases t with
  | literal data => simp [Token.lexeme, Lexeme.token?, unescape_escape]
  | arrow => rfl
  | node id component => simp [Token.lexeme, Lexeme.token?]
  | word text => simp [Token.lexeme, Lexeme.token?]

theorem valid_lexeme {t : Token} (h : t.Spellable) : t.lexeme.Valid := by
  cases t with
  | literal data => exact isLiteralBody_escape _
  | arrow => trivial
  | node id component => exact h
  | word text => exact h

/-- What may follow a token: the end, blanks, a separator or a comment. -/
def Breaks (s : List Char) : Prop :=
  ∀ c ∈ s.head?, isGap c = true ∨ c = ',' ∨ c = '\n' ∨ c = '#'

theorem endsBefore_lexeme {s : List Char} (h : Breaks s) (t : Token) :
    t.lexeme.EndsBefore s := by
  have hends : ∀ c ∈ s.head?, (isNameChar c = false ∧ c ≠ '-' ∧ c ≠ '>') ∧ c ≠ '(' := by
    intro c hc
    rcases h c hc with hgap | hother
    · simp only [isGap, Bool.or_eq_true, beq_iff_eq] at hgap
      rcases hgap with (rfl | rfl) | rfl <;> decide
    · rcases hother with rfl | rfl | rfl <;> decide
  cases t with
  | literal data => trivial
  | arrow => trivial
  | node id component => trivial
  | word text => exact ⟨fun c hc => (hends c hc).1, fun hc => (hends '(' hc).2 rfl⟩

/-! Reading on from the tokens of a statement that has begun. -/

/-- With the tokens of the first statement that stand before it, a text has these statements. -/
def Reads (current : List Token) (s : List Char) (statements : List (List Token)) : Prop :=
  (scan s).2 = [] ∧ clauses current (scan s).1 = statements

theorem reads_nil (current : List Token) :
    Reads current [] (if current = [] then [] else [current]) := ⟨rfl, rfl⟩

section

variable {current : List Token} {s : List Char} {statements : List (List Token)}

theorem reads_token {t : Token} (ht : t.Spellable) (hs : Breaks s)
    (h : Reads (current ++ [t]) s statements) :
    Reads current (t.lexeme.text ++ s) statements := by
  rw [Reads, scan_append (valid_lexeme ht) s (endsBefore_lexeme hs t)]
  refine ⟨h.1, ?_⟩
  rw [clauses, token?_lexeme]
  exact h.2

theorem scan_dropWhile_isGap (current : List Token) (s : List Char) :
    (scan (s.dropWhile isGap)).2 = (scan s).2 ∧
      clauses current (scan (s.dropWhile isGap)).1 = clauses current (scan s).1 := by
  cases s with
  | nil => exact ⟨rfl, rfl⟩
  | cons c s =>
    by_cases h : isGap c = true
    · rw [List.dropWhile_cons_of_pos h, scan_of_some (lexeme?_blanks h s)]
      exact ⟨rfl, rfl⟩
    · rw [List.dropWhile_cons_of_neg h]
      exact ⟨rfl, rfl⟩

theorem reads_blank {c : Char} (hc : isGap c = true) (h : Reads current s statements) :
    Reads current (c :: s) statements := by
  obtain ⟨hrest, hclauses⟩ := scan_dropWhile_isGap current s
  rw [Reads, scan_of_some (lexeme?_blanks hc s)]
  exact ⟨hrest.trans h.1, hclauses.trans h.2⟩

theorem reads_gap {gap : List Char} (hgap : ∀ c ∈ gap, isGap c = true)
    (h : Reads current s statements) : Reads current (gap ++ s) statements := by
  induction gap with
  | nil => exact h
  | cons c gap ih =>
    rw [List.forall_mem_cons] at hgap
    exact reads_blank hgap.1 (ih hgap.2)

theorem reads_separator {c : Char} (hc : c = ',' ∨ c = '\n') (h : Reads [] s statements) :
    Reads current (c :: s) (if current = [] then statements else current :: statements) := by
  have hvalid : (Lexeme.separator c).Valid := hc
  have hscan := scan_append hvalid s trivial
  rw [Lexeme.text, List.singleton_append] at hscan
  rw [Reads, hscan]
  refine ⟨h.1, ?_⟩
  by_cases hcurrent : current = []
  · subst hcurrent
    exact h.2
  · have h2 := h.2
    simp [clauses, Lexeme.token?, Lexeme.separates, hcurrent, h2]

theorem reads_comment {body : List Char} (hbody : '\n' ∉ body)
    (h : Reads current ('\n' :: s) statements) :
    Reads current ('#' :: body ++ '\n' :: s) statements := by
  have hvalid : (Lexeme.comment body).Valid := hbody
  have hscan := scan_append hvalid ('\n' :: s) (by simp [Lexeme.EndsBefore])
  rw [Reads]
  rw [Lexeme.text] at hscan
  rw [hscan]
  exact h

theorem reads_filler {b : Bool} {filler : List Char} (hf : Filler b filler)
    (h : Reads (if b then [] else current) s statements) :
    Reads current (filler ++ s)
      (if b = true ∧ current ≠ [] then current :: statements else statements) := by
  induction hf generalizing current with
  | nil => simpa using h
  | blank hc hf ih => exact reads_blank hc (ih h)
  | separator hc hf ih =>
    have hrest := @ih [] (by simpa using h)
    simpa [eq_comm] using @reads_separator current _ _ _ hc hrest
  | comment hbody hf ih =>
    have hrest := @ih [] (by simpa using h)
    simpa [eq_comm] using reads_comment hbody (@reads_separator current _ _ _ (.inr rfl) hrest)

theorem breaks_of_isGap {gap : List Char} (hne : gap ≠ []) (hgap : ∀ c ∈ gap, isGap c = true)
    (rest : List Char) : Breaks (gap ++ rest) := by
  obtain ⟨d, gap, rfl⟩ := List.exists_cons_of_ne_nil hne
  intro c hc
  obtain rfl : d = c := by simpa using hc
  exact .inl (hgap d List.mem_cons_self)

theorem breaks_of_filler {b : Bool} {filler : List Char} (hf : Filler b filler) :
    Breaks filler ∧ (b = true → ∀ rest, Breaks (filler ++ rest)) := by
  cases hf with
  | nil => exact ⟨by simp [Breaks], by simp⟩
  | @blank c b s hc hf =>
    have hbreaks (t : List Char) : Breaks (c :: t) := by
      intro d hd
      obtain rfl := Option.some.inj hd
      exact .inl hc
    exact ⟨hbreaks _, fun _ rest => hbreaks _⟩
  | @separator c b s hc hf =>
    have hbreaks (t : List Char) : Breaks (c :: t) := by
      intro d hd
      obtain rfl := Option.some.inj hd
      exact .inr (hc.imp_right .inl)
    exact ⟨hbreaks _, fun _ rest => hbreaks _⟩
  | comment hbody hf => exact ⟨by simp [Breaks], fun _ rest => by simp [Breaks]⟩

theorem breaks_of_renders {cs : List Chain} (h : Renders true cs s) : Breaks s := by
  cases h with
  | nil hf => exact (breaks_of_filler hf).1
  | cons hf hb hs h =>
    rw [List.append_assoc]
    exact (breaks_of_filler hf).2 (hb rfl) _

theorem reads_spaced {ts : List Token} {rest : List Char} (hs : Spaced ts s)
    (hspell : ∀ t ∈ ts, t.Spellable) (hrest : Breaks rest)
    (h : Reads (current ++ ts) rest statements) : Reads current (s ++ rest) statements := by
  induction hs generalizing current with
  | single t => exact reads_token (hspell t (by simp)) hrest h
  | cons hne hgap hs ih =>
    rw [List.forall_mem_cons] at hspell
    rw [List.append_assoc, List.append_assoc]
    refine reads_token hspell.1 (breaks_of_isGap hne hgap _) (reads_gap hgap ?_)
    exact ih hspell.2 (by simpa using h)

/-- The tokens of a statement that has begun and was not ended stand before the others. -/
theorem reads_renders {begun : Bool} {cs : List Chain} (hr : Renders begun cs s)
    (hspell : ∀ c ∈ cs, c.Spellable) (hcurrent : current ≠ [] → begun = true) :
    Reads current s ((if current = [] then [] else [current]) ++ cs.map Chain.tokens) := by
  induction hr generalizing current with
  | @nil begun b filler hf =>
    have hread := reads_filler hf (reads_nil (if b = true then [] else current))
    rw [List.append_nil] at hread
    cases b with
    | true => simpa [eq_comm] using hread
    | false => simpa using hread
  | @cons begun b c cs filler t rest hf hb hs hr ih =>
    rw [List.forall_mem_cons] at hspell
    have hne : c.tokens ≠ [] := by
      rintro hnil
      rw [hnil] at hs
      cases hs
    have hrest := @ih c.tokens hspell.2 fun _ => rfl
    rw [if_neg hne] at hrest
    have hstatement : Reads [] (t ++ rest) (c.tokens :: cs.map Chain.tokens) :=
      reads_spaced hs hspell.1 (breaks_of_renders hr) hrest
    rw [List.append_assoc]
    by_cases hnil : current = []
    · subst hnil
      have hread := @reads_filler [] _ _ _ _ hf (by simpa using hstatement)
      simpa using hread
    · obtain rfl := hb (hcurrent hnil)
      have hread := @reads_filler current _ _ _ _ hf hstatement
      simpa [hnil] using hread

theorem tokenize_of_reads (h : Reads [] s statements) : ∃ located,
    tokenize s = .ok located ∧ located.map (·.map (·.token)) = statements := by
  refine ⟨group 1 [] (scan s).1, tokenize_eq_ok_iff.mpr ⟨h.1, rfl⟩, ?_⟩
  rw [map_group]
  exact h.2

end

/-- However spellable chains are laid out, the text has exactly their tokens, statement by
statement, and stands for exactly their connections, in order. -/
theorem parse_rendered_chains {chains : List Chain} {text : String}
    (hspell : ∀ c ∈ chains, c.Spellable) (hr : Renders false chains text.toList)
    (name : String) :
    (∃ statements, tokenize text.toList = .ok statements ∧
      statements.map (·.map (·.token)) = chains.map Chain.tokens) ∧
    ∃ p, parse text name = .ok p ∧ p = ofStatements name (chains.map Chain.statement) ∧
      p.connections = chains.flatMap Chain.connections := by
  have hread := @reads_renders [] _ _ _ hr hspell (by simp)
  obtain ⟨statements, htokens, hmap⟩ := tokenize_of_reads hread
  refine ⟨⟨statements, htokens, hmap⟩, _, ?_, rfl, ?_⟩
  · rw [parse, htokens]
    have hstatements := mapM_readStatement_of_chains hmap
    exact Outcome.bind_eq_ok_iff.mpr ⟨_, rfl, Outcome.bind_eq_ok_iff.mpr ⟨_, hstatements, rfl⟩⟩
  · simp [ofStatements, List.flatMap_map, Chain.statement]

/-- A comment, a literal with quotes, and names that end in hyphens. -/
def wideText : String :=
  " # a, -> 'b'\n'it\\'s # \\\\ ->' ->\tIN- \r a.b-(x'#,->y),\n\t,A OUT -> in B() o -> é C--# end\n"

def wideChains : List Chain :=
  [⟨.literal "it's # \\ ->", [], ⟨"IN-", ⟨"a.b-", some "x'#,->y"⟩⟩⟩,
    ⟨.port ⟨"A", none⟩ "OUT", [(⟨"in", ⟨"B", some ""⟩⟩, "o")], ⟨"é", ⟨"C--", none⟩⟩⟩]

theorem renders_wideText : Renders false wideChains wideText.toList := by
  have hopening : Filler true (' ' :: ('#' :: " a, -> 'b'".toList ++ ['\n'])) :=
    .blank rfl (.comment (by decide) .nil)
  have hbetween : Filler true [',', '\n', '\t', ','] :=
    .separator (.inl rfl) (.separator (.inr rfl) (.blank rfl (.separator (.inl rfl) .nil)))
  have hclosing : Filler true ('#' :: " end".toList ++ ['\n']) := .comment (by decide) .nil
  have hspaced {t : Token} {ts : List Token} {s : List Char} (d : Char) (gap : List Char)
      (hgap : (d :: gap).all isGap = true) (hs : Spaced ts s) :
      Spaced (t :: ts) (t.lexeme.text ++ d :: gap ++ s) :=
    .cons (List.cons_ne_nil d gap) (List.all_eq_true.mp hgap) hs
  have hone {t : Token} {ts : List Token} {s : List Char} (hs : Spaced ts s) :
      Spaced (t :: ts) (t.lexeme.text ++ [' '] ++ s) := hspaced ' ' [] rfl hs
  have hfirst : Spaced [.literal "it's # \\ ->", .arrow, .word "IN-", .node "a.b-" "x'#,->y"] _ :=
    hone (hspaced '\t' [] rfl (hspaced ' ' ['\r', ' '] rfl (.single _)))
  have hsecond : Spaced [.word "A", .word "OUT", .arrow, .word "in", .node "B" "", .word "o",
      .arrow, .word "é", .word "C--"] _ :=
    hone (hone (hone (hone (hone (hone (hone (hone (.single _))))))))
  have h : Renders false wideChains _ := .cons hopening (fun _ => rfl) hfirst
    (.cons hbetween (fun _ => rfl) hsecond (.nil hclosing))
  refine Eq.subst ?_ h
  decide

theorem wideText_parsed : (∀ c ∈ wideChains, c.Spellable) ∧
    Renders false wideChains wideText.toList ∧
    ∃ p, parse wideText = .ok p ∧ p.processes = [("a.b-", "x'#,->y")] ∧
      p.connections = [.initial ⟨.string "it's # \\ ->", ⟨"a.b-", "IN-"⟩⟩,
        .edge ⟨⟨"A", "OUT"⟩, ⟨"B", "in"⟩⟩, .edge ⟨⟨"B", "o"⟩, ⟨"C--", "é"⟩⟩] := by
  have hspell : ∀ c ∈ wideChains, c.Spellable := by decide
  obtain ⟨p, hp, hstatements, hconnections⟩ :=
    (parse_rendered_chains hspell renders_wideText defaultName).2
  refine ⟨hspell, renders_wideText, p, hp, ?_, hconnections.trans (by decide)⟩
  rw [hstatements]
  decide

end FlowGraph.Program
