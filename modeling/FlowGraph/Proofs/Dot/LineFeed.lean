import FlowGraph.Proofs.Dot.Lexing
import FlowGraph.Proofs.Text.Newlines

/-! The tokens of a text that goes on after a line feed. Nothing but a string, markup or a comment
between stars crosses the line feed; all other tokens and gaps of the first part are as they would
be if the text ended there. -/

namespace FlowGraph.Dot

def Language.Id.chars : Language.Id → List Char
  | .text s => s
  | .markup s => s

open FlowGraph.Dot.Language

variable {s rest b : List Char}

theorem commentEnd?_cons {c : Char} (h : ¬ (c = '*' ∧ s.head? = some '/')) :
    commentEnd? (c :: s) = commentEnd? s := by
  rw [commentEnd?]
  rintro after rfl rfl
  exact h ⟨rfl, rfl⟩

theorem not_closing {c : Char} (h : ∀ tail, c = '*' → s = '/' :: tail → False) :
    ¬ (c = '*' ∧ s.head? = some '/') := by
  rintro ⟨hc, hslash⟩
  obtain ⟨tail, rfl⟩ := List.head?_eq_some_iff.mp hslash
  exact h tail hc rfl

theorem commentEnd?_append (h : commentEnd? s = some rest) (t : List Char) :
    commentEnd? (s ++ t) = some (rest ++ t) := by
  fun_induction commentEnd? s with
  | case1 => cases h
  | case2 after =>
    cases h
    rfl
  | case3 c after hstar ih =>
    have hopen := not_closing hstar
    have hne : after ≠ [] := by
      rintro rfl
      cases h
    have hhead : (after ++ t).head? = after.head? := by
      obtain ⟨d, tail, rfl⟩ := List.exists_cons_of_ne_nil hne
      rfl
    rw [List.cons_append, commentEnd?_cons (hhead ▸ hopen), ih h]

theorem commentEnd?_append_eq_none (h : commentEnd? s = none) (hb : '*' ∉ b) :
    commentEnd? (s ++ '\n' :: b) = none := by
  have hrest : commentEnd? ('\n' :: b) = none := by
    rw [commentEnd?_cons (by simp)]
    clear h
    induction b with
    | nil => rfl
    | cons c b ih =>
      rw [List.mem_cons, not_or] at hb
      rw [commentEnd?_cons fun hc => hb.1 hc.1.symm, ih hb.2]
  fun_induction commentEnd? s with
  | case1 => exact hrest
  | case2 after => cases h
  | case3 c after hstar ih =>
    have hopen := not_closing hstar
    have hhead : ¬ (c = '*' ∧ (after ++ '\n' :: b).head? = some '/') := by
      cases after with
      | nil => simp
      | cons d tail => exact hopen
    rw [List.cons_append, commentEnd?_cons hhead, ih h]

theorem gap?_append (h : gap? s = some rest) (b : List Char) :
    gap? (s ++ '\n' :: b) = some (rest ++ '\n' :: b) := by
  unfold gap? at h
  split at h
  · next after =>
    cases h
    exact congrArg some (Text.dropWhile_append_newline rfl after b)
  · exact commentEnd?_append h _
  · next after =>
    cases h
    exact congrArg some (Text.dropWhile_append_newline rfl after b)
  · next c after hline hstar hsign =>
    split at h
    · next hblank =>
      cases h
      have hslash : c ≠ '/' := by
        rintro rfl
        cases hblank
      rw [List.cons_append, gap?_single (fun _ h => absurd h hslash) (fun _ h => absurd h hslash),
        if_pos hblank]
      rintro tail rfl htail
      cases rest with
      | nil => cases htail
      | cons d rest => exact hsign rest rfl (by rw [(List.cons.inj htail).1])
    · cases h
  · cases h

theorem gap?_append_eq_none (hs : s ≠ []) (h : gap? s = none) (hb : '*' ∉ b) :
    gap? (s ++ '\n' :: b) = none := by
  unfold gap? at h
  split at h
  · cases h
  · next after => exact commentEnd?_append_eq_none h hb
  · cases h
  · next c after hline hstar hsign =>
    split at h
    · cases h
    · next hblank =>
      have hnewline : c ≠ '\n' := by
        rintro rfl
        exact hblank rfl
      -- A slash before the line feed opens no comment.
      have hafter (d : Char) (hd : d ≠ '\n') (hopen : ∀ tail, c = '/' → after = d :: tail → False)
          (tail : List Char) (hc : c = '/') : after ++ '\n' :: b ≠ d :: tail := by
        intro htail
        cases after with
        | nil => exact hd (List.cons.inj htail).1.symm
        | cons e after => exact hopen after hc (by rw [(List.cons.inj htail).1])
      rw [List.cons_append, gap?_single (hafter '/' (by decide) hline)
        (hafter '*' (by decide) hstar) fun _ hc => absurd hc hnewline, if_neg hblank]
  · exact absurd rfl hs

theorem numeral?_of_point {fraction : List Char}
    (h : s.dropWhile Char.isDigit = '.' :: fraction) : numeral? s =
      if s.takeWhile Char.isDigit = [] ∧ fraction.takeWhile Char.isDigit = [] then none
      else some (s.takeWhile Char.isDigit ++ '.' :: fraction.takeWhile Char.isDigit,
        fraction.dropWhile Char.isDigit) := by
  simp only [numeral?, h]

theorem numeral?_of_no_point (h : (s.dropWhile Char.isDigit).head? ≠ some '.') : numeral? s =
    if s.takeWhile Char.isDigit = [] then none
    else some (s.takeWhile Char.isDigit, s.dropWhile Char.isDigit) := by
  unfold numeral?
  dsimp only
  split
  · next heq => exact absurd (by rw [heq]; rfl) h
  · rfl

theorem numeral?_append_newline (s b : List Char) : numeral? (s ++ '\n' :: b) =
    (numeral? s).map fun (n, after) => (n, after ++ '\n' :: b) := by
  have htake (s : List Char) := Text.takeWhile_append_newline (p := Char.isDigit) rfl s b
  have hdrop (s : List Char) := Text.dropWhile_append_newline (p := Char.isDigit) rfl s b
  by_cases hpoint : (s.dropWhile Char.isDigit).head? = some '.'
  · obtain ⟨fraction, hs⟩ := List.head?_eq_some_iff.mp hpoint
    have hlonger : (s ++ '\n' :: b).dropWhile Char.isDigit = '.' :: (fraction ++ '\n' :: b) := by
      rw [hdrop, hs, List.cons_append]
    rw [numeral?_of_point hs, numeral?_of_point hlonger, htake, htake, hdrop]
    split <;> rfl
  · have hlonger : ((s ++ '\n' :: b).dropWhile Char.isDigit).head? ≠ some '.' := by
      rw [hdrop]
      cases hs : s.dropWhile Char.isDigit with
      | nil => simp
      | cons c rest => simpa [hs] using hpoint
    rw [numeral?_of_no_point hpoint, numeral?_of_no_point hlonger, htake, hdrop]
    split <;> rfl

theorem not_special_of_kept {c : Char} (hescaped : ∀ tail, c = '\\' → s = '"' :: tail → False)
    (hpair : ∀ tail, c = '\\' → s = '\\' :: tail → False)
    (hline : ∀ tail, c = '\\' → s = '\n' :: tail → False) :
    c = '\\' → ∀ d ∈ s.head?, d ∉ ['"', '\\', '\n'] := by
  intro hc d hd hspecial
  obtain ⟨tail, rfl⟩ := List.head?_eq_some_iff.mp hd
  simp only [List.mem_cons, List.not_mem_nil, or_false] at hspecial
  rcases hspecial with rfl | rfl | rfl
  · exact hescaped tail hc rfl
  · exact hpair tail hc rfl
  · exact hline tail hc rfl

theorem quotedBody_append {body after : List Char} (h : quotedBody s = some (body, after))
    (t : List Char) : quotedBody (s ++ t) = some (body, after ++ t) := by
  fun_induction quotedBody s generalizing body with
  | case1 => cases h
  | case2 rest =>
    obtain ⟨rfl, rfl⟩ := Prod.mk.inj (Option.some.inj h)
    rfl
  | case3 rest ih =>
    obtain ⟨inner, hinner, rfl⟩ := exists_of_map_fst _ h
    exact congrArg (Option.map fun (s, after) => ('"' :: s, after)) (ih hinner)
  | case4 rest ih =>
    obtain ⟨inner, hinner, rfl⟩ := exists_of_map_fst (fun s => '\\' :: '\\' :: s) h
    exact congrArg (Option.map fun (s, after) => ('\\' :: '\\' :: s, after)) (ih hinner)
  | case5 rest ih => exact ih h
  | case6 c rest hquote hescaped hpair hline ih =>
    have hkept := not_special_of_kept hescaped hpair hline
    obtain ⟨inner, hinner, rfl⟩ := exists_of_map_fst _ h
    have hhead : (rest ++ t).head? = rest.head? := by
      cases rest with
      | nil => cases hinner
      | cons d tail => rfl
    rw [List.cons_append, quotedBody_kept hquote (hhead ▸ hkept), ih hinner]
    rfl

theorem token?_minus (h : ∀ d ∈ s.head?, d ∉ ['>', '-']) : token? ('-' :: s) =
    (numeral? s).map fun (n, after) => (.id (.text ('-' :: n)), after) := by
  rw [token?]
  · rintro tail rfl
    exact h '>' rfl (by decide)
  · rintro tail rfl
    exact h '-' rfl (by decide)

/-- Only strings and markup may hold the line feed. -/
theorem token?_append_newline {c : Char} (hquote : c ≠ '"') (hopen : c ≠ '<') (s b : List Char) :
    token? (c :: s ++ '\n' :: b) =
      (token? (c :: s)).map fun (t, after) => (t, after ++ '\n' :: b) := by
  by_cases hminus : c = '-'
  · subst hminus
    by_cases hmark : ∀ d ∈ s.head?, d ∉ ['>', '-']
    · have hlonger : ∀ d ∈ (s ++ '\n' :: b).head?, d ∉ ['>', '-'] := by
        cases s with
        | nil =>
          intro d hd
          obtain rfl := Option.some.inj hd
          decide
        | cons d s => exact hmark
      rw [List.cons_append, token?_minus hmark, token?_minus hlonger, numeral?_append_newline,
        Option.map_map, Option.map_map]
      rfl
    · simp only [not_forall, not_not] at hmark
      obtain ⟨d, hd, hkind⟩ := hmark
      obtain ⟨tail, rfl⟩ := List.head?_eq_some_iff.mp hd
      simp only [List.mem_cons, List.not_mem_nil, or_false] at hkind
      rcases hkind with rfl | rfl <;> rfl
  · have hplain : c ∉ ['"', '<', '-'] := by simp [hquote, hopen, hminus]
    have htake := Text.takeWhile_append_newline (p := Language.isNameChar) rfl (c :: s) b
    have hdrop := Text.dropWhile_append_newline (p := Language.isNameChar) rfl (c :: s) b
    have hnumeral := numeral?_append_newline (c :: s) b
    rw [List.cons_append] at htake hdrop hnumeral ⊢
    rw [token?_cons hplain, token?_cons hplain, htake, hdrop, hnumeral]
    split
    · rfl
    split
    · rfl
    · rw [Option.map_map, Option.map_map]
      rfl

theorem token?_append {t : Token} (h : token? s = some (t, rest)) (b : List Char) :
    token? (s ++ '\n' :: b) = some (t, rest ++ '\n' :: b) := by
  cases s with
  | nil => cases h
  | cons c s =>
    by_cases hquote : c = '"'
    · subst hquote
      obtain ⟨body, hbody, rfl⟩ := exists_of_map_fst (fun s => Token.id (.text s)) h
      rw [List.cons_append, token?_string, quotedBody_append hbody]
      rfl
    by_cases hopen : c = '<'
    · subst hopen
      obtain ⟨body, hbody, rfl⟩ := exists_of_map_fst (fun s => Token.id (.markup s)) h
      obtain ⟨rfl, hb⟩ := markupBody_eq_some_iff.mp hbody
      rw [List.cons_append, token?_markup, List.append_assoc, List.cons_append,
        markupBody_append hb]
      rfl
    · rw [token?_append_newline hquote hopen, h]
      rfl

/-! Strings and markup that are open at the line feed. -/

/-- In a string the first text is read as the second, whatever comes after it. -/
def Passes (first read : List Char) : Prop :=
  ∀ t, quotedBody (first ++ t) = (quotedBody t).map fun (s, after) => (read ++ s, after)

theorem Passes.append {first read second other : List Char} (h : Passes first read)
    (h' : Passes second other) : Passes (first ++ second) (read ++ other) := by
  intro t
  rw [List.append_assoc, h, h', Option.map_map]
  congr 1
  funext found
  simp

theorem passes_word {word : List Char} (hquote : '"' ∉ word) (hslash : '\\' ∉ word) :
    Passes word word := by
  induction word with
  | nil => exact fun t => Option.map_id'.symm
  | cons c word ih =>
    rw [List.mem_cons, not_or] at hquote hslash
    have hc : Passes [c] [c] := quotedBody_cons (Ne.symm hquote.1) (Ne.symm hslash.1)
    exact hc.append (ih hquote.2 hslash.2)

/-- The line feed may be taken away, but nothing after it is. -/
theorem exists_passes_of_open (h : quotedBody s = none) : ∃ read, Passes (s ++ ['\n']) read := by
  fun_induction quotedBody s with
  | case1 => exact ⟨['\n'], passes_word (by decide) (by decide)⟩
  | case2 rest => cases h
  | case3 rest ih =>
    obtain ⟨read, hread⟩ := ih (Option.map_eq_none_iff.mp h)
    have hpair : Passes ['\\', '"'] ['"'] := fun t => rfl
    exact ⟨_, hpair.append hread⟩
  | case4 rest ih =>
    obtain ⟨read, hread⟩ := ih (Option.map_eq_none_iff.mp h)
    have hpair : Passes ['\\', '\\'] ['\\', '\\'] := fun t => rfl
    exact ⟨_, hpair.append hread⟩
  | case5 rest ih =>
    obtain ⟨read, hread⟩ := ih h
    have hpair : Passes ['\\', '\n'] [] := fun t => Option.map_id'.symm
    exact ⟨_, hpair.append hread⟩
  | case6 c rest hquote hescaped hpair hline ih =>
    have hkept := not_special_of_kept hescaped hpair hline
    obtain ⟨read, hread⟩ := ih (Option.map_eq_none_iff.mp h)
    cases rest with
    | nil =>
      -- A backslash there takes the line feed away.
      by_cases hslash : c = '\\'
      · subst hslash
        exact ⟨[], fun t => Option.map_id'.symm⟩
      · exact ⟨[c, '\n'], passes_word (by simp [Ne.symm hquote]) (by simp [Ne.symm hslash])⟩
    | cons d rest =>
      refine ⟨c :: read, fun t => ?_⟩
      have hcons : quotedBody (c :: (d :: rest ++ ['\n'] ++ t)) =
          (quotedBody (d :: rest ++ ['\n'] ++ t)).map fun (s, after) => (c :: s, after) :=
        quotedBody_kept hquote hkept
      rw [List.cons_append, List.cons_append, hcons, hread t, Option.map_map]
      rfl

theorem word_in_markup {word tail body : List Char} (hclose : '>' ∉ word)
    (hopen : markupBody 0 s = none) (htext : s ++ '\n' :: (word ++ tail) = body ++ '>' :: rest)
    (hbalanced : Balanced 0 body) : word ⊆ body ∧ rest <:+ tail := by
  rcases List.append_eq_append_iff.mp htext with ⟨more, rfl, hmore⟩ | ⟨more, rfl, hmore⟩
  · have hline : ('\n' :: word) ++ tail = more ++ '>' :: rest := hmore
    rcases List.append_eq_append_iff.mp hline with ⟨later, rfl, hlater⟩ | ⟨later, hword, hlater⟩
    · refine ⟨fun d hd => by simp [hd], ?_⟩
      rw [hlater]
      exact (List.suffix_cons _ _).trans (List.suffix_append later _)
    · cases later with
      | nil =>
        rw [List.append_nil] at hword
        rw [← hword, ← List.nil_append tail, ← hlater]
        exact ⟨fun d hd => by simp [hd], List.suffix_cons _ _⟩
      | cons d later =>
        obtain ⟨rfl, -⟩ := List.cons.inj hlater
        have hmem : '>' ∈ '\n' :: word := by simp [hword]
        exact absurd hmem (by simp [hclose])
  · cases more with
    | nil => cases hmore
    | cons d more =>
      obtain ⟨rfl, -⟩ := List.cons.inj hmore
      rw [markupBody_append hbalanced] at hopen
      cases hopen

/-- A token that starts before the line feed, and ends after the word behind it. -/
theorem crosses_of_token? {word tail : List Char} {t : Token} (hs : s ≠ [])
    (hquote : '"' ∉ word) (hslash : '\\' ∉ word) (hclose : '>' ∉ word) (hnone : token? s = none)
    (h : token? (s ++ '\n' :: (word ++ tail)) = some (t, rest)) :
    ∃ i, t = .id i ∧ word ⊆ i.chars ∧ rest <:+ tail := by
  obtain ⟨c, s, rfl⟩ := List.exists_cons_of_ne_nil hs
  by_cases hstring : c = '"'
  · subst hstring
    rw [List.cons_append, token?_string] at h
    obtain ⟨body, hbody, rfl⟩ := exists_of_map_fst (fun s => Token.id (.text s)) h
    obtain ⟨read, hread⟩ := exists_passes_of_open (Option.map_eq_none_iff.mp hnone)
    have hword := hread.append (passes_word hquote hslash)
    have htext : s ++ '\n' :: (word ++ tail) = s ++ ['\n'] ++ word ++ tail := by simp
    rw [htext, hword tail] at hbody
    obtain ⟨inner, hinner, rfl⟩ := exists_of_map_fst _ hbody
    refine ⟨.text _, rfl, ?_, (quotedBody_suffix hinner).trans (List.tail_suffix _)⟩
    intro d hd
    simp [Id.chars, hd]
  by_cases hmarkup : c = '<'
  · subst hmarkup
    rw [List.cons_append, token?_markup] at h
    obtain ⟨body, hbody, rfl⟩ := exists_of_map_fst (fun s => Token.id (.markup s)) h
    obtain ⟨htext, hbalanced⟩ := markupBody_eq_some_iff.mp hbody
    obtain ⟨hword, hrest⟩ := word_in_markup hclose (Option.map_eq_none_iff.mp hnone) htext hbalanced
    exact ⟨.markup body, rfl, hword, hrest⟩
  · rw [token?_append_newline hstring hmarkup, hnone] at h
    cases h

/-- Either all tokens of the first text stay what they are, or one of them has the word in it. -/
theorem tokens?_append_newline {word tail : List Char} (hquote : '"' ∉ word) (hslash : '\\' ∉ word)
    (hclose : '>' ∉ word) (hstar : '*' ∉ word ++ tail) (s : List Char) :
    (∃ ts, tokens? s = some ts ∧ tokens? (s ++ '\n' :: (word ++ tail)) =
      (tokens? ('\n' :: (word ++ tail))).map (ts ++ ·)) ∨
    tokens? s = none ∧ ∀ all, tokens? (s ++ '\n' :: (word ++ tail)) = some all →
      ∃ before i after rest, all = before ++ .id i :: after ∧ word ⊆ i.chars ∧ rest <:+ tail ∧
        tokens? rest = some after := by
  induction s using lexing_induction with
  | nil => exact .inl ⟨[], rfl, Option.map_id'.symm⟩
  | gap s rest hgap ih =>
    rw [tokens?_of_gap hgap, tokens?_of_gap (gap?_append hgap _)]
    exact ih
  | token s t rest htoken ih =>
    rw [tokens?_of_token htoken, tokens?_of_token (token?_append htoken _)]
    rcases ih with ⟨ts, hts, hall⟩ | ⟨hnone, hcross⟩
    · refine .inl ⟨t :: ts, by rw [hts]; rfl, ?_⟩
      rw [hall, Option.map_map]
      rfl
    · refine .inr ⟨by rw [hnone]; rfl, fun all hall => ?_⟩
      obtain ⟨later, hlater, rfl⟩ := Option.map_eq_some_iff.mp hall
      obtain ⟨before, i, after, rest, rfl, hcrossed⟩ := hcross later hlater
      exact ⟨t :: before, i, after, rest, rfl, hcrossed⟩
  | stuck s hs hgap htoken =>
    -- A string or markup is open here, and it may end in what comes after the word.
    have hgap' := gap?_append_eq_none hs hgap hstar
    refine .inr ⟨tokens?_of_stuck hs hgap htoken, fun all hall => ?_⟩
    cases htoken' : token? (s ++ '\n' :: (word ++ tail)) with
    | none =>
      rw [tokens?_of_stuck (by simp) hgap' htoken'] at hall
      cases hall
    | some found =>
      obtain ⟨t, rest⟩ := found
      obtain ⟨i, rfl, hword, hrest⟩ := crosses_of_token? hs hquote hslash hclose htoken htoken'
      rw [tokens?_of_token htoken'] at hall
      obtain ⟨after, hafter, rfl⟩ := Option.map_eq_some_iff.mp hall
      exact ⟨[], i, after, rest, rfl, hword, hrest, hafter⟩

end FlowGraph.Dot
