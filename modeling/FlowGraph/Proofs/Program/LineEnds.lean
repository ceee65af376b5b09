import FlowGraph.Proofs.Load.Entries
import FlowGraph.Proofs.Program.Joining

/-! Programs with returns before their line feeds. Only a literal goes on over the end of its line.
Anywhere else a return before a line feed is a blank, or it ends a comment. -/

namespace FlowGraph

namespace Program

open Text (Returned)

variable {s t after : List Char} {l : Lexeme}

/-! Lexemes. -/

theorem nameRest_of_returned (h : Returned s t) :
    (nameRest t).1 = (nameRest s).1 ∧ Returned (nameRest s).2 (nameRest t).2 := by
  have hline : isNameChar '\n' = false := by decide
  have hreturn : isNameChar '\r' = false := by decide
  induction h with
  | nil => exact ⟨rfl, .nil⟩
  | @cons c s t h ih =>
    have hnext : (t.head? != some '>') = (s.head? != some '>') := by
      have hhead := h.head?_eq_iff (c := '>') (by decide) (by decide)
      rw [Bool.eq_iff_iff, bne_iff_ne, bne_iff_ne]
      exact not_congr hhead
    by_cases hc : (isNameChar c || c == '-' && s.head? != some '>') = true
    · simp only [nameRest, hnext, hc, if_true]
      exact ⟨congrArg (c :: ·) ih.1, ih.2⟩
    · simp only [nameRest, hnext, hc, Bool.false_eq_true, if_false]
      exact ⟨trivial, .cons c h⟩
  | newline h ih =>
    simpa [nameRest, hline, hreturn] using Returned.newline h

theorem component?_of_returned {component : List Char} (h : Returned s t)
    (hs : component? s = some (component, after)) :
    ∃ after', component? t = some (component, after') ∧ Returned after after' := by
  obtain ⟨hchars, rfl⟩ := component?_eq_some_iff.mp hs
  have hline : '\n' ∉ '(' :: component ++ [')'] := by
    have hnot : '\n' ∉ component := fun hm => absurd (hchars _ hm) (by decide)
    simpa using hnot
  rw [List.append_cons] at h
  obtain ⟨after', rfl, hafter⟩ := h.of_append hline
  exact ⟨after', component?_eq_some_iff.mpr ⟨hchars, List.append_assoc ..⟩, hafter⟩

theorem component?_none_of_returned (h : Returned s t) (hs : component? s = none) :
    component? t = none := by
  cases ht : component? t with
  | none => rfl
  | some found =>
    obtain ⟨component, after⟩ := found
    obtain ⟨hchars, rfl⟩ := component?_eq_some_iff.mp ht
    have hreturn : '\r' ∉ '(' :: component ++ [')'] := by
      have hnot : '\r' ∉ component := fun hm => absurd (hchars _ hm) (by decide)
      simpa using hnot
    rw [List.append_cons] at h
    obtain ⟨s', rfl, -⟩ := h.of_append_right hreturn
    have hsome : component? ('(' :: component ++ [')'] ++ s') = some (component, s') :=
      component?_eq_some_iff.mpr ⟨hchars, List.append_assoc ..⟩
    rw [hs] at hsome
    cases hsome

/-- Whether a lexeme is a token or separates statements. -/
def Lexeme.counts (l : Lexeme) : Bool :=
  l.token?.isSome || l.separates

/-- A lexeme that is a literal ends on the line on which it starts. -/
def Lexeme.OneLine : Lexeme → Prop
  | .literal body => '\n' ∉ body
  | _ => True

instance : DecidablePred Lexeme.OneLine
  | .literal body => inferInstanceAs (Decidable ('\n' ∉ body))
  | .comment _ | .arrow | .node _ _ | .word _ | .separator _ | .blanks _ => isTrue trivial

/-- Comments and blanks take up the returns that stand after them. All other lexemes are taken as
before. -/
theorem lexeme?_of_returned {c : Char} (h : Returned s t) (hs : lexeme? (c :: s) = some (l, after))
    (hl : l.OneLine) :
    ∃ l' after', lexeme? (c :: t) = some (l', after') ∧ Returned after after' ∧
      [l'].filter Lexeme.counts = [l].filter Lexeme.counts := by
  simp only [lexeme?_eq_some_iff] at hs ⊢
  cases hs with
  | comment => exact ⟨_, _, .comment t, h.dropWhile (by decide), rfl⟩
  | @literal body hbody =>
    have hline : '\n' ∉ body ++ ['\x27'] := by
      simpa using show '\n' ∉ body from hl
    rw [List.append_cons] at h
    obtain ⟨after', rfl, hafter⟩ := h.of_append hline
    rw [← List.append_cons]
    exact ⟨_, _, .literal hbody after', hafter, rfl⟩
  | arrow =>
    obtain ⟨after', rfl, hafter⟩ := Returned.of_append (w := ['>']) h (by decide)
    exact ⟨_, _, .arrow after', hafter, rfl⟩
  | node hc hcomponent =>
    obtain ⟨hname, hrest⟩ := nameRest_of_returned h
    obtain ⟨after', hfound, hafter⟩ := component?_of_returned hrest hcomponent
    exact ⟨_, _, .node hc hfound, hafter, by rw [hname]⟩
  | word hc hcomponent =>
    obtain ⟨hname, hrest⟩ := nameRest_of_returned h
    exact ⟨_, _, .word hc (component?_none_of_returned hrest hcomponent), hrest, by rw [hname]⟩
  | separator hc => exact ⟨_, _, .separator hc t, h, rfl⟩
  | blanks hc => exact ⟨_, _, .blanks hc t, h.dropWhile rfl, rfl⟩

/-- Of the lexemes that count none is lost and none is found. -/
theorem scan_of_returned (h : Returned s t) (hs : (scan s).2 = [])
    (hl : ∀ l ∈ (scan s).1, l.OneLine) :
    (scan t).2 = [] ∧ (scan t).1.filter Lexeme.counts = (scan s).1.filter Lexeme.counts := by
  induction s using scan_induction generalizing t with
  | stop s hstop =>
    rw [scan_of_none hstop] at hs
    obtain rfl : s = [] := hs
    cases h with
    | nil => exact ⟨rfl, rfl⟩
  | next s l after hc ih =>
    cases h with
    | nil => cases hc
    | @cons c s t h =>
      rw [scan_of_some hc] at hs hl ⊢
      rw [List.forall_mem_cons] at hl
      obtain ⟨l', after', hc', hafter, hcounts⟩ := lexeme?_of_returned h hc hl.1
      obtain ⟨hrest, hsame⟩ := ih hafter hs hl.2
      rw [scan_of_some hc']
      refine ⟨hrest, ?_⟩
      rw [← List.singleton_append, List.filter_append, hcounts, hsame, ← List.filter_append,
        List.singleton_append]
    | @newline s t h =>
      -- The return is a blank of its own, since neither a comment nor blanks stand before it.
      have hreturn : lexeme? ('\r' :: '\n' :: t) = some (.blanks ['\r'], '\n' :: t) :=
        lexeme?_blanks rfl _
      have hline (u : List Char) : lexeme? ('\n' :: u) = some (.separator '\n', u) :=
        lexeme?_eq_some_iff.mpr (.separator (.inr rfl) u)
      obtain ⟨rfl, rfl⟩ := Prod.mk.inj (Option.some.inj ((hline s).symm.trans hc))
      rw [scan_of_some (hline s)] at hs hl ⊢
      rw [List.forall_mem_cons] at hl
      obtain ⟨hrest, hsame⟩ := ih h hs hl.2
      rw [scan_of_some hreturn, scan_of_some (hline t)]
      exact ⟨hrest, congrArg (Lexeme.separator '\n' :: ·) hsame⟩

/-! Statements. -/

theorem countNewlines_of_not_counts (hv : l.Valid) (h : l.counts = false) :
    Text.countNewlines l.text = 0 := by
  apply List.count_eq_zero_of_not_mem
  cases l with
  | comment body => exact List.not_mem_cons_of_ne_of_not_mem (by decide) hv
  | blanks text =>
    intro hm
    cases hv.2 _ hm
  | literal | arrow | node | word | separator => cases h

/-- What does not count has no effect on the statements, and not on their lines either. -/
theorem group_filter_counts (line : Nat) (current : List Located) {lexemes : List Lexeme}
    (hv : ∀ l ∈ lexemes, l.Valid) :
    group line current (lexemes.filter Lexeme.counts) = group line current lexemes := by
  induction lexemes generalizing line current with
  | nil => rfl
  | cons l lexemes ih =>
    rw [List.forall_mem_cons] at hv
    cases hl : l.counts with
    | true => simp only [List.filter_cons_of_pos hl, group, ih _ _ hv.2]
    | false =>
      have hline : line + Text.countNewlines l.text = line := by
        rw [countNewlines_of_not_counts hv.1 hl, Nat.add_zero]
      obtain ⟨htoken, hseparates⟩ : l.token? = none ∧ l.separates = false := by
        simpa [Lexeme.counts] using hl
      rw [List.filter_cons_of_neg (by simp [hl]), ih _ _ hv.2]
      simp [group, htoken, hseparates, hline]

theorem tokenize_of_returned {statements : List (List Located)} (h : Returned s t)
    (hs : tokenize s = .ok statements)
    (hl : ∀ l ∈ (scan s).1, l.OneLine) : tokenize t = .ok statements := by
  obtain ⟨hscan, rfl⟩ := tokenize_eq_ok_iff.mp hs
  obtain ⟨hrest, hsame⟩ := scan_of_returned h hscan hl
  refine tokenize_eq_ok_iff.mpr ⟨hrest, ?_⟩
  rw [← group_filter_counts 1 [] (scan_sound s).2.1, ← group_filter_counts 1 [] (scan_sound t).2.1,
    hsame]

theorem parse_of_returned {text other : String} {statements : List (List Located)}
    (h : Returned text.toList other.toList) (hs : tokenize text.toList = .ok statements)
    (hl : ∀ l ∈ (scan text.toList).1, l.OneLine) (name : String) :
    parse other name = parse text name := by
  rw [parse, parse, hs, tokenize_of_returned h hs hl]

end Program

/-- A program file is loaded as its text with line feeds. -/
theorem load_file_of_returned {ε : Type} {path : Files.Path} (hpath : path.suffix = programSuffix)
    {obstacle : Files.Operation → Option Files.Fault} {t : Files.Tree} {text other : String}
    (h : Text.Returned text.toList other.toList) (hreturn : '\r' ∉ text.toList)
    (ht : Source.answer path obstacle t = .ok (Text.Utf8.encode other.toList))
    (parser : Option Parser) (receiver : Option (Receiver ε)) :
    (Source.file path parser obstacle t).load receiver = loadProgram text receiver parser := by
  rw [Source.load_file_of_text (holdsText_of_encoded ht), h.unifyNewlines_eq hreturn, loadText,
    if_pos hpath, String.ofList_toList]

/-- A return before each line feed changes nothing: a program of which each character belongs to
a lexeme, and each literal stands on one line, gives the same definition or is refused for the same
cause on the same line. And from a file it is loaded as if its lines had ended with line feeds. -/
theorem line_ends_with_returns_agree {ε : Type} (text : String) :
    (∀ statements, Program.tokenize text.toList = .ok statements →
      (∀ l ∈ (Program.scan text.toList).1, l.OneLine) →
      ∀ name, Program.parse (String.ofList (Text.expandNewlines text.toList)) name =
        Program.parse text name) ∧
    ('\r' ∉ text.toList → ∀ (path : Files.Path) (parser : Option Parser)
      (obstacle : Files.Operation → Option Files.Fault) (t : Files.Tree)
      (receiver : Option (Receiver ε)), path.suffix = programSuffix →
      (Source.answer path obstacle t = .ok (Text.Utf8.encode text.toList) ∨
        Source.answer path obstacle t =
          .ok (Text.Utf8.encode (Text.expandNewlines text.toList))) →
      (Source.file path parser obstacle t).load receiver = loadProgram text receiver parser) := by
  have hexpanded : Text.Returned text.toList
      (String.ofList (Text.expandNewlines text.toList)).toList := by
    rw [String.toList_ofList]
    exact Text.returned_expandNewlines _
  constructor
  · intro statements hs hl
    exact Program.parse_of_returned hexpanded hs hl
  · intro hreturn path parser obstacle t receiver hpath ht
    rcases ht with ht | ht
    · exact load_file_of_returned hpath (Text.Returned.refl _) hreturn ht parser receiver
    · rw [← String.toList_ofList (l := Text.expandNewlines text.toList)] at ht
      exact load_file_of_returned hpath hexpanded hreturn ht parser receiver

/-! Comments, names, components, separators and blanks before a line end; and a program that is
refused for a literal and an arrow before one. -/

def manyLines : String :=
  "# in\n\n'a' -> IN A(C)\nA OUT -> IN B-1 ,\n B-1 OUT -> IN A \nA OUT -> IN B-1 # out\n"

def brokenOff : String :=
  "A OUT -> IN B(C)\n\n'a'\nA OUT ->\n"

def returnTree : Files.Tree where
  home := ["work"]
  entries := [(["work", "many.fbp"],
    .file (Text.Utf8.encode (Text.expandNewlines manyLines.toList)))]

theorem manyLines_returned :
    Program.parse (String.ofList (Text.expandNewlines manyLines.toList)) "main" =
      .ok ⟨"main", [("A", "C")], [.initial ⟨.string "a", ⟨"A", "IN"⟩⟩,
        .edge ⟨⟨"A", "OUT"⟩, ⟨"B-1", "IN"⟩⟩, .edge ⟨⟨"B-1", "OUT"⟩, ⟨"A", "IN"⟩⟩,
        .edge ⟨⟨"A", "OUT"⟩, ⟨"B-1", "IN"⟩⟩]⟩ ∧
    Program.parse (String.ofList (Text.expandNewlines brokenOff.toList)) "main" =
      .error ⟨.noConnection, 3⟩ ∧
    (Source.file (Files.Path.ofString "many.fbp") none (fun _ => none) returnTree).load none =
      (loadProgram manyLines none none : Loading Empty) := by
  have hfile : Source.answer (Files.Path.ofString "many.fbp") (fun _ => none) returnTree =
      .ok (Text.Utf8.encode (Text.expandNewlines manyLines.toList)) := by
    decide
  obtain ⟨hmany, hload⟩ := @line_ends_with_returns_agree Empty manyLines
  obtain ⟨hbroken, -⟩ := @line_ends_with_returns_agree Empty brokenOff
  refine ⟨?_, ?_, ?_⟩
  · have hparse := hmany _ (Program.tokenize_eq_ok_iff.mpr ⟨by decide, rfl⟩)
      (by decide) "main"
    exact hparse.trans (by decide +kernel)
  · have hparse := hbroken _ (Program.tokenize_eq_ok_iff.mpr ⟨by decide, rfl⟩)
      (by decide) "main"
    exact hparse.trans (by decide)
  · exact hload (by decide) _ none _ _ none (by decide) (.inr hfile)

end FlowGraph
