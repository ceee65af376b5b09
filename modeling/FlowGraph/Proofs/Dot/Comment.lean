import FlowGraph.Proofs.Dot.LineFeed
import FlowGraph.Proofs.Dot.PlainNames

/-! The name of a graph in its document. It stands in a comment that ends with the line, so what it
holds after a line feed is read as a part of the document. -/

namespace FlowGraph.Dot

open FlowGraph.Dot.Language

variable {g : Graph} {s : List Char} {c : Char}

/-! The text of a document after its comment. -/

def opening : List Char :=
  "digraph \x7b\n".toList

def remainder (g : Graph) : List Char :=
  (statements g).flatMap Statement.text ++ "\x7d\n".toList

theorem toList_document (g : Graph) :
    (document g).toList = comment g.name ++ (opening ++ remainder g) := by
  rw [document, String.toList_ofList, List.append_assoc, List.append_assoc]
  rfl

/-- What a name holds after its first line feed. -/
def laterLines (name : List Char) : List Char :=
  (name.dropWhile (· ≠ '\n')).tail

theorem laterLines_of_not_mem (h : '\n' ∉ s) : laterLines s = [] := by
  have hall : ∀ c ∈ s, decide (c ≠ '\n') = true := by
    intro c hc
    rw [decide_eq_true_iff]
    rintro rfl
    exact h hc
  rw [laterLines, List.dropWhile_eq_nil_iff.mpr hall]
  rfl

theorem gap?_comment (name rest : List Char) : gap? ('/' :: '/' :: ' ' :: (name ++ '\n' :: rest)) =
    some (name.dropWhile (· ≠ '\n') ++ '\n' :: rest) := by
  have hspace : gap? ('/' :: '/' :: ' ' :: (name ++ '\n' :: rest)) =
      some ((name ++ '\n' :: rest).dropWhile (· ≠ '\n')) := rfl
  rw [hspace, Text.dropWhile_append_newline (by decide)]

theorem lex_document (g : Graph) : lex (document g).toList =
    tokens? ('\n' :: laterLines g.name.toList ++ '\n' :: (opening ++ remainder g)) := by
  rw [lex_eq, toList_document, comment]
  generalize opening ++ remainder g = rest
  have hempty : gap? ('\n' :: '\n' :: rest) = some ('\n' :: rest) := rfl
  split
  · next hname =>
    have hnone : '\n' ∉ g.name.toList := by simp [hname]
    rw [laterLines_of_not_mem hnone]
    exact (tokens?_of_gap hempty).symm
  · have hstart : '\n' :: ("// ".toList ++ g.name.toList ++ ['\n'] ++ rest) =
        '\n' :: '/' :: '/' :: ' ' :: (g.name.toList ++ '\n' :: rest) := by
      simp
    rw [hstart]
    generalize g.name.toList = name
    have hline : gap? ('\n' :: '/' :: '/' :: ' ' :: (name ++ '\n' :: rest)) =
        some ('/' :: '/' :: ' ' :: (name ++ '\n' :: rest)) := rfl
    rw [tokens?_of_gap hline, tokens?_of_gap (gap?_comment name rest), laterLines]
    cases hlines : name.dropWhile (· ≠ '\n') with
    | nil => exact (tokens?_of_gap hempty).symm
    | cons d later =>
      have hd : d = '\n' := by
        have hnot := List.head?_dropWhile_not (· ≠ '\n') name
        rw [hlines] at hnot
        simpa using hnot
      rw [hd]
      rfl

theorem tokens?_opening (rest : List Char) : tokens? ('\n' :: (opening ++ rest)) =
    (tokens? ('\n' :: rest)).map ([.keyword .digraph, .mark '\x7b'] ++ ·) := by
  have hline : gap? ('\n' :: (opening ++ rest)) = some (opening ++ rest) := rfl
  have hkeyword : token? (opening ++ rest) =
      some (.keyword .digraph, ' ' :: '\x7b' :: '\n' :: rest) := rfl
  have hblank : gap? (' ' :: '\x7b' :: '\n' :: rest) = some ('\x7b' :: '\n' :: rest) := rfl
  have hbrace : token? ('\x7b' :: '\n' :: rest) = some (.mark '\x7b', '\n' :: rest) := rfl
  rw [tokens?_of_gap hline, tokens?_of_token hkeyword, tokens?_of_gap hblank,
    tokens?_of_token hbrace, Option.map_map]
  rfl

/-! Documents with their name and without it. -/

def unnamed (g : Graph) : Graph :=
  { g with name := "" }

theorem PlainlyDrawn.read_unnamed (h : PlainlyDrawn g) :
    read (document (unnamed g)).toList = some (items .text g) := by
  simp only [PlainlyDrawn, drawnTexts, List.forall_mem_append, List.forall_mem_map] at h
  have hids : ∀ id ∈ ids g, ReadsName (drawnId id) (.text (drawnId id)) :=
    fun id hid => readsName_of_isPlainName (h.1 id hid)
  have hlabels : ∀ port ∈ labels g, ReadsName (drawnPort port) (.text (drawnPort port)) :=
    fun port hport => readsName_of_isPlainName (h.2 port hport)
  exact read_document_of_names (g := unnamed g) (by simp [unnamed]) hids hlabels
    readsName_drawnData

theorem lex_unnamed (g : Graph) : lex (document (unnamed g)).toList =
    (tokens? ('\n' :: remainder g)).map ([.keyword .digraph, .mark '\x7b'] ++ ·) := by
  have hline : gap? ('\n' :: '\n' :: (opening ++ remainder g)) =
      some ('\n' :: (opening ++ remainder g)) := rfl
  rw [lex_document, laterLines_of_not_mem (by simp [unnamed])]
  exact (tokens?_of_gap hline).trans (tokens?_opening (remainder g))

theorem read_eq_some {items : List Item} : read s = some items ↔
    ∃ all body, lex s = some all ∧ body? all = some body ∧
      statementsFor body.length body = some items := by
  simp [Language.read, Option.bind_eq_some_iff]

theorem PlainlyDrawn.body (h : PlainlyDrawn g) : ∃ body,
    tokens? ('\n' :: remainder g) = some body ∧
      statementsFor body.length body = some (items .text g) := by
  obtain ⟨all, rest, hall, hrest, hread⟩ := read_eq_some.mp h.read_unnamed
  rw [lex_unnamed] at hall
  obtain ⟨body, hbody, rfl⟩ := Option.map_eq_some_iff.mp hall
  obtain rfl := Option.some.inj hrest
  exact ⟨body, hbody, hread⟩

theorem PlainlyDrawn.not_mem_remainder (h : PlainlyDrawn g) (hletter : isLetter c = false)
    (hdigit : Text.isDigit c = false) (hlayout : c ∉ '"' :: '\\' :: layout) :
    c ∉ remainder g := by
  have hclose : "\x7d\n".toList ⊆ '"' :: '\\' :: layout := by decide
  simp only [remainder, List.mem_append, List.mem_flatMap, not_or, not_exists, not_and]
  exact ⟨fun st hst => h.not_mem_text hletter hdigit hlayout hst, fun hc => hlayout (hclose hc)⟩

theorem append_cons_eq_append_cons {α : Type} {a b : α} {xs ys zs ws : List α} (hne : a ≠ b)
    (h : xs ++ a :: ys = zs ++ b :: ws) :
    (∃ m, xs = zs ++ b :: m ∧ ws = m ++ a :: ys) ∨ ∃ m, zs = xs ++ a :: m ∧ ys = m ++ b :: ws := by
  rcases List.append_eq_append_iff.mp h with ⟨m, rfl, hm⟩ | ⟨m, rfl, hm⟩
  · cases m with
    | nil => exact absurd (List.cons.inj hm).1 hne
    | cons c m =>
      obtain ⟨rfl, rfl⟩ := List.cons.inj hm
      exact .inr ⟨m, rfl, rfl⟩
  · cases m with
    | nil => exact absurd (List.cons.inj hm).1.symm hne
    | cons c m =>
      obtain ⟨rfl, rfl⟩ := List.cons.inj hm
      exact .inl ⟨m, rfl, rfl⟩

/-- The brace after which the statements are read is the one that opens the document. -/
theorem PlainlyDrawn.before_header (h : PlainlyDrawn g) {fuel : Nat} {before body rest : List Token}
    (hrest : body? (before ++ .keyword .digraph :: .mark '\x7b' :: body) = some rest)
    (hread : statementsFor fuel rest = some (items .text g)) :
    before = [] ∨ before = [.keyword .strict] := by
  obtain ⟨header, hall, hbrace, hheader⟩ := body?_eq_some hrest
  rcases append_cons_eq_append_cons (by simp) hall with ⟨m, hm, rfl⟩ | ⟨m, rfl, hm⟩
  · -- A keyword behind the brace would be a word of a statement.
    obtain ⟨_, hkeyword, _⟩ := h.name_of_mem hread (List.mem_append_right m List.mem_cons_self) rfl
    cases hkeyword
  · cases m with
    | nil =>
      rcases hheader (by simp) with hheader | hheader
      · exact .inl (List.append_left_eq_self.mp hheader)
      · exact .inr (List.append_cancel_right hheader)
    | cons t m =>
      obtain ⟨rfl, -⟩ := List.cons.inj hm
      simp at hbrace

/-- No statement is read after an id that takes in the opening. -/
theorem PlainlyDrawn.body?_of_crossing (h : PlainlyDrawn g) {fuel : Nat}
    {before after rest : List Token} {i : Id} (hopening : opening ⊆ i.chars)
    (hafter : .mark '\x7b' ∉ after) (hrest : body? (before ++ .id i :: after) = some rest) :
    statementsFor fuel rest ≠ some (items .text g) := by
  intro hread
  obtain ⟨header, hall, -⟩ := body?_eq_some hrest
  rcases append_cons_eq_append_cons (by simp) hall with ⟨m, hm, rfl⟩ | ⟨m, rfl, rfl⟩
  · obtain ⟨s, hs, hplain⟩ := h.name_of_mem hread (List.mem_append_right m List.mem_cons_self) rfl
    obtain rfl := Token.id.inj hs
    have hbrace : '\x7b' ∈ opening := by decide
    exact not_mem_of_isPlainName hplain (by decide) (by decide) (hopening hbrace)
  · simp at hafter

theorem PlainlyDrawn.read_named_iff (h : PlainlyDrawn g) :
    read (document g).toList = some (items .text g) ↔
      lex (laterLines g.name.toList) = some [] ∨
        lex (laterLines g.name.toList) = some [.keyword .strict] := by
  obtain ⟨body, hbody, hstatements⟩ := h.body
  have hquote : '"' ∉ opening := by decide
  have hslash : '\\' ∉ opening := by decide
  have hclose : '>' ∉ opening := by decide
  have hstar : '*' ∉ opening ++ remainder g := by
    have hopening : '*' ∉ opening := by decide
    have hremainder := h.not_mem_remainder (c := '*') (by decide) (by decide) (by decide)
    simp [hopening, hremainder]
  have hlater := tokens?_append_newline hquote hslash hclose hstar
    ('\n' :: laterLines g.name.toList)
  rw [tokens?_opening, hbody, ← lex_document, ← lex_eq] at hlater
  rw [read_eq_some]
  rcases hlater with ⟨ts, hts, hall⟩ | ⟨hnone, hcross⟩
  · rw [hts, hall, Option.map_some, Option.map_some]
    constructor
    · rintro ⟨all, rest, hall, hrest, hread⟩
      obtain rfl := Option.some.inj hall
      exact (h.before_header hrest hread).imp (congrArg some) (congrArg some)
    · intro hends
      refine ⟨_, body, rfl, ?_, hstatements⟩
      rcases hends with hends | hends <;> obtain rfl := Option.some.inj hends <;> rfl
  · have hnever : ¬ (lex (laterLines g.name.toList) = some [] ∨
        lex (laterLines g.name.toList) = some [.keyword .strict]) := by
      simp [hnone]
    refine iff_of_false ?_ hnever
    rintro ⟨all, rest, hall, hrest, hread⟩
    obtain ⟨before, i, after, tail, rfl, hopening, htail, hafter⟩ := hcross all hall
    have hbrace : .mark '\x7b' ∉ after := fun hmem =>
      h.not_mem_remainder (c := '\x7b') (by decide) (by decide) (by decide)
        (htail.subset (mem_of_mark_mem hafter hmem))
    exact h.body?_of_crossing hopening hbrace hrest hread

/-- A name on one line makes no difference. The later lines of a name are read along with the rest:
in a plain drawing the statements stay the same just if these lines hold blanks and comments only,
or the one keyword that may stand before the opening. -/
theorem same_statements_iff (g : Graph) :
    ('\n' ∉ g.name.toList → read (document g).toList = read (document (unnamed g)).toList) ∧
    (PlainlyDrawn g → read (document (unnamed g)).toList = some (items .text g) ∧
      (read (document g).toList = read (document (unnamed g)).toList ↔
        lex (laterLines g.name.toList) = some [] ∨
          lex (laterLines g.name.toList) = some [.keyword .strict])) := by
  refine ⟨fun hname => ?_, fun h => ⟨h.read_unnamed, ?_⟩⟩
  · have hlex : lex (document g).toList = lex (document (unnamed g)).toList := by
      rw [lex_document, lex_document, laterLines_of_not_mem hname,
        laterLines_of_not_mem (by simp [unnamed])]
      rfl
    rw [Language.read, hlex, Language.read]
  · rw [h.read_unnamed]
    exact h.read_named_iff

def linked (name : String) : Graph where
  name := name
  nodes := [⟨"A", .string "component", .null⟩, ⟨"B", .string "component", .null⟩]
  edges := [⟨⟨"A", "out"⟩, ⟨"B", "in"⟩⟩]

def forgedName : String :=
  "a\ndigraph \x7b C <"

/-- The line after the first is read, and what it opens may take in the rest up to the arrow. -/
theorem name_not_always_inside : PlainlyDrawn (linked "a\nb") ∧
    read (document (unnamed (linked "a\nb"))).toList = some [nodeItem (.text "A".toList),
      nodeItem (.text "B".toList),
      edgeItem (.text "A".toList) (.text "B".toList) (.text "out".toList)] ∧
    read (document (linked "a\nb")).toList = none ∧
    (read (document (linked forgedName)).toList).map (·.countP Item.isNode) = some 3 ∧
    (read (document (linked forgedName)).toList).map (·.countP Item.isEdge) = some 0 := by
  decide +kernel

/-- Later lines that hold a comment, a sign, and the keyword that may come first. -/
def remarked : Graph :=
  linked "/* main \" <\n# of two\n \tSTRICT // not\r/*"

theorem remarked_same_statements : PlainlyDrawn remarked ∧ '\n' ∉ (linked "/* main <").name.toList ∧
    lex (laterLines remarked.name.toList) = some [.keyword .strict] ∧
    read (document (linked "/* main <")).toList = read (document (unnamed remarked)).toList ∧
    read (document remarked).toList = some (items .text remarked) := by
  have hplain : PlainlyDrawn remarked := by decide
  have hline : '\n' ∉ (linked "/* main <").name.toList := by decide
  have hlater : lex (laterLines remarked.name.toList) = some [.keyword .strict] := by
    decide
  obtain ⟨hsame, -⟩ := same_statements_iff (linked "/* main <")
  obtain ⟨-, hdrawn⟩ := same_statements_iff remarked
  obtain ⟨hunnamed, hiff⟩ := hdrawn hplain
  exact ⟨hplain, hline, hlater, hsame hline, (hiff.mpr (.inr hlater)).trans hunnamed⟩

end FlowGraph.Dot
