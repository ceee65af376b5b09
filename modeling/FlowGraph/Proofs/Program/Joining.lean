import FlowGraph.Proofs.Program.Loading
import FlowGraph.Proofs.Text.Newlines

/-! Programs joined by a line feed. No lexeme that is complete goes on over the line feed, so the
statements of the first program are read as if it stood alone, and those of the second one too,
only on later lines. -/

namespace FlowGraph.Program

/-! The scan. -/

variable {s after : List Char} {l : Lexeme}

theorem nameRest_append_newline (s t : List Char) :
    nameRest (s ++ '\n' :: t) = ((nameRest s).1, (nameRest s).2 ++ '\n' :: t) := by
  have hname : isNameChar '\n' = false := by decide
  induction s with
  | nil => simp [nameRest, hname]
  | cons c s ih =>
    have hnext : ((s ++ '\n' :: t).head? != some '>') = (s.head? != some '>') := by
      cases s <;> rfl
    simp only [List.cons_append, nameRest, hnext, ih]
    split <;> rfl

theorem component?_append_newline (s t : List Char) : component? (s ++ '\n' :: t) =
    (component? s).map fun (component, after) => (component, after ++ '\n' :: t) := by
  have hline : isComponentChar '\n' = false := by decide
  cases s with
  | nil => rfl
  | cons c s =>
    by_cases hc : c = '('
    · subst hc
      rw [List.cons_append, component?, component?, Text.dropWhile_append_newline hline,
        Text.takeWhile_append_newline hline]
      cases s.dropWhile isComponentChar with
      | nil => rfl
      | cons d rest => by_cases hd : d = ')' <;> simp [hd]
    · simp [component?, hc]

/-- A lexeme is taken as it is when the text goes on after a line feed. -/
theorem lexeme?_append_newline (h : lexeme? s = some (l, after)) (t : List Char) :
    lexeme? (s ++ '\n' :: t) = some (l, after ++ '\n' :: t) := by
  have hstop : (decide ('\n' ≠ '\n')) = false := by decide
  have hgap : isGap '\n' = false := rfl
  rw [lexeme?_eq_some_iff] at h ⊢
  cases h with
  | comment rest =>
    rw [← Text.takeWhile_append_newline hstop rest t, ← Text.dropWhile_append_newline hstop rest t]
    exact .comment _
  | literal hbody after =>
    rw [List.cons_append, List.append_assoc]
    exact .literal hbody _
  | arrow after => exact .arrow _
  | @node c rest component after hc h =>
    have hname := nameRest_append_newline rest t
    have hcomponent : component? (nameRest (rest ++ '\n' :: t)).2 =
        some (component, after ++ '\n' :: t) := by
      rw [hname, component?_append_newline, h]
      rfl
    have hnode := Lexeme.Takes.node hc hcomponent
    rwa [hname] at hnode
  | @word c rest hc h =>
    have hname := nameRest_append_newline rest t
    have hcomponent : component? (nameRest (rest ++ '\n' :: t)).2 = none := by
      rw [hname, component?_append_newline, h]
      rfl
    have hword := Lexeme.Takes.word hc hcomponent
    rwa [hname] at hword
  | separator hc after => exact .separator hc _
  | blanks hc rest =>
    rw [← Text.takeWhile_append_newline hgap rest t, ← Text.dropWhile_append_newline hgap rest t]
    exact .blanks hc _

/-- A text that the scan takes as a whole stands before the line feed as it stands alone. -/
theorem scan_append_newline (h : (scan s).2 = []) (t : List Char) :
    scan (s ++ '\n' :: t) = ((scan s).1 ++ .separator '\n' :: (scan t).1, (scan t).2) := by
  induction s using scan_induction with
  | stop s hs =>
    rw [scan_of_none hs] at h ⊢
    obtain rfl : s = [] := h
    exact scan_append (l := .separator '\n') (.inr rfl) t trivial
  | next s l after hs ih =>
    rw [scan_of_some hs] at h ⊢
    rw [scan_of_some (lexeme?_append_newline hs t), ih h]
    rfl

/-! Statements. -/

theorem group_append_separator (line : Nat) (current : List Located) (c : Char)
    (lexemes lexemes' : List Lexeme) :
    group line current (lexemes ++ .separator c :: lexemes') = group line current lexemes ++
      group (line + Text.countNewlines (lexemes.flatMap Lexeme.text ++ [c])) [] lexemes' := by
  induction lexemes generalizing line current with
  | nil =>
    by_cases hc : current = []
    · simp [group, Lexeme.token?, Lexeme.text, hc]
    · simp [group, Lexeme.token?, Lexeme.separates, Lexeme.text, hc]
  | cons l lexemes ih =>
    have hline : line + Text.countNewlines l.text +
        Text.countNewlines (lexemes.flatMap Lexeme.text ++ [c]) =
          line + Text.countNewlines ((l :: lexemes).flatMap Lexeme.text ++ [c]) := by
      rw [List.flatMap_cons, List.append_assoc, countNewlines_append l.text, Nat.add_assoc]
    cases h : l.token? with
    | some token => simp only [List.cons_append, group, h, ih, hline]
    | none =>
      by_cases hs : (l.separates && current ≠ []) = true
      · simp only [List.cons_append, group, h, hs, if_true, ih, hline]
      · simp only [List.cons_append, group, h, hs, Bool.false_eq_true, if_false, ih, hline]

/-- The same token, `k` lines later. -/
def Located.later (k : Nat) (t : Located) : Located :=
  { t with line := t.line + k }

def SyntaxError.later (k : Nat) (e : SyntaxError) : SyntaxError :=
  { e with line := e.line + k }

theorem group_later (k line : Nat) (current : List Located) (lexemes : List Lexeme) :
    group (line + k) (current.map (·.later k)) lexemes =
      (group line current lexemes).map (·.map (·.later k)) := by
  induction lexemes generalizing line current with
  | nil =>
    by_cases h : current = []
    · simp [group, h]
    · simp [group, h]
  | cons l lexemes ih =>
    have hline : line + k + Text.countNewlines l.text = line + Text.countNewlines l.text + k :=
      Nat.add_right_comm _ _ _
    cases h : l.token? with
    | some token =>
      have hnext := ih (line + Text.countNewlines l.text) (current ++ [⟨token, line⟩])
      rw [List.map_append] at hnext
      simp only [group, h, hline]
      exact hnext
    | none =>
      by_cases hs : l.separates = true
      · cases current with
        | nil => simpa [group, h, hline] using ih _ []
        | cons t current => simpa [group, h, hs, hline] using ih _ []
      · simpa [group, h, hs, hline] using ih _ current

/-- The statements of the second text are the same as if it stood alone, some lines later. -/
theorem tokenize_append_newline {statements : List (List Located)} (h : tokenize s = .ok statements)
    (t : List Char) : tokenize (s ++ '\n' :: t) =
      match tokenize t with
      | .ok others =>
        .ok (statements ++ others.map (·.map (·.later (1 + Text.countNewlines s))))
      | .error e => .error (e.later (1 + Text.countNewlines s)) := by
  obtain ⟨hscan, rfl⟩ := tokenize_eq_ok_iff.mp h
  have htext := (scan_sound s).1
  rw [hscan, List.append_nil] at htext
  have hline : 1 + Text.countNewlines ((scan s).1.flatMap Lexeme.text ++ ['\n']) =
      1 + (1 + Text.countNewlines s) := by
    rw [← htext, countNewlines_append, Nat.add_comm (Text.countNewlines s)]
    rfl
  have hafter : lineAfter ((scan s).1 ++ .separator '\n' :: (scan t).1) =
      lineAfter (scan t).1 + (1 + Text.countNewlines s) := by
    have hlexemes : ((scan s).1 ++ .separator '\n' :: (scan t).1).flatMap Lexeme.text =
        (scan s).1.flatMap Lexeme.text ++ ['\n'] ++ (scan t).1.flatMap Lexeme.text := by
      simp [Lexeme.text]
    rw [lineAfter_eq, lineAfter_eq, hlexemes, countNewlines_append, ← Nat.add_assoc, hline]
    exact Nat.add_right_comm _ _ _
  unfold tokenize
  rw [scan_append_newline hscan]
  cases hrest : (scan t).2 with
  | nil =>
    simp only [hrest, group_append_separator, hline]
    rw [← group_later (1 + Text.countNewlines s) 1 [] (scan t).1]
    rfl
  | cons c rest =>
    simp only [hrest, hafter]
    rfl

/-! Reading a statement on other lines. -/

section

variable {k line : Nat}

theorem readNode_later (k : Nat) (t : Located) :
    readNode (t.later k) = (readNode t).mapError (·.later k) := by
  obtain ⟨token, line⟩ := t
  cases token <;> rfl

theorem readPort_later (k : Nat) (t : Located) :
    readPort (t.later k) = (readPort t).mapError (·.later k) := by
  obtain ⟨token, line⟩ := t
  cases token <;> rfl

theorem readStart_later (k line : Nat) (segment : List Located) :
    readStart (line + k) (segment.map (·.later k)) =
      (readStart line segment).mapError (·.later k) := by
  match segment with
  | [] => rfl
  | [⟨token, line⟩] => cases token <;> rfl
  | [n, p] =>
    simp only [readStart, List.map_cons, List.map_nil, readNode_later, readPort_later,
      Outcome.mapError_bind]
    rfl
  | _ :: _ :: _ :: _ => rfl

theorem readLinks_later (k line : Nat) (source : Source) (links : List (List Located)) :
    readLinks (line + k) source (links.map (·.map (·.later k))) =
      (readLinks line source links).mapError (·.later k) := by
  fun_induction readLinks line source links with
  | case1 => rfl
  | case2 source p n =>
    simp only [readLinks, List.map_cons, List.map_nil, readNode_later, readPort_later,
      Outcome.mapError_bind]
    rfl
  | case3 source segment hne =>
    rcases segment with _ | ⟨p, _ | ⟨n, _ | ⟨q, more⟩⟩⟩
    · rfl
    · rfl
    · exact (hne p n rfl).elim
    · rfl
  | case4 source p n q rest hrest ih =>
    obtain ⟨next, rest, rfl⟩ := List.exists_cons_of_ne_nil hrest
    simp only [List.map_cons] at ih
    simp only [readLinks, List.map_cons, List.map_nil, readNode_later, readPort_later,
      Outcome.mapError_bind, ih]
    rfl
  | case5 source segment rest hlast hrest hinner =>
    obtain ⟨next, rest, rfl⟩ := List.exists_cons_of_ne_nil hrest
    rcases segment with _ | ⟨p, _ | ⟨n, _ | ⟨q, _ | ⟨r, more⟩⟩⟩⟩
    · rfl
    · rfl
    · rfl
    · exact (hinner p n q rfl).elim
    · rfl

theorem segments_later (k : Nat) (tokens : List Located) :
    segments (tokens.map (·.later k)) =
      ((segments tokens).1.map (·.later k), (segments tokens).2.map (·.map (·.later k))) := by
  induction tokens with
  | nil => rfl
  | cons t tokens ih =>
    have htoken : (t.later k).token = t.token := rfl
    by_cases h : t.token = .arrow
    · simp [segments, ih, htoken, h]
    · simp [segments, ih, htoken, h]

theorem readStatement_later (k : Nat) {tokens : List Located} (h : tokens ≠ []) :
    readStatement (tokens.map (·.later k)) = (readStatement tokens).mapError (·.later k) := by
  obtain ⟨t, tokens, rfl⟩ := List.exists_cons_of_ne_nil h
  have hsegments := segments_later k (t :: tokens)
  rw [List.map_cons] at hsegments
  unfold readStatement
  rw [List.map_cons, hsegments]
  rcases segments (t :: tokens) with ⟨first, links⟩
  cases links with
  | nil => rfl
  | cons link links =>
    have hline : (Located.later k t).line = t.line + k := rfl
    have hlinks (source : Source) := readLinks_later k t.line source (link :: links)
    simp only [List.map_cons] at hlinks
    simp only [List.map_cons, List.head?_cons, Option.elim_some, hline, readStart_later,
      hlinks, Outcome.mapError_bind]
    rfl

end

theorem mapM_readStatement_later (k : Nat) {statements : List (List Located)}
    (h : [] ∉ statements) : (statements.map (·.map (·.later k))).mapM readStatement =
      (statements.mapM readStatement).mapError (·.later k) := by
  induction statements with
  | nil => rfl
  | cons tokens statements ih =>
    simp only [List.mem_cons, not_or] at h
    rw [List.map_cons, List.mapM_cons, List.mapM_cons, readStatement_later k (Ne.symm h.1), ih h.2]
    simp only [Outcome.mapError_bind]
    rfl

/-! Programs. -/

theorem declare_concat (known declared : List (String × String)) (d : String × String) :
    declare known (declared ++ [d]) =
      if d.1 ∈ (declare known declared).map (·.1) then declare known declared
      else declare known declared ++ [d] := by
  have hany (ps : List (String × String)) : ps.any (·.1 == d.1) = true ↔ d.1 ∈ ps.map (·.1) := by
    simp
  rw [declare, List.foldl_append]
  exact if_congr (hany _) rfl rfl

/-- Processes that are known already keep their place and their component. -/
theorem declare_eq_append (known declared : List (String × String)) :
    declare known declared = known ++
      (declare [] declared).filter fun (id, _) => id ∉ known.map (·.1) := by
  induction declared using List.reverseRecOn with
  | nil => simp [declare]
  | append_singleton declared d ih =>
    rw [declare_concat, declare_concat, ih]
    by_cases hk : d.1 ∈ known.map (·.1)
    · have hall : d.1 ∈ (known ++ (declare [] declared).filter
          fun (id, _) => id ∉ known.map (·.1)).map (·.1) := by
        rw [List.map_append]
        exact List.mem_append_left _ hk
      rw [if_pos hall]
      split
      · rfl
      · simp [List.filter_append, hk]
    · -- What is not known keeps its place among the newly declared.
      have hnew : d.1 ∈ (known ++ (declare [] declared).filter
          fun (id, _) => id ∉ known.map (·.1)).map (·.1) ↔
            d.1 ∈ (declare [] declared).map (·.1) := by
        rw [List.map_append, List.mem_append, or_iff_right hk]
        constructor
        · intro hm
          obtain ⟨q, hq, he⟩ := List.mem_map.mp hm
          exact he ▸ List.mem_map_of_mem (List.mem_filter.mp hq).1
        · intro hm
          obtain ⟨q, hq, he⟩ := List.mem_map.mp hm
          refine he ▸ List.mem_map_of_mem (List.mem_filter.mpr ⟨hq, ?_⟩)
          simpa [he] using hk
      by_cases hd : d.1 ∈ (declare [] declared).map (·.1)
      · rw [if_pos (hnew.mpr hd), if_pos hd]
      · rw [if_neg (fun h => hd (hnew.mp h)), if_neg hd]
        have hkeep : [d].filter (fun (id, _) => id ∉ known.map (·.1)) = [d] :=
          List.filter_eq_self.mpr fun q hq => by
            rw [List.mem_singleton.mp hq]
            exact decide_eq_true hk
        rw [List.filter_append, hkeep, List.append_assoc]

theorem lookup_filter_not_mem {known declared : List (String × String)} {id : String}
    (h : id ∉ known.map (·.1)) :
    (declared.filter fun (id, _) => id ∉ known.map (·.1)).lookup id = declared.lookup id := by
  induction declared with
  | nil => rfl
  | cons d declared ih =>
    obtain ⟨other, component⟩ := d
    by_cases hd : other ∈ known.map (·.1)
    · have hne : (id == other) = false := beq_eq_false_iff_ne.mpr fun he => h (he ▸ hd)
      rw [List.filter_cons_of_neg (by simpa using hd), ih, List.lookup_cons, hne]
    · rw [List.filter_cons_of_pos (by simpa using hd), List.lookup_cons, List.lookup_cons, ih]

/-- Whatever the first of two joined programs says comes first. -/
theorem ofStatements_append (name : String) (first second : List Statement) :
    (ofStatements name (first ++ second)).connections =
        (ofStatements name first).connections ++ (ofStatements name second).connections ∧
      (ofStatements name (first ++ second)).processes = (ofStatements name first).processes ++
        (ofStatements name second).processes.filter fun (id, _) =>
          id ∉ (ofStatements name first).processes.map (·.1) := by
  simp only [ofStatements, List.flatMap_append, declare_append]
  exact ⟨trivial, declare_eq_append _ _⟩

theorem toList_joined (text other : String) :
    (text ++ "\n" ++ other).toList = text.toList ++ '\n' :: other.toList := by
  rw [String.toList_append, String.toList_append, List.append_assoc]
  rfl

theorem mapM_readStatement_append {statements others : List (List Located)} {read : List Statement}
    (hread : statements.mapM readStatement = .ok read) (k : Nat) (ho : [] ∉ others) :
    List.mapM readStatement (statements ++ others.map (·.map (·.later k))) =
      ((others.mapM readStatement).mapError (·.later k)).map (read ++ ·) := by
  rw [List.mapM_append, hread, mapM_readStatement_later k ho]
  cases others.mapM readStatement <;> rfl

/-- Two programs joined by a line feed are one program: first come the connections and processes
of the first, then those of the second, but for processes that have a component by then. And where
the second is refused, both together are refused for the same cause, on a line that many later. -/
theorem parse_joined_by_newline {text other name : String} {p : Program}
    (h : parse text name = .ok p) :
    (∀ q, parse other name = .ok q → ∃ joined, parse (text ++ "\n" ++ other) name = .ok joined ∧
      joined.connections = p.connections ++ q.connections ∧
      joined.processes =
        p.processes ++ q.processes.filter (fun (id, _) => id ∉ p.processes.map (·.1)) ∧
      ∀ id, joined.processes.lookup id = (p.processes.lookup id).or (q.processes.lookup id)) ∧
    ∀ cause line, parse other name = .error ⟨cause, line⟩ →
      parse (text ++ "\n" ++ other) name =
        .error ⟨cause, line + 1 + Text.countNewlines text.toList⟩ := by
  obtain ⟨statements, read, hs, hread, rfl⟩ := parse_eq_ok_iff.mp h
  have htokens := tokenize_append_newline hs other.toList
  rw [← toList_joined] at htokens
  constructor
  · intro q hq
    obtain ⟨others, reads, ho, hreads, rfl⟩ := parse_eq_ok_iff.mp hq
    have hall := mapM_readStatement_append hread (1 + Text.countNewlines text.toList)
      (nil_not_mem_of_tokenize ho)
    rw [hreads] at hall
    rw [ho] at htokens
    obtain ⟨hconnections, hprocesses⟩ := ofStatements_append name read reads
    refine ⟨_, parse_eq_ok_iff.mpr ⟨_, _, htokens, hall, rfl⟩, hconnections, hprocesses, ?_⟩
    intro id
    rw [hprocesses, List.lookup_append]
    cases hl : (ofStatements name read).processes.lookup id with
    | some component => rfl
    | none =>
      have hnew : id ∉ (ofStatements name read).processes.map (·.1) := by
        intro hm
        obtain ⟨q, hq, he⟩ := List.mem_map.mp hm
        exact absurd he.symm (by simpa using List.lookup_eq_none_iff.mp hl q hq)
      rw [lookup_filter_not_mem hnew]
  · intro cause line herror
    have hline : line + (1 + Text.countNewlines text.toList) =
        line + 1 + Text.countNewlines text.toList := (Nat.add_assoc ..).symm
    rw [← hline]
    apply parse_eq_error_iff.mpr
    rcases parse_eq_error_iff.mp herror with ho | ⟨others, ho, hreads⟩
    · rw [ho] at htokens
      exact .inl htokens
    · have hall := mapM_readStatement_append hread (1 + Text.countNewlines text.toList)
        (nil_not_mem_of_tokenize ho)
      rw [hreads] at hall
      rw [ho] at htokens
      exact .inr ⟨_, htokens, hall⟩

/-! A literal with a line end inside, and a comment that only the joining line feed ends. -/

def openEnded : String := "'a\nb' -> IN A(x), A OUT -> IN B # B(y) OUT ->"

theorem openEnded_joined :
    (∃ p, parse openEnded defaultName = .ok p) ∧
    (∃ joined, parse (openEnded ++ "\n" ++ "B(z) OUT -> IN A(w)\n") defaultName = .ok joined ∧
      joined.processes = [("A", "x"), ("B", "z")] ∧
      joined.connections = [.initial ⟨.string "a\nb", ⟨"A", "IN"⟩⟩,
        .edge ⟨⟨"A", "OUT"⟩, ⟨"B", "IN"⟩⟩, .edge ⟨⟨"B", "OUT"⟩, ⟨"A", "IN"⟩⟩]) ∧
    parse (openEnded ++ "\n" ++ "'c' -> IN B\n\n'd' ->") defaultName =
      .error ⟨.badLink true, 3 + 1 + 1⟩ := by
  have hfirst : parse openEnded defaultName = .ok ⟨defaultName, [("A", "x")],
      [.initial ⟨.string "a\nb", ⟨"A", "IN"⟩⟩, .edge ⟨⟨"A", "OUT"⟩, ⟨"B", "IN"⟩⟩]⟩ := by
    decide
  have hsecond : parse "B(z) OUT -> IN A(w)\n" defaultName = .ok ⟨defaultName,
      [("B", "z"), ("A", "w")], [.edge ⟨⟨"B", "OUT"⟩, ⟨"A", "IN"⟩⟩]⟩ := by
    decide
  have hrefused : parse "'c' -> IN B\n\n'd' ->" defaultName = .error ⟨.badLink true, 3⟩ := by
    decide
  obtain ⟨joined, hjoined, hconnections, hprocesses, -⟩ :=
    (parse_joined_by_newline hfirst).1 _ hsecond
  exact ⟨⟨_, hfirst⟩, ⟨joined, hjoined, hprocesses.trans (by decide), hconnections⟩,
    (parse_joined_by_newline hfirst).2 _ _ hrefused⟩

end FlowGraph.Program
