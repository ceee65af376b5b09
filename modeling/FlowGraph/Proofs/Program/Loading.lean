import FlowGraph.Proofs.Definition.RoundTrip
import FlowGraph.Proofs.Program.Grammar
import FlowGraph.Proofs.Program.Scan

/-! Loading a program gives a graph or a fault on a line of the text. Whatever definition a program
stands for is well formed, so no other fault can follow. -/

namespace FlowGraph

namespace Program

def nodes (p : Program) : List Node :=
  p.processes.map fun (id, component) => ⟨id, .string component, .null⟩

/-- A program as a graph, its ports in lower case. -/
def graph (p : Program) : Graph where
  name := p.name
  nodes := p.nodes
  edges := (p.connections.map Connection.lowered).filterMap (·.edge?)
  initializers := (p.connections.map Connection.lowered).filterMap (·.initial?)

theorem definition_eq (p : Program) : p.definition = Definition.layout p.name
    (Definition.nodeFields p.nodes) (p.connections.map Definition.ofConnection) := by
  simp [definition, nodes, Definition.nodeFields, Definition.ofNode, Function.comp_def]

theorem decode_definition (p : Program) : Definition.decode p.definition = .ok p.graph := by
  rw [definition_eq, Definition.decode_layout]
  rfl

theorem length_edge_add_length_initial (connections : List Connection) :
    (connections.filterMap Connection.edge?).length +
      (connections.filterMap Connection.initial?).length = connections.length := by
  induction connections with
  | nil => rfl
  | cons c connections ih =>
    cases c with
    | edge e =>
      have hedge : (Connection.edge e).edge? = some e := rfl
      have hinitial : (Connection.edge e).initial? = none := rfl
      rw [List.filterMap_cons_some hedge, List.filterMap_cons_none hinitial, List.length_cons,
        List.length_cons]
      omega
    | initial i =>
      have hedge : (Connection.initial i).edge? = none := rfl
      have hinitial : (Connection.initial i).initial? = some i := rfl
      rw [List.filterMap_cons_none hedge, List.filterMap_cons_some hinitial, List.length_cons,
        List.length_cons]
      omega

theorem length_connections_graph (p : Program) :
    p.graph.edges.length + p.graph.initializers.length = p.connections.length := by
  rw [graph, length_edge_add_length_initial, List.length_map]

/-! Arrows and connections. -/

theorem length_connections_of_readStatement {tokens : List Located} {s : Statement}
    (h : readStatement tokens = .ok s) :
    s.connections.length = (tokens.map (·.token)).count .arrow := by
  obtain ⟨c, hc, rfl⟩ := readStatement_eq_ok_iff.mp h
  rw [hc, c.count_arrow]
  exact c.length_connections

theorem length_connections_of_forall₂ {statements : List (List Located)} {read : List Statement}
    (h : List.Forall₂ (fun tokens s => readStatement tokens = .ok s) statements read) :
    (read.flatMap (·.connections)).length =
      (statements.flatten.map (·.token)).count .arrow := by
  induction h with
  | nil => rfl
  | cons hs _ ih =>
    rw [List.flatMap_cons, List.length_append, List.flatten_cons, List.map_append,
      List.count_append, length_connections_of_readStatement hs, ih]

theorem parse_eq_ok_iff {text name : String} {p : Program} : parse text name = .ok p ↔
    ∃ statements read, tokenize text.toList = .ok statements ∧
      statements.mapM readStatement = .ok read ∧ p = ofStatements name read := by
  unfold parse
  rw [Outcome.bind_eq_ok_iff]
  constructor
  · rintro ⟨statements, hs, h⟩
    obtain ⟨read, hr, h⟩ := Outcome.bind_eq_ok_iff.mp h
    exact ⟨statements, read, hs, hr, (Except.ok.inj h).symm⟩
  · rintro ⟨statements, read, hs, hr, rfl⟩
    exact ⟨statements, hs, Outcome.bind_eq_ok_iff.mpr ⟨read, hr, rfl⟩⟩

theorem parse_eq_error_iff {text name : String} {e : SyntaxError} :
    parse text name = .error e ↔ tokenize text.toList = .error e ∨
      ∃ statements, tokenize text.toList = .ok statements ∧
        statements.mapM readStatement = .error e := by
  unfold parse
  rw [Outcome.bind_eq_error_iff]
  refine or_congr_right (exists_congr fun statements => and_congr_right fun _ => ?_)
  rw [Outcome.bind_eq_error_iff]
  refine or_iff_left ?_
  rintro ⟨read, -, h⟩
  cases h

/-! Places of faults. -/

/-- A token of the text and the line on which its lexeme starts. -/
def StartsIn (s : List Char) (t : Located) : Prop :=
  ∃ before l after, (scan s).1 = before ++ l :: after ∧ l.token? = some t.token ∧
    t.line = 1 + Text.countNewlines (before.flatMap Lexeme.text)

/-- The scan stops at a character where no lexeme begins. -/
def SyntaxError.StopsScan (s : List Char) (e : SyntaxError) : Prop :=
  ∃ lexemes c rest, scan s = (lexemes, c :: rest) ∧
    s = lexemes.flatMap Lexeme.text ++ c :: rest ∧
    (∀ (l : Lexeme) (after : List Char), l.Valid → c :: rest ≠ l.text ++ after) ∧
    e = ⟨.unexpected c, 1 + Text.countNewlines (lexemes.flatMap Lexeme.text)⟩

/-- The first statement that is no chain is refused on the line of one of its tokens. -/
def SyntaxError.RefusesStatement (s : List Char) (e : SyntaxError) : Prop :=
  ∃ before statement after, tokenize s = .ok (before ++ statement :: after) ∧
    (∀ earlier ∈ before, ∃ c : Chain, earlier.map (·.token) = c.tokens) ∧
    (¬ ∃ c : Chain, statement.map (·.token) = c.tokens) ∧
    readStatement statement = .error e ∧
    ∃ t ∈ statement, StartsIn s t ∧ e.line = t.line

theorem nil_not_mem_of_tokenize {s : List Char} {statements : List (List Located)}
    (h : tokenize s = .ok statements) : [] ∉ statements := by
  obtain ⟨-, rfl⟩ := tokenize_eq_ok_iff.mp h
  exact nil_not_mem_group _ _ _

theorem startsIn_of_tokenize {s : List Char} {statements : List (List Located)}
    (h : tokenize s = .ok statements) {statement : List Located} (hs : statement ∈ statements)
    {t : Located} (ht : t ∈ statement) : StartsIn s t := by
  obtain ⟨-, rfl⟩ := tokenize_eq_ok_iff.mp h
  have hmem : t ∈ (group 1 [] (scan s).1).flatten := List.mem_flatten.mpr ⟨statement, hs, ht⟩
  rw [flatten_group, List.nil_append] at hmem
  exact mem_locate hmem

theorem stopsScan_of_tokenize {s : List Char} {e : SyntaxError} (h : tokenize s = .error e) :
    e.StopsScan s := by
  obtain ⟨c, rest, hrest, rfl⟩ := tokenize_eq_error_iff.mp h
  obtain ⟨htext, -, hstop⟩ := scan_sound s
  rw [hrest] at htext hstop
  exact ⟨(scan s).1, c, rest, by rw [← hrest], htext, lexeme?_eq_none_iff.mp hstop,
    by rw [lineAfter_eq]⟩

theorem refusesStatement_of_mapM {s : List Char} {statements : List (List Located)}
    {e : SyntaxError} (h : tokenize s = .ok statements)
    (he : statements.mapM readStatement = .error e) : e.RefusesStatement s := by
  obtain ⟨before, statement, after, rfl, hb, hs⟩ := Outcome.mapM_eq_error_iff.mp he
  have hne : statement ≠ [] := by
    rintro rfl
    exact nil_not_mem_of_tokenize h (by simp)
  obtain ⟨t, ht, hline⟩ := line_of_readStatement hne hs
  refine ⟨before, statement, after, h, fun earlier hm => ?_, ?_, hs, t, ht, ?_, hline⟩
  · obtain ⟨read, hread⟩ := hb earlier hm
    obtain ⟨c, hc, -⟩ := readStatement_eq_ok_iff.mp hread
    exact ⟨c, hc⟩
  · rintro ⟨c, hc⟩
    rw [readStatement_of_chain hc] at hs
    cases hs
  · exact startsIn_of_tokenize h (by simp) ht

theorem SyntaxError.StopsScan.line_bounds {s : List Char} {e : SyntaxError}
    (h : e.StopsScan s) : 1 ≤ e.line ∧ e.line ≤ 1 + Text.countNewlines s := by
  obtain ⟨lexemes, c, rest, -, hs, -, rfl⟩ := h
  have hcount := congrArg Text.countNewlines hs
  rw [countNewlines_append] at hcount
  constructor <;> simp only <;> omega

theorem SyntaxError.RefusesStatement.line_bounds {s : List Char} {e : SyntaxError}
    (h : e.RefusesStatement s) : 1 ≤ e.line ∧ e.line ≤ 1 + Text.countNewlines s := by
  obtain ⟨-, -, -, -, -, -, -, t, -, ⟨before, l, after, hscan, -, hline⟩, he⟩ := h
  have hcount := congrArg Text.countNewlines (scan_sound s).1
  rw [hscan, List.flatMap_append, countNewlines_append, countNewlines_append] at hcount
  constructor <;> omega

end Program

variable {ε : Type}

theorem loadProgram_of_parse {text : String} {p : Program} (h : Program.parse text = .ok p) :
    (loadProgram text none none : Loading ε).result = .ok p.graph := by
  simp [loadProgram, definitionOfText, h, loadDefinition, Program.decode_definition, deliver]

theorem loadProgram_of_error {text : String} {e : Program.SyntaxError}
    (h : Program.parse text = .error e) :
    (loadProgram text none none : Loading ε).result = .error (.malformed (.program e)) := by
  simp [loadProgram, definitionOfText, h, failed]

/-- A program is loaded as a graph with a node for each of its processes and a connection for each
of its arrows; or it is refused with a line, the one of the first character at which no lexeme
begins, or else one on which a token of the first statement starts that is no chain. -/
theorem loadProgram_graph_or_line (text : String) :
    (∀ statements, Program.tokenize text.toList = .ok statements → [] ∉ statements) ∧
    ((∃ g p statements, (loadProgram text none none : Loading ε).result = .ok g ∧
        Program.parse text = .ok p ∧ Program.tokenize text.toList = .ok statements ∧
        g.nodes = p.processes.map (fun (id, component) => ⟨id, .string component, .null⟩) ∧
        g.edges.length + g.initializers.length =
          (statements.flatten.map (·.token)).count .arrow) ∨
      ∃ e : Program.SyntaxError,
        (loadProgram text none none : Loading ε).result = .error (.malformed (.program e)) ∧
        1 ≤ e.line ∧ e.line ≤ 1 + Text.countNewlines text.toList ∧
        (e.StopsScan text.toList ∨ e.RefusesStatement text.toList)) := by
  refine ⟨fun statements h => Program.nil_not_mem_of_tokenize h, ?_⟩
  cases hp : Program.parse text with
  | ok p =>
    obtain ⟨statements, read, hs, hread, rfl⟩ := Program.parse_eq_ok_iff.mp hp
    refine .inl ⟨_, _, statements, loadProgram_of_parse hp, rfl, hs, rfl, ?_⟩
    rw [Program.length_connections_graph]
    exact Program.length_connections_of_forall₂ (Outcome.mapM_eq_ok_iff.mp hread)
  | error e =>
    refine .inr ⟨e, loadProgram_of_error hp, ?_⟩
    rcases Program.parse_eq_error_iff.mp hp with hs | ⟨statements, hs, hread⟩
    · have hstops := Program.stopsScan_of_tokenize hs
      exact ⟨hstops.line_bounds.1, hstops.line_bounds.2, .inl hstops⟩
    · have hrefuses := Program.refusesStatement_of_mapM hs hread
      exact ⟨hrefuses.line_bounds.1, hrefuses.line_bounds.2, .inr hrefuses⟩

end FlowGraph
