import FlowGraph.Proofs.Definition.Distinct
import FlowGraph.Proofs.Program.Joining
import FlowGraph.Proofs.Program.Names

/-! The processes of a program. They are the nodes to which its text gives a component, in the order
in which it first does, each with the component that it gives first. -/

namespace FlowGraph

namespace Program

/-! What a text declares. -/

/-- The node of a token, if the token gives it a component. -/
def Token.declared : Token → List (String × String)
  | .node id component => if component = "" then [] else [(id, component)]
  | _ => []

@[simp] theorem Token.declared_literal (data : String) : (Token.literal data).declared = [] := rfl

@[simp] theorem Token.declared_arrow : Token.arrow.declared = [] := rfl

@[simp] theorem Token.declared_word (text : String) : (Token.word text).declared = [] := rfl

theorem Token.mem_declared_iff {t : Token} {id component : String} :
    (id, component) ∈ t.declared ↔ component ≠ "" ∧ t = .node id component := by
  cases t with
  | literal | arrow | word => simp
  | node id' component' =>
    by_cases hempty : component' = ""
    · subst hempty
      simp only [declared, if_true, List.not_mem_nil, false_iff, not_and, node.injEq]
      rintro hne - rfl
      exact hne rfl
    · simp only [declared, hempty, if_false, List.mem_singleton, Prod.mk.injEq, node.injEq]
      constructor
      · rintro ⟨rfl, rfl⟩
        exact ⟨hempty, rfl, rfl⟩
      · rintro ⟨-, rfl, rfl⟩
        exact ⟨rfl, rfl⟩

theorem Lexeme.token?_eq_node_iff {l : Lexeme} {id component : String} :
    l.token? = some (.node id component) ↔ l = .node id.toList component.toList := by
  cases l with
  | comment | literal | arrow | word | separator | blanks => simp [token?]
  | node id' component' =>
    have hiff (s : List Char) (t : String) : String.ofList s = t ↔ s = t.toList := by
      rw [← String.toList_inj, String.toList_ofList]
    simp [token?, hiff]

/-- All nodes to which a text gives components, as often as it does, from its start to its end. -/
def declarations (s : List Char) : List (String × String) :=
  ((scan s).1.filterMap Lexeme.token?).flatMap Token.declared

theorem Mention.declared_token (m : Mention) : m.token.declared = m.declared := by
  obtain ⟨id, component⟩ := m
  cases component <;> rfl

theorem Head.declared_tokens (h : Head) : h.tokens.flatMap Token.declared = h.declared := by
  cases h with
  | literal data => rfl
  | port node outport =>
    simp [Head.tokens, Head.declared, node.declared_token]

theorem Link.declared_tokens (l : Link) : l.tokens.flatMap Token.declared = l.node.declared := by
  simp [Link.tokens, l.node.declared_token]

theorem Chain.declared_tokens (c : Chain) : c.tokens.flatMap Token.declared = c.declared := by
  simp [Chain.tokens, Chain.declared, Chain.links, Head.declared_tokens, Link.declared_tokens,
    List.flatMap_assoc, List.flatMap_map]

theorem map_token_locate (line : Nat) (lexemes : List Lexeme) :
    (locate line lexemes).map (·.token) = lexemes.filterMap Lexeme.token? := by
  induction lexemes generalizing line with
  | nil => rfl
  | cons l lexemes ih =>
    cases h : l.token? with
    | none => simp [locate, h, ih]
    | some token => simp [locate, h, ih]

theorem mem_declarations_iff {s : List Char} {id component : String} :
    (id, component) ∈ declarations s ↔
      component ≠ "" ∧ .node id.toList component.toList ∈ (scan s).1 := by
  simp only [declarations, List.mem_flatMap, List.mem_filterMap, Token.mem_declared_iff]
  constructor
  · rintro ⟨-, ⟨l, hl, htoken⟩, hne, rfl⟩
    exact ⟨hne, Lexeme.token?_eq_node_iff.mp htoken ▸ hl⟩
  · rintro ⟨hne, hl⟩
    exact ⟨_, ⟨_, hl, Lexeme.token?_eq_node_iff.mpr rfl⟩, hne, rfl⟩

/-! The first component counts. -/

theorem map_fst_declare (declared : List (String × String)) :
    (declare [] declared).map (·.1) = (declared.map (·.1)).eraseDups := by
  induction declared using List.reverseRecOn with
  | nil => rfl
  | append_singleton declared d ih =>
    rw [declare_concat, ih, List.map_append, List.map_singleton]
    by_cases hd : d.1 ∈ declared.map (·.1)
    · rw [if_pos (List.mem_eraseDups.mpr hd), eraseDups_concat_of_mem hd, ih]
    · rw [if_neg (mt List.mem_eraseDups.mp hd), eraseDups_concat_of_not_mem hd, List.map_append, ih,
        List.map_singleton]

theorem lookup_declare (declared : List (String × String)) (id : String) :
    (declare [] declared).lookup id = declared.lookup id := by
  induction declared with
  | nil => rfl
  | cons d declared ih =>
    have hfirst : declare [] (d :: declared) = declare [d] declared := rfl
    rw [hfirst, declare_eq_append, List.singleton_append, List.lookup_cons, List.lookup_cons]
    cases hd : id == d.1 with
    | true => rfl
    | false =>
      have hnew : id ∉ [d].map (·.1) := by
        simpa using ne_of_beq_false hd
      rw [lookup_filter_not_mem hnew, ih]

/-! Connections. -/

theorem target_mem_processes (source : Source) (target : Endpoint) :
    target.node ∈ (source.connect target).processes := by
  cases source <;> simp [Source.connect, Connection.processes]

theorem source_mem_processes (source target : Endpoint) :
    source.node ∈ ((Source.port source).connect target).processes :=
  List.mem_cons_self

theorem Chain.mem_connections {c : Chain} {h : Head} {l : Link} (hm : (h, l) ∈ c.heads.zip c.links) :
    h.source.connect l.target ∈ c.connections := by
  rw [connections, ← List.map_uncurry_zip_eq_zipWith]
  exact List.mem_map.mpr ⟨_, hm, rfl⟩

theorem Chain.length_heads (c : Chain) : c.heads.length = c.links.length := by
  simp [heads, links]

/-- Each node of a chain is where one of its connections begins or ends. -/
theorem Chain.joined_of_declared {c : Chain} {d : String × String} (h : d ∈ c.declared) :
    ∃ connection ∈ c.connections, d.1 ∈ connection.processes := by
  rcases List.mem_append.mp h with h | h
  · have hhead : c.head ∈ (c.heads.zip c.links).map Prod.fst := by
      rw [List.map_fst_zip c.length_heads.le]
      exact List.mem_cons_self
    obtain ⟨⟨head, l⟩, hm, hfirst⟩ := List.mem_map.mp hhead
    refine ⟨_, c.mem_connections hm, ?_⟩
    rw [← show head = c.head from hfirst] at h
    cases head with
    | literal data => cases h
    | port node outport =>
      rw [Mention.id_of_mem_declared h]
      exact source_mem_processes ⟨node.id, outport⟩ l.target
  · obtain ⟨l, hl, hd⟩ := List.mem_flatMap.mp h
    rw [← List.map_snd_zip c.length_heads.ge] at hl
    obtain ⟨⟨head, l⟩, hm, rfl⟩ := List.mem_map.mp hl
    refine ⟨_, c.mem_connections hm, ?_⟩
    rw [Mention.id_of_mem_declared hd]
    exact target_mem_processes head.source l.target

/-! Programs. -/

theorem exists_chains_of_mapM {statements : List (List Located)} {read : List Statement}
    (h : statements.mapM readStatement = .ok read) : ∃ chains : List Chain,
      statements.map (·.map (·.token)) = chains.map Chain.tokens ∧
      read = chains.map Chain.statement := by
  induction Outcome.mapM_eq_ok_iff.mp h with
  | nil => exact ⟨[], rfl, rfl⟩
  | cons hs hrest ih =>
    obtain ⟨c, hc, rfl⟩ := readStatement_eq_ok_iff.mp hs
    obtain ⟨chains, htokens, rfl⟩ := ih (Outcome.mapM_eq_ok_iff.mpr hrest)
    exact ⟨c :: chains, congrArg₂ List.cons hc htokens, rfl⟩

/-- The statements of a text are chains, and its declarations are those of the chains in order. -/
theorem exists_chains_of_parse {text name : String} {p : Program} (h : parse text name = .ok p) :
    ∃ chains : List Chain, clauses [] (scan text.toList).1 = chains.map Chain.tokens ∧
      declarations text.toList = chains.flatMap Chain.declared ∧
      p = ofStatements name (chains.map Chain.statement) := by
  obtain ⟨statements, read, htokens, hread, rfl⟩ := parse_eq_ok_iff.mp h
  obtain ⟨chains, hchains, rfl⟩ := exists_chains_of_mapM hread
  obtain ⟨-, rfl⟩ := tokenize_eq_ok_iff.mp htokens
  refine ⟨chains, (map_group 1 [] _).symm.trans hchains, ?_, rfl⟩
  calc declarations text.toList
      = (((group 1 [] (scan text.toList).1).flatten).map (·.token)).flatMap Token.declared := by
        rw [flatten_group, List.nil_append, map_token_locate, declarations]
    _ = (chains.map Chain.tokens).flatten.flatMap Token.declared := by
        rw [List.map_flatten, hchains]
    _ = chains.flatMap Chain.declared := by
        simp [← List.flatMap_def, List.flatMap_assoc, Chain.declared_tokens]

theorem processes_eq_declare {text name : String} {p : Program} (h : parse text name = .ok p) :
    p.processes = declare [] (declarations text.toList) := by
  obtain ⟨chains, -, hdeclared, rfl⟩ := exists_chains_of_parse h
  rw [hdeclared, ofStatements, List.flatMap_map]
  rfl

theorem component_of_mem_declarations {s : List Char} {id component : String}
    (h : (id, component) ∈ declarations s) : component ≠ "" ∧
      ∀ c ∈ component.toList, Text.isBlank c = false ∧ c ≠ '(' ∧ c ≠ ')' := by
  obtain ⟨hne, hl⟩ := mem_declarations_iff.mp h
  have hvalid : (Lexeme.node id.toList component.toList).Valid := (scan_sound s).2.1 _ hl
  refine ⟨hne, fun c hc => ?_⟩
  have hchar := hvalid.2 c hc
  simp only [isComponentChar, Bool.and_eq_true, bne_iff_ne, Bool.not_eq_true'] at hchar
  exact ⟨hchar.2, hchar.1.1, hchar.1.2⟩

theorem joined_of_parse {text name : String} {p : Program} (h : parse text name = .ok p)
    {d : String × String} (hd : d ∈ declarations text.toList) :
    ∃ c ∈ p.connections, d.1 ∈ c.processes := by
  obtain ⟨chains, -, hdeclared, rfl⟩ := exists_chains_of_parse h
  rw [hdeclared] at hd
  obtain ⟨chain, hchain, hd⟩ := List.mem_flatMap.mp hd
  obtain ⟨c, hc, hjoined⟩ := chain.joined_of_declared hd
  exact ⟨c, List.mem_flatMap.mpr ⟨_, List.mem_map_of_mem hchain, hc⟩, hjoined⟩

/-- A process of a program is a node that its text gives a component somewhere. The processes stand
in the order in which the text first does so, and that is statement by statement, from the head of
each; what it says first counts. All of them are joined by connections, and no name, port or
component has a character in it that would end it. -/
theorem processes_first_declared {text name : String} {p : Program}
    (h : parse text name = .ok p) :
    (∀ id, id ∈ p.processes.map (·.1) ↔
      ∃ component, component ≠ "" ∧ .node id.toList component.toList ∈ (scan text.toList).1) ∧
    (∃ chains : List Chain, clauses [] (scan text.toList).1 = chains.map Chain.tokens ∧
      declarations text.toList = chains.flatMap Chain.declared) ∧
    p.processes.map (·.1) = ((declarations text.toList).map (·.1)).eraseDups ∧
    (∀ id, p.processes.lookup id = (declarations text.toList).lookup id) ∧
    (∀ d ∈ p.processes, (∃ c ∈ p.connections, d.1 ∈ c.processes) ∧ PlainName d.1 ∧ d.2 ≠ "" ∧
      ∀ c ∈ d.2.toList, Text.isBlank c = false ∧ c ≠ '(' ∧ c ≠ ')') ∧
    ∀ c ∈ p.connections, ∀ s ∈ c.processes ++ c.ports, PlainName s := by
  have hprocesses := processes_eq_declare h
  obtain ⟨chains, htokens, hdeclared, -⟩ := exists_chains_of_parse h
  obtain ⟨hnames, hnamed⟩ := named_of_parse h
  have hkeys : p.processes.map (·.1) = ((declarations text.toList).map (·.1)).eraseDups := by
    rw [hprocesses, map_fst_declare]
  refine ⟨fun id => ?_, ⟨chains, htokens, hdeclared⟩, hkeys, fun id => ?_, fun d hd => ?_, ?_⟩
  · rw [hkeys, List.mem_eraseDups, List.mem_map]
    constructor
    · rintro ⟨⟨id, component⟩, hd, rfl⟩
      exact ⟨component, mem_declarations_iff.mp hd⟩
    · rintro ⟨component, hd⟩
      exact ⟨_, mem_declarations_iff.mpr hd, rfl⟩
  · rw [hprocesses, lookup_declare]
  · have hmem : d ∈ declarations text.toList := by
      rw [hprocesses] at hd
      exact (mem_declare hd).resolve_left List.not_mem_nil
    exact ⟨joined_of_parse h hmem, (hnames d hd).plainName, component_of_mem_declarations hmem⟩
  · intro c hc s hs
    exact ((hnamed c hc).isName s hs).plainName

/-! Components in a comment and in a literal, an empty one, and others that come too late. -/

def redeclared : String :=
  "# A(x)\nA OUT -> IN B(first) OUT -> IN A(second), B(other) OUT -> IN C()\n'D(y)' -> IN A(third)\n"

theorem redeclared_processes : ∃ p, parse redeclared "main" = .ok p ∧
    p.processes.map (·.1) = ["B", "A"] ∧ p.processes.lookup "B" = some "first" ∧
    p.processes.lookup "A" = some "second" ∧ p.processes.lookup "C" = none ∧
    (∃ c ∈ p.connections, "A" ∈ c.processes) ∧ PlainName "A" := by
  have hparse : parse redeclared "main" = .ok ⟨"main", [("B", "first"), ("A", "second")],
      [.edge ⟨⟨"A", "OUT"⟩, ⟨"B", "IN"⟩⟩, .edge ⟨⟨"B", "OUT"⟩, ⟨"A", "IN"⟩⟩,
        .edge ⟨⟨"B", "OUT"⟩, ⟨"C", "IN"⟩⟩, .initial ⟨.string "D(y)", ⟨"A", "IN"⟩⟩]⟩ := by
    decide +kernel
  have hdeclared : declarations redeclared.toList =
      [("B", "first"), ("A", "second"), ("B", "other"), ("A", "third")] := by
    decide +kernel
  obtain ⟨-, -, hkeys, hlookup, hprocess, -⟩ := processes_first_declared hparse
  rw [hdeclared] at hkeys hlookup
  obtain ⟨hjoined, hname, -⟩ := hprocess ("A", "second") (by decide)
  exact ⟨_, hparse, hkeys.trans (by decide), (hlookup "B").trans (by decide),
    (hlookup "A").trans (by decide), (hlookup "C").trans (by decide), hjoined, hname⟩

end Program

end FlowGraph
