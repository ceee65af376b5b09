import FlowGraph.Proofs.Load.FixedPoint
import FlowGraph.Proofs.Text.Lowercase

/-! The ids and ports of a graph that a program is loaded as. They are names of its text, the ports
in lower case, and so they have few characters that mean something elsewhere. -/

namespace FlowGraph

namespace Program

/-! Tokens. -/

def Token.Named : Token → Prop
  | .literal _ | .arrow => True
  | .node id _ => IsName id.toList
  | .word text => IsName text.toList

theorem Lexeme.named_token {l : Lexeme} {t : Token} (h : l.Valid) (ht : l.token? = some t) :
    t.Named := by
  cases l with
  | comment | separator | blanks => cases ht
  | literal | arrow =>
    obtain rfl := Option.some.inj ht
    exact trivial
  | node id component =>
    obtain rfl := Option.some.inj ht
    rw [Token.Named, String.toList_ofList]
    exact h.1
  | word text =>
    obtain rfl := Option.some.inj ht
    rw [Token.Named, String.toList_ofList]
    exact h

theorem named_of_tokenize {s : List Char} {statements : List (List Located)}
    (h : tokenize s = .ok statements) {statement : List Located} (hs : statement ∈ statements) :
    ∀ t ∈ statement.map (·.token), t.Named := by
  intro token htoken
  obtain ⟨t, ht, rfl⟩ := List.mem_map.mp htoken
  obtain ⟨before, l, after, hscan, hl, -⟩ := startsIn_of_tokenize h hs ht
  have hmem : l ∈ (scan s).1 := by simp [hscan]
  exact Lexeme.named_token ((scan_sound s).2.1 l hmem) hl

/-! Chains. -/

def Head.Named : Head → Prop
  | .literal _ => True
  | .port node outport => IsName node.id.toList ∧ IsName outport.toList

def Link.Named (l : Link) : Prop :=
  IsName l.node.id.toList ∧ IsName l.inport.toList

theorem Mention.named_token {m : Mention} (h : m.token.Named) : IsName m.id.toList := by
  obtain ⟨id, component⟩ := m
  cases component <;> exact h

theorem Head.named_of_tokens {h : Head} (ht : ∀ t ∈ h.tokens, t.Named) : h.Named := by
  cases h with
  | literal data => exact trivial
  | port node outport =>
    simp only [Head.tokens, List.forall_mem_cons] at ht
    exact ⟨Mention.named_token ht.1, ht.2.1⟩

theorem Link.named_of_tokens {l : Link} (ht : ∀ t ∈ l.tokens, t.Named) : l.Named := by
  simp only [Link.tokens, List.forall_mem_cons] at ht
  exact ⟨Mention.named_token ht.2.2.1, ht.2.1⟩

theorem Chain.named_of_tokens {c : Chain} (h : ∀ t ∈ c.tokens, t.Named) :
    (∀ head ∈ c.heads, head.Named) ∧ ∀ link ∈ c.links, link.Named := by
  simp only [Chain.tokens, List.forall_mem_append, List.forall_mem_flatMap,
    List.forall_mem_singleton] at h
  obtain ⟨⟨hhead, hinner⟩, hlast⟩ := h
  constructor
  · intro head hh
    rcases List.mem_cons.mp hh with rfl | hh
    · exact Head.named_of_tokens hhead
    · obtain ⟨⟨l, outport⟩, hl, rfl⟩ := List.mem_map.mp hh
      obtain ⟨hlink, houtport⟩ := hinner _ hl
      exact ⟨(Link.named_of_tokens hlink).1, houtport⟩
  · intro link hlink
    rcases List.mem_append.mp hlink with hlink | hlink
    · obtain ⟨⟨l, outport⟩, hl, rfl⟩ := List.mem_map.mp hlink
      exact Link.named_of_tokens (hinner _ hl).1
    · rw [List.mem_singleton.mp hlink]
      exact Link.named_of_tokens hlast

end Program

/-! Connections. -/

def Endpoint.Named (p : Endpoint) : Prop :=
  Program.IsName p.node.toList ∧ Program.IsName p.port.toList

def Connection.Named : Connection → Prop
  | .edge e => e.source.Named ∧ e.target.Named
  | .initial i => i.target.Named

/-- The processes that a connection joins. -/
def Connection.processes : Connection → List String
  | .edge e => [e.source.node, e.target.node]
  | .initial i => [i.target.node]

def Connection.ports : Connection → List String
  | .edge e => [e.source.port, e.target.port]
  | .initial i => [i.target.port]

theorem Connection.Named.isName {c : Connection} (h : c.Named) :
    ∀ s ∈ c.processes ++ c.ports, Program.IsName s.toList := by
  cases c with
  | edge e =>
    obtain ⟨⟨hsource, hout⟩, htarget, hin⟩ := h
    simp [processes, ports, hsource, hout, htarget, hin]
  | initial i =>
    obtain ⟨htarget, hin⟩ := h
    simp [processes, ports, htarget, hin]

namespace Program

theorem named_connect {h : Head} {l : Link} (hh : h.Named) (hl : l.Named) :
    (h.source.connect l.target).Named := by
  cases h with
  | literal data => exact hl
  | port node outport => exact ⟨hh, hl⟩

theorem Mention.id_of_mem_declared {m : Mention} {d : String × String} (h : d ∈ m.declared) :
    d.1 = m.id := by
  obtain ⟨id, component⟩ := m
  unfold declared at h
  split at h
  · cases h
  · split at h
    · cases h
    · rw [List.mem_singleton.mp h]

theorem Mention.named_declared {m : Mention} (h : IsName m.id.toList) :
    ∀ d ∈ m.declared, IsName d.1.toList := by
  intro d hd
  rw [id_of_mem_declared hd]
  exact h

theorem Chain.named_statement {c : Chain} (h : ∀ t ∈ c.tokens, t.Named) :
    (∀ d ∈ c.statement.declared, IsName d.1.toList) ∧
      ∀ connection ∈ c.statement.connections, connection.Named := by
  obtain ⟨hheads, hlinks⟩ := Chain.named_of_tokens h
  constructor
  · intro d hd
    rcases List.mem_append.mp hd with hd | hd
    · have hhead := hheads c.head List.mem_cons_self
      cases hc : c.head with
      | literal data => simp [hc, Head.declared] at hd
      | port node outport =>
        rw [hc] at hd hhead
        exact Mention.named_declared hhead.1 d hd
    · obtain ⟨l, hl, hd⟩ := List.mem_flatMap.mp hd
      exact Mention.named_declared (hlinks l hl).1 d hd
  · intro connection hconnection
    rw [Chain.statement, Chain.connections, ← List.map_uncurry_zip_eq_zipWith] at hconnection
    obtain ⟨⟨head, link⟩, hmem, rfl⟩ := List.mem_map.mp hconnection
    obtain ⟨hhead, hlink⟩ := List.of_mem_zip hmem
    exact named_connect (hheads head hhead) (hlinks link hlink)

/-! Programs. -/

theorem mem_declare {known declared : List (String × String)} {d : String × String}
    (h : d ∈ declare known declared) : d ∈ known ∨ d ∈ declared := by
  induction declared generalizing known with
  | nil => exact .inl h
  | cons first declared ih =>
    rcases ih h with hd | hd
    · dsimp only at hd
      split at hd
      · exact .inl hd
      · rw [List.mem_append, List.mem_singleton] at hd
        rcases hd with hd | rfl
        · exact .inl hd
        · exact .inr List.mem_cons_self
    · exact .inr (.tail _ hd)

theorem named_of_parse {text name : String} {p : Program} (h : parse text name = .ok p) :
    (∀ d ∈ p.processes, IsName d.1.toList) ∧ ∀ c ∈ p.connections, c.Named := by
  obtain ⟨statements, read, htokens, hread, rfl⟩ := parse_eq_ok_iff.mp h
  have hstatement {s : Statement} (hs : s ∈ read) :
      (∀ d ∈ s.declared, IsName d.1.toList) ∧ ∀ c ∈ s.connections, c.Named := by
    obtain ⟨tokens, hmem, hs⟩ := Outcome.exists_of_mem_forall₂ (Outcome.mapM_eq_ok_iff.mp hread) hs
    obtain ⟨c, hc, rfl⟩ := readStatement_eq_ok_iff.mp hs
    exact Chain.named_statement (hc ▸ named_of_tokenize htokens hmem)
  constructor
  · intro d hd
    rcases mem_declare hd with hd | hd
    · cases hd
    · obtain ⟨s, hs, hd⟩ := List.mem_flatMap.mp hd
      exact (hstatement hs).1 d hd
  · intro c hc
    obtain ⟨s, hs, hc⟩ := List.mem_flatMap.mp hc
    exact (hstatement hs).2 c hc

end Program

/-! Graphs. -/

/-- Everything in the graph has a name of a text, ports one in lower case. -/
structure Graph.Named (g : Graph) : Prop where
  nodes : ∀ n ∈ g.nodes, Program.IsName n.id.toList
  edges : ∀ e ∈ g.edges, ∃ e' : Edge, (e'.source.Named ∧ e'.target.Named) ∧ e'.lowered = e
  initializers : ∀ i ∈ g.initializers, ∃ i' : Initializer, i'.target.Named ∧ i'.lowered = i

theorem Program.named_graph {p : Program} (hp : ∀ d ∈ p.processes, IsName d.1.toList)
    (hc : ∀ c ∈ p.connections, c.Named) : p.graph.Named where
  nodes := by
    intro n hn
    obtain ⟨d, hd, rfl⟩ := List.mem_map.mp hn
    exact hp d hd
  edges := by
    intro e he
    obtain ⟨lowered, hl, he⟩ := List.mem_filterMap.mp he
    obtain ⟨c, hmem, rfl⟩ := List.mem_map.mp hl
    cases c with
    | edge e' => exact ⟨e', hc _ hmem, Option.some.inj he⟩
    | initial i => cases he
  initializers := by
    intro i hi
    obtain ⟨lowered, hl, hi⟩ := List.mem_filterMap.mp hi
    obtain ⟨c, hmem, rfl⟩ := List.mem_map.mp hl
    cases c with
    | edge e => cases hi
    | initial i' => exact ⟨i', hc _ hmem, Option.some.inj hi⟩

theorem named_of_loadProgram {ε : Type} {text : String} {receiver : Option (Receiver ε)}
    {g : Graph} (h : (loadProgram text receiver none).result = .ok g) :
    g.name = Program.defaultName ∧ g.Named := by
  obtain ⟨d, hd, hdecode⟩ := decode_of_loadProgram h
  obtain ⟨p, hp, rfl⟩ := definitionOfText_none_iff.mp hd
  rw [Program.decode_definition] at hdecode
  obtain rfl := Except.ok.inj hdecode
  obtain ⟨hprocesses, hconnections⟩ := Program.named_of_parse hp
  obtain ⟨statements, read, -, -, rfl⟩ := Program.parse_eq_ok_iff.mp hp
  exact ⟨rfl, Program.named_graph hprocesses hconnections⟩

/-! Characters that no name has. -/

namespace Text

variable {ranges others : List (Nat × Nat)} {n : Nat}

theorem exists_of_inRanges (h : inRanges ranges n = true) : ∃ r ∈ ranges, r.1 ≤ n ∧ n ≤ r.2 := by
  induction ranges with
  | nil => cases h
  | cons r ranges ih =>
    obtain ⟨first, last⟩ := r
    simp only [inRanges] at h
    split at h
    · cases h
    · next hfirst =>
      split at h
      · next hlast => exact ⟨_, List.mem_cons_self, Nat.le_of_not_lt hfirst, hlast⟩
      · obtain ⟨r, hr, hn⟩ := ih h
        exact ⟨r, .tail _ hr, hn⟩

/-- Whether no range of the one set has a code point in common with a range of the other. -/
def apart (ranges others : List (Nat × Nat)) : Bool :=
  ranges.all fun r => others.all fun r' => r.2.blt r'.1 || r'.2.blt r.1

theorem inRanges_eq_false_of_apart (h : apart ranges others = true)
    (hn : inRanges ranges n = true) : inRanges others n = false := by
  rw [Bool.eq_false_iff]
  intro hn'
  obtain ⟨r, hr, hfirst, hlast⟩ := exists_of_inRanges hn
  obtain ⟨r', hr', hfirst', hlast'⟩ := exists_of_inRanges hn'
  have hapart : r.2 < r'.1 ∨ r'.2 < r.1 := by
    simpa using List.all_eq_true.mp (List.all_eq_true.mp h r hr) r' hr'
  omega

theorem isBlank_eq_false_of_isWord {c : Char} (h : isWord c = true) : isBlank c = false := by
  have hapart : apart alphanumericRanges blankRanges = true := by decide +kernel
  rcases Bool.or_eq_true_iff.mp h with hc | hc
  · rw [beq_iff_eq.mp hc]
    decide
  · exact inRanges_eq_false_of_apart hapart hc

end Text

namespace Program

/-- Not in names, and before the small letters. -/
structure Foreign (c : Char) : Prop where
  nameChar : isNameChar c = false
  hyphen : c ≠ '-'
  small : c.toNat < 0x61

instance (c : Char) : Decidable (Foreign c) :=
  decidable_of_iff (isNameChar c = false ∧ c ≠ '-' ∧ c.toNat < 0x61)
    ⟨fun ⟨hname, hhyphen, hsmall⟩ => ⟨hname, hhyphen, hsmall⟩,
      fun ⟨hname, hhyphen, hsmall⟩ => ⟨hname, hhyphen, hsmall⟩⟩

theorem IsName.forall_mem {s : List Char} (h : IsName s) :
    ∀ c ∈ s, isNameChar c = true ∨ c = '-' := by
  obtain ⟨first, rest, rfl, hfirst, hrest⟩ := isName_iff.mp h
  intro c hc
  rcases List.mem_cons.mp hc with rfl | hc
  · exact .inl hfirst
  · exact hrest c hc

theorem IsName.not_mem {s : List Char} {c : Char} (h : IsName s) (hc : Foreign c) : c ∉ s := by
  intro hmem
  rcases h.forall_mem c hmem with hname | hname
  · cases hc.nameChar.symm.trans hname
  · exact hc.hyphen hname

theorem IsName.not_mem_lowercase {s : String} {c : Char} (h : IsName s.toList) (hc : Foreign c) :
    c ∉ (Text.lowercase s).toList := by
  intro hmem
  rw [Text.lowercase, String.toList_ofList] at hmem
  rcases Text.mem_or_le_of_mem_lowerAfter hmem with hs | hle
  · exact h.not_mem hc hs
  · exact Nat.not_le_of_lt hc.small hle

theorem IsName.not_blank {s : List Char} (h : IsName s) : ∀ c ∈ s, Text.isBlank c = false := by
  intro c hc
  rcases h.forall_mem c hc with hname | rfl
  · rcases Bool.or_eq_true_iff.mp hname with hdot | hword
    · rw [beq_iff_eq.mp hdot]
      decide
    · exact Text.isBlank_eq_false_of_isWord hword
  · decide

/-- The marks that stand around names. -/
def enclosing : List Char :=
  ['\x27', '"', ',', '(', ')', '>']

theorem IsName.not_enclosing {s : List Char} (h : IsName s) : ∀ c ∈ s, c ∉ enclosing := by
  have hmarks : enclosing.any isNameChar = false := by decide
  intro c hc hmem
  rcases h.forall_mem c hc with hname | rfl
  · exact List.any_eq_false.mp hmarks c hmem hname
  · exact absurd hmem (by decide)

/-- A name, and so not empty, and without blanks and the marks that stand around names. -/
structure PlainName (s : String) : Prop where
  name : IsName s.toList
  ne_empty : s ≠ ""
  not_blank : ∀ c ∈ s.toList, Text.isBlank c = false
  not_enclosing : ∀ c ∈ s.toList, c ∉ enclosing

theorem IsName.plainName {s : String} (h : IsName s.toList) : PlainName s where
  name := h
  ne_empty := by
    rintro rfl
    obtain ⟨c, rest, hs, -⟩ := isName_iff.mp h
    cases hs
  not_blank := h.not_blank
  not_enclosing := h.not_enclosing

end Program

end FlowGraph
