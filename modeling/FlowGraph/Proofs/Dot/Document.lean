import FlowGraph.Proofs.Dot.Reading
import FlowGraph.Proofs.Program.Names

/-! What the document of a graph is read as: a box for each node, then the edges, in the order of
the graph, with its ids and ports, if these hold no backslash and are not taken for markup. -/

namespace FlowGraph.Dot

open FlowGraph.Dot.Language

variable {g : Graph}

/-! Ids and ports as they are drawn. -/

def drawnId (id : String) : List Char :=
  id.toList.filter (!Text.isBlank ·)

def drawnPort (port : String) : List Char :=
  port.toList.filter (· ≠ '.')

def drawnData (index : Nat) : List Char :=
  "data".toList ++ (toString index).toList

def ids (g : Graph) : List String :=
  g.nodes.map (·.id) ++ g.initializers.map (·.target.node) ++
    g.edges.flatMap fun e => [e.source.node, e.target.node]

/-- Edges are drawn without the ports that they enter. -/
def labels (g : Graph) : List String :=
  g.initializers.map (·.target.port) ++ g.edges.map (·.source.port)

theorem toList_nodeId (id : String) : (nodeId id).toList = drawnId id :=
  String.toList_ofList

theorem toList_portLabel (port : String) : (portLabel port).toList = drawnPort port :=
  String.toList_ofList

theorem toList_dataNode (index : Nat) : (dataNode index).toList = drawnData index :=
  String.toList_append

/-! Graphs, given what each text in them is read as. -/

/-- The items of the document of a graph in which each text is read as its name. -/
def items (name : List Char → Id) (g : Graph) : List Item :=
  g.nodes.map (fun n => nodeItem (name (drawnId n.id))) ++
    g.initializers.mapIdx (fun index i => edgeItem (name (drawnData index))
      (name (drawnId i.target.node)) (name (drawnPort i.target.port))) ++
    g.edges.map fun e => edgeItem (name (drawnId e.source.node)) (name (drawnId e.target.node))
      (name (drawnPort e.source.port))

theorem forall₂_readsAs_map {α : Type} {xs : List α} {f : α → Statement} {h : α → Item}
    (hxs : ∀ x ∈ xs, ReadsAs (f x) (h x)) : List.Forall₂ ReadsAs (xs.map f) (xs.map h) := by
  rw [List.forall₂_map_left_iff, List.forall₂_map_right_iff, List.forall₂_same]
  exact hxs

theorem read_document_of_names {name : List Char → Id} (hname : '\n' ∉ g.name.toList)
    (hids : ∀ id ∈ ids g, ReadsName (drawnId id) (name (drawnId id)))
    (hlabels : ∀ port ∈ labels g, ReadsName (drawnPort port) (name (drawnPort port)))
    (hdata : ∀ index, ReadsName (drawnData index) (name (drawnData index))) :
    read (document g).toList = some (items name g) := by
  simp only [ids, labels, List.forall_mem_append, List.forall_mem_map, List.forall_mem_flatMap,
    List.forall_mem_cons] at hids hlabels
  obtain ⟨⟨hnodes, htargets⟩, hends⟩ := hids
  have hnodes : List.Forall₂ ReadsAs (g.nodes.map fun n => .node (nodeId n.id))
      (g.nodes.map fun n => nodeItem (name (drawnId n.id))) := by
    refine forall₂_readsAs_map fun n hn => .node ?_
    rw [toList_nodeId]
    exact hnodes n hn
  have hedges : List.Forall₂ ReadsAs (g.edges.map ofEdge) (g.edges.map fun e =>
      edgeItem (name (drawnId e.source.node)) (name (drawnId e.target.node))
        (name (drawnPort e.source.port))) := by
    refine forall₂_readsAs_map fun e he => .edge ?_ ?_ ?_
    · rw [toList_nodeId]
      exact (hends e he).1
    · rw [toList_nodeId]
      exact (hends e he).2.1
    · rw [toList_portLabel]
      exact hlabels.2 e he
  have hinitializers : List.Forall₂ ReadsAs (g.initializers.mapIdx ofInitializer)
      (g.initializers.mapIdx fun index i => edgeItem (name (drawnData index))
        (name (drawnId i.target.node)) (name (drawnPort i.target.port))) := by
    rw [List.mapIdx_eq_zipIdx_map, List.mapIdx_eq_zipIdx_map]
    refine forall₂_readsAs_map fun i hi => .edge ?_ ?_ ?_
    all_goals have hmem := List.fst_mem_of_mem_zipIdx hi
    · rw [toList_dataNode]
      exact hdata i.2
    · rw [toList_nodeId]
      exact htargets i.1 hmem
    · rw [toList_portLabel]
      exact hlabels.1 i.1 hmem
  exact read_document hname (List.rel_append (List.rel_append hnodes hinitializers) hedges)

/-! Texts that are read as they are. -/

structure Plain (s : List Char) : Prop where
  backslash : '\\' ∉ s
  markup : ¬ (s.head? = some '<' ∧ s.getLast? = some '>')

instance : DecidablePred Plain := fun s =>
  decidable_of_iff ('\\' ∉ s ∧ ¬ (s.head? = some '<' ∧ s.getLast? = some '>'))
    ⟨fun ⟨hslash, hmarkup⟩ => ⟨hslash, hmarkup⟩, fun ⟨hslash, hmarkup⟩ => ⟨hslash, hmarkup⟩⟩

theorem Plain.readsName {s : List Char} (h : Plain s) (hline : '\n' ∉ s) :
    ReadsName s (.text s) :=
  ⟨[], .inl rfl, fun _ hr => token?_identifier_of_plain h.backslash hline h.markup hr⟩

theorem newline_not_mem_drawnId (id : String) : '\n' ∉ drawnId id := by
  intro h
  have hblank := (List.mem_filter.mp h).2
  cases hblank

theorem newline_not_mem_drawnPort {port : String} (h : '\n' ∉ port.toList) :
    '\n' ∉ drawnPort port :=
  fun hmem => h (List.mem_filter.mp hmem).1

theorem plain_of_not_mem {s : List Char} (hslash : '\\' ∉ s) (hopen : '<' ∉ s) : Plain s :=
  ⟨hslash, fun ⟨hhead, _⟩ => hopen (List.mem_of_mem_head? hhead)⟩

theorem not_mem_drawnData {c : Char} (hdata : c ∉ "data".toList) (hdigit : Text.isDigit c = false)
    (index : Nat) : c ∉ drawnData index := by
  intro hc
  rcases List.mem_append.mp hc with hc | hc
  · exact hdata hc
  · have hdecimal : c ∈ Text.decimalDigits index := by simpa [Text.decimalDigits] using hc
    cases hdigit.symm.trans (Text.isDigit_of_mem_decimalDigits hdecimal)

theorem readsName_drawnData (index : Nat) : ReadsName (drawnData index) (.text (drawnData index)) :=
  have hnot {c : Char} := @not_mem_drawnData c
  (plain_of_not_mem (hnot (by decide) rfl index) (hnot (by decide) rfl index)).readsName
    (hnot (by decide) rfl index)

/-- What a document must not have in order to be read back: a line feed in its comment or a label,
backslashes, and markup. -/
structure Readable (g : Graph) : Prop where
  name : '\n' ∉ g.name.toList
  ids : ∀ id ∈ ids g, Plain (drawnId id)
  labels : ∀ port ∈ labels g, Plain (drawnPort port) ∧ '\n' ∉ port.toList

theorem read_document_of_readable (h : Readable g) :
    read (document g).toList = some (items .text g) := by
  refine read_document_of_names h.name (fun id hid => ?_) (fun port hport => ?_) readsName_drawnData
  · exact (h.ids id hid).readsName (newline_not_mem_drawnId id)
  · obtain ⟨hplain, hline⟩ := h.labels port hport
    exact hplain.readsName (newline_not_mem_drawnPort hline)

/-! Programs. -/

theorem foreign_marks :
    Program.Foreign '\\' ∧ Program.Foreign '<' ∧ Program.Foreign '\n' := by
  decide

theorem plain_filter {s : List Char} (hslash : '\\' ∉ s) (hopen : '<' ∉ s) (keep : Char → Bool) :
    Plain (s.filter keep) :=
  plain_of_not_mem (fun h => hslash (List.mem_filter.mp h).1) fun h =>
    hopen (List.mem_filter.mp h).1

theorem plain_drawnId_of_isName {id : String} (h : Program.IsName id.toList) :
    Plain (drawnId id) := by
  obtain ⟨hslash, hopen, -⟩ := foreign_marks
  exact plain_filter (h.not_mem hslash) (h.not_mem hopen) _

theorem plain_drawnPort_of_isName {port : String} (h : Program.IsName port.toList) :
    Plain (drawnPort (Text.lowercase port)) ∧ '\n' ∉ (Text.lowercase port).toList := by
  obtain ⟨hslash, hopen, hline⟩ := foreign_marks
  exact ⟨plain_filter (h.not_mem_lowercase hslash) (h.not_mem_lowercase hopen) _,
    h.not_mem_lowercase hline⟩

theorem readable_of_named (hname : '\n' ∉ g.name.toList) (h : g.Named) : Readable g where
  name := hname
  ids := by
    simp only [ids, List.forall_mem_append, List.forall_mem_map, List.forall_mem_flatMap]
    refine ⟨⟨fun n hn => plain_drawnId_of_isName (h.nodes n hn), fun i hi => ?_⟩, fun e he => ?_⟩
    · obtain ⟨i, hnamed, rfl⟩ := h.initializers i hi
      exact plain_drawnId_of_isName hnamed.1
    · obtain ⟨e, hnamed, rfl⟩ := h.edges e he
      intro id hid
      simp only [List.mem_cons, List.not_mem_nil, or_false] at hid
      rcases hid with rfl | rfl
      · exact plain_drawnId_of_isName hnamed.1.1
      · exact plain_drawnId_of_isName hnamed.2.1
  labels := by
    simp only [labels, List.forall_mem_append, List.forall_mem_map]
    refine ⟨fun i hi => ?_, fun e he => ?_⟩
    · obtain ⟨i, hnamed, rfl⟩ := h.initializers i hi
      exact plain_drawnPort_of_isName hnamed.2
    · obtain ⟨e, hnamed, rfl⟩ := h.edges e he
      exact plain_drawnPort_of_isName hnamed.1.2

/-- A document is read as the statements of its graph, with every id and port as it is drawn,
wherever it stands; so are the documents of all graphs that programs are loaded as. -/
theorem read_document_faithful {ε : Type} :
    (∀ g, Readable g → read (document g).toList = some (items .text g)) ∧
    ∀ (text : String) (receiver : Option (Receiver ε)) (g : Graph),
      (loadProgram text receiver none).result = .ok g →
        read (document g).toList = some (items .text g) := by
  refine ⟨fun g h => read_document_of_readable h, fun text receiver g h => ?_⟩
  obtain ⟨hname, hnamed⟩ := named_of_loadProgram h
  have hline : '\n' ∉ g.name.toList := by
    rw [hname]
    decide
  exact read_document_of_readable (readable_of_named hline hnamed)

/-- Ids with marks of the language in them, or with nothing, and ids that are a keyword, a numeral,
or the one of the packet. -/
def crowdedGraph : Graph where
  name := "crowd \x7b */"
  nodes := [⟨"a:b \"c\"", .string "x", .null⟩, ⟨"Node", .string "x", .null⟩,
    ⟨"", .string "x", .null⟩, ⟨"data\t0", .string "x", .null⟩]
  edges := [⟨⟨"] -> [", "out.1"⟩, ⟨"-.5", "in"⟩⟩, ⟨⟨"Node", "STRICT."⟩, ⟨"data0", "in"⟩⟩]
  initializers := [⟨.int 1, ⟨"a:b \"c\"", "<\""⟩⟩]

def crowdedText : String :=
  "'<\\\\>' -> IN.1 Node(c/\\d) GRAPH -> X-1 b.data0"

def wiredGraph : Graph where
  name := "main"
  nodes := [⟨"Node", .string "c/\\d", .null⟩]
  edges := [⟨⟨"Node", "graph"⟩, ⟨"b.data0", "x-1"⟩⟩]
  initializers := [⟨.string "<\\>", ⟨"Node", "in.1"⟩⟩]

theorem crowdedText_loaded :
    (loadProgram crowdedText none none : Loading Empty).result = .ok wiredGraph :=
  rfl

theorem crowdedGraph_read_back : Readable crowdedGraph ∧
    read (document crowdedGraph).toList = some [
      nodeItem (.text "a:b\"c\"".toList), nodeItem (.text "Node".toList), nodeItem (.text []),
      nodeItem (.text "data0".toList),
      edgeItem (.text "data0".toList) (.text "a:b\"c\"".toList) (.text "<\"".toList),
      edgeItem (.text "]->[".toList) (.text "-.5".toList) (.text "out1".toList),
      edgeItem (.text "Node".toList) (.text "data0".toList) (.text "STRICT".toList)] ∧
    (loadProgram crowdedText none none : Loading Empty).result = .ok wiredGraph ∧
    read (document wiredGraph).toList = some [nodeItem (.text "Node".toList),
      edgeItem (.text "data0".toList) (.text "Node".toList) (.text "in1".toList),
      edgeItem (.text "Node".toList) (.text "b.data0".toList) (.text "graph".toList)] := by
  have hreadable : Readable crowdedGraph := ⟨by decide, by decide, by decide⟩
  obtain ⟨hgraphs, hprograms⟩ := read_document_faithful (ε := Empty)
  refine ⟨hreadable, hgraphs crowdedGraph hreadable, crowdedText_loaded, ?_⟩
  exact hprograms crowdedText none wiredGraph crowdedText_loaded

end FlowGraph.Dot
