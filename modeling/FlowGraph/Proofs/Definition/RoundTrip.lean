import FlowGraph.Load
import FlowGraph.Proofs.Definition.Distinct
import FlowGraph.Proofs.Json.RoundTrip
import FlowGraph.Save

/-! A graph that is written as JSON is read again, up to what the interchange layout does not keep:
nodes that share an id become one, and ports are read in lower case. -/

namespace FlowGraph

def Endpoint.lowered (p : Endpoint) : Endpoint :=
  ⟨p.node, Text.lowercase p.port⟩

def Edge.lowered (e : Edge) : Edge :=
  ⟨e.source.lowered, e.target.lowered⟩

def Initializer.lowered (i : Initializer) : Initializer :=
  ⟨i.data, i.target.lowered⟩

def Connection.lowered : Connection → Connection
  | .edge e => .edge e.lowered
  | .initial i => .initial i.lowered

/-- What the interchange layout keeps of a graph. -/
def Graph.interchanged (g : Graph) : Graph where
  name := g.name
  nodes := distinctNodes g.nodes
  edges := g.edges.map Edge.lowered
  initializers := g.initializers.map Initializer.lowered

namespace Definition

theorem readName_layout (name : String) (processes connections : Json) :
    readName [("properties", .object [("name", .string name)]), ("processes", processes),
      ("connections", connections)] = .ok name := by
  simp [readName, Json.lookup, Json.isVoid]

theorem readNode_ofNode (n : Node) : readNode n.id (ofNode n) = .ok n := by
  obtain ⟨id, component, display⟩ := n
  cases display <;> simp [readNode, ofNode, Json.lookup]

theorem mapM_readNode_nodeFields (nodes : List Node) :
    (nodeFields nodes).mapM (fun field => readNode field.1 field.2) = .ok nodes := by
  induction nodes with
  | nil => rfl
  | cons n nodes ih =>
    have hfields : nodeFields (n :: nodes) = (n.id, ofNode n) :: nodeFields nodes := rfl
    simp only [hfields, List.mapM_cons, ih, readNode_ofNode]
    rfl

theorem readEnd_of_lookup {side : Side} {fields : Fields} {p : Endpoint}
    (h : Json.lookup side.key fields = some (ofEndpoint p)) :
    readEnd side fields = .ok p.lowered := by
  simp [readEnd, h, ofEndpoint, Json.lookup, Endpoint.lowered]

theorem readConnection_ofConnection (c : Connection) :
    readConnection (ofConnection c) = .ok c.lowered := by
  cases c with
  | edge e =>
    have hsource : readEnd .source [("src", ofEndpoint e.source), ("tgt", ofEndpoint e.target)] =
        .ok e.source.lowered := readEnd_of_lookup (by simp [Json.lookup, Side.key])
    have htarget : readEnd .target [("src", ofEndpoint e.source), ("tgt", ofEndpoint e.target)] =
        .ok e.target.lowered := readEnd_of_lookup (by simp [Json.lookup, Side.key])
    simp only [ofConnection, ofEdge, readConnection, Json.lookup, hsource, htarget]
    rfl
  | initial i =>
    have htarget : readEnd .target [("data", i.data), ("tgt", ofEndpoint i.target)] =
        .ok i.target.lowered := readEnd_of_lookup (by simp [Json.lookup, Side.key])
    simp only [ofConnection, ofInitializer, readConnection, Json.lookup, htarget]
    rfl

theorem readFrom_ofConnection (index : Nat) (connections : List Connection) :
    readFrom index (connections.map ofConnection) = .ok (connections.map Connection.lowered) := by
  induction connections generalizing index with
  | nil => rfl
  | cons c connections ih =>
    simp only [List.map_cons, readFrom, readConnection_ofConnection, ih]
    rfl

theorem readNodes_layout (properties connections : Json) (nodes : List Node) :
    readNodes [("properties", properties), ("processes", .object (nodeFields nodes)),
      ("connections", connections)] = .ok nodes := by
  simp only [readNodes, Json.lookup]
  exact mapM_readNode_nodeFields nodes

theorem readConnections_layout (properties processes : Json) (connections : List Connection) :
    readConnections [("properties", properties), ("processes", processes),
      ("connections", .array (connections.map ofConnection))] =
      .ok (connections.map Connection.lowered) := by
  simp only [readConnections, Json.lookup]
  exact readFrom_ofConnection 0 connections

theorem encode_eq (g : Graph) : encode g = layout g.name (nodeFields (distinctNodes g.nodes))
    ((g.edges.map Connection.edge ++ g.initializers.map Connection.initial).map ofConnection) := by
  simp [encode, processes_eq, ofConnection, Function.comp_def]

/-- Edges and initial packets may stand in any order in a definition; each kind keeps its own. -/
theorem decode_layout (name : String) (nodes : List Node) (connections : List Connection) :
    decode (layout name (nodeFields nodes) (connections.map ofConnection)) =
      .ok ⟨name, nodes, (connections.map Connection.lowered).filterMap (·.edge?),
        (connections.map Connection.lowered).filterMap (·.initial?)⟩ := by
  simp only [layout, decode, readName_layout, readNodes_layout, readConnections_layout]
  rfl

theorem decode_encode (g : Graph) : decode (encode g) = .ok g.interchanged := by
  rw [encode_eq, decode_layout]
  simp only [Graph.interchanged, Except.ok.injEq, Graph.mk.injEq, true_and]
  constructor
  · simp [List.filterMap_map, Function.comp_def, Connection.edge?, Connection.lowered]
  · simp [List.filterMap_map, Function.comp_def, Connection.initial?, Connection.lowered]

end Definition

/-- The values in a graph survive being written. -/
structure Graph.Readable (g : Graph) : Prop where
  component : ∀ n ∈ g.nodes, n.component.Readable
  display : ∀ n ∈ g.nodes, n.display.Readable
  data : ∀ i ∈ g.initializers, i.data.Readable

theorem mem_of_mem_distinctNodes {nodes : List Node} {n : Node} (h : n ∈ distinctNodes nodes) :
    n ∈ nodes := by
  obtain ⟨id, -, hn⟩ := List.mem_filterMap.mp h
  exact List.mem_reverse.mp (List.mem_of_find?_eq_some hn)

namespace Definition

theorem readable_ofEndpoint (p : Endpoint) : (ofEndpoint p).Readable := by
  refine .object _ (by simp) ?_
  simp only [List.mem_cons, List.not_mem_nil, or_false, forall_eq_or_imp, forall_eq]
  exact ⟨.string _, .string _⟩

theorem readable_ofNode {n : Node} (hc : n.component.Readable) (hd : n.display.Readable) :
    (ofNode n).Readable := by
  have hfields : (Json.object [("component", n.component), ("display", n.display)]).Readable := by
    refine .object _ (by simp) ?_
    simp only [List.mem_cons, List.not_mem_nil, or_false, forall_eq_or_imp, forall_eq]
    exact ⟨hc, hd⟩
  unfold ofNode
  split
  · refine .object _ (by simp) ?_
    simpa using hc
  · exact hfields

theorem readable_ofConnection {c : Connection} (h : ∀ i, c = .initial i → i.data.Readable) :
    (ofConnection c).Readable := by
  cases c with
  | edge e =>
    refine .object _ (by simp) ?_
    simp only [List.mem_cons, List.not_mem_nil, or_false, forall_eq_or_imp, forall_eq]
    exact ⟨readable_ofEndpoint _, readable_ofEndpoint _⟩
  | initial i =>
    refine .object _ (by simp) ?_
    simp only [List.mem_cons, List.not_mem_nil, or_false, forall_eq_or_imp, forall_eq]
    exact ⟨h i rfl, readable_ofEndpoint _⟩

theorem readable_encode {g : Graph} (hg : g.Readable) : (encode g).Readable := by
  have hprocesses : (Json.object (nodeFields (distinctNodes g.nodes))).Readable := by
    refine .object _ ?_ fun f hf => ?_
    · rw [map_fst_nodeFields]
      exact nodup_distinctNodes g.nodes
    · obtain ⟨n, hn, rfl⟩ := List.mem_map.mp hf
      have hn := mem_of_mem_distinctNodes hn
      exact readable_ofNode (hg.component n hn) (hg.display n hn)
  have hconnections : (Json.array ((g.edges.map Connection.edge ++
      g.initializers.map Connection.initial).map ofConnection)).Readable := by
    refine .array _ fun v hv => ?_
    obtain ⟨c, hc, rfl⟩ := List.mem_map.mp hv
    refine readable_ofConnection fun i hi => hg.data i ?_
    subst hi
    simpa using hc
  have hproperties : (Json.object [("name", .string g.name)]).Readable := by
    refine .object _ (by simp) ?_
    simpa using Json.Readable.string g.name
  rw [encode_eq]
  refine .object _ (by simp) ?_
  simp only [List.mem_cons, List.not_mem_nil, or_false, forall_eq_or_imp, forall_eq]
  exact ⟨hproperties, hprocesses, hconnections⟩

end Definition

structure Graph.LowerCased (g : Graph) : Prop where
  sources : ∀ e ∈ g.edges, Text.lowercase e.source.port = e.source.port
  targets : ∀ e ∈ g.edges, Text.lowercase e.target.port = e.target.port
  packets : ∀ i ∈ g.initializers, Text.lowercase i.target.port = i.target.port

theorem Graph.interchanged_eq_self {g : Graph} (hn : (g.nodes.map (·.id)).Nodup)
    (hl : g.LowerCased) : g.interchanged = g := by
  have hedges : g.edges.map Edge.lowered = g.edges := by
    refine (List.map_congr_left fun e he => ?_).trans (List.map_id g.edges)
    simp only [Edge.lowered, Endpoint.lowered, hl.sources e he, hl.targets e he, id]
  have hinitializers : g.initializers.map Initializer.lowered = g.initializers := by
    refine (List.map_congr_left fun i hi => ?_).trans (List.map_id g.initializers)
    simp only [Initializer.lowered, Endpoint.lowered, hl.packets i hi, id]
  rw [Graph.interchanged, distinctNodes_of_nodup hn, hedges, hinitializers]

/-- The text of a graph is read as that graph with one node for each id, at the place of the first
and with the values of the last, and with its ports in lower case; whatever the indent. If the ids
differ and the ports are in lower case already, it is the same graph. -/
theorem ofJsonText_jsonText {g : Graph} (hg : g.Readable) (indent : Option Int) :
    ofJsonText (jsonText g indent) = .ok g.interchanged ∧
      ((g.nodes.map (·.id)).Nodup → g.LowerCased → ofJsonText (jsonText g indent) = .ok g) := by
  have htext : ofJsonText (jsonText g indent) = .ok g.interchanged := by
    unfold ofJsonText jsonText Json.toText
    rw [String.toList_ofList, Json.readAll_write _ (Definition.readable_encode hg)]
    simp only [Definition.decode_encode]
    rfl
  refine ⟨htext, fun hn hl => ?_⟩
  rw [htext, Graph.interchanged_eq_self hn hl]

/-- Two nodes share an id, a port is not in lower case, and the data is nested. -/
def sampleGraph : Graph where
  name := "sample \"1\""
  nodes := [⟨"A", .string "first", .null⟩, ⟨"B", .null, .null⟩, ⟨"A", .string "last", .int (-7)⟩]
  edges := [⟨⟨"A", "OUT"⟩, ⟨"C", "in"⟩⟩]
  initializers := [⟨.object [("x", .array [.float (.finite false 6755399441055744 (-52)),
    .float .nan, .bool true]), ("y", .array [])], ⟨"B", "in"⟩⟩]

theorem sampleGraph_readable : sampleGraph.Readable := by
  have hint : (Json.int (-7)).Readable := .int _ (by decide)
  have hfloat : (Json.float (.finite false 6755399441055744 (-52))).Readable :=
    .float _ (by decide)
  have hnan : (Json.float .nan).Readable := .float _ rfl
  have harray : (Json.array [.float (.finite false 6755399441055744 (-52)), .float .nan,
      .bool true]).Readable := .array _ (by simpa using ⟨hfloat, hnan, .bool true⟩)
  refine ⟨?_, ?_, ?_⟩
  · simpa [sampleGraph] using ⟨Json.Readable.string "first", .null, .string "last"⟩
  · simpa [sampleGraph] using ⟨Json.Readable.null, hint⟩
  · refine fun i hi => ?_
    rw [List.mem_singleton.mp hi]
    refine .object _ (by decide) ?_
    simpa using ⟨harray, .array [] (by simp)⟩

theorem sampleGraph_round_trip : ofJsonText (jsonText sampleGraph (some 4)) = .ok
    { sampleGraph with
      nodes := [⟨"A", .string "last", .int (-7)⟩, ⟨"B", .null, .null⟩]
      edges := [⟨⟨"A", "out"⟩, ⟨"C", "in"⟩⟩] } := by
  rw [(ofJsonText_jsonText sampleGraph_readable (some 4)).1]
  exact congrArg Except.ok (by decide)

end FlowGraph
