import FlowGraph.Proofs.Definition.Distinct
import FlowGraph.Proofs.Definition.Parts

/-! What is written of a graph is the canonical form of the definition it was read from: known
fields only, the edges before the initial packets, and the ports in lower case. -/

namespace FlowGraph.Definition

def lowerPort : Json → Json
  | .string port => .string (Text.lowercase port)
  | other => other

def canonicalEnd (place : Json) : Json :=
  .object [("process", place.field "process"), ("port", lowerPort (place.field "port"))]

def canonicalProcess (process : Json) : Json :=
  match process.field "display" with
  | .null => .object [("component", process.field "component")]
  | display => .object [("component", process.field "component"), ("display", display)]

def hasData (connection : Json) : Bool :=
  (connection.field? "data").isSome

def canonicalConnection (connection : Json) : Json :=
  match connection.field? "data" with
  | none => .object [("src", canonicalEnd (connection.field "src")),
      ("tgt", canonicalEnd (connection.field "tgt"))]
  | some data => .object [("data", data), ("tgt", canonicalEnd (connection.field "tgt"))]

/-- The connections without data, then those with data, each kind in its order. -/
def byKind (connections : List Json) : List Json :=
  connections.filter (fun c => !hasData c) ++ connections.filter hasData

def canonical (d : Json) : Json :=
  .object [("properties", .object [("name", nameOf d)]),
    ("processes", .object ((processesOf d).entries.map fun (id, process) =>
      (id, canonicalProcess process))),
    ("connections", .array ((byKind (connectionsOf d).items).map canonicalConnection))]

theorem canonicalProcess_of_readNode {id : String} {process : Json} {n : Node}
    (h : readNode id process = .ok n) : (id, canonicalProcess process) = (n.id, ofNode n) := by
  obtain ⟨rfl, hcomponent, hdisplay⟩ := fields_of_readNode h
  have hprocess : canonicalProcess process = ofNode n := by
    unfold canonicalProcess
    rw [Json.field_of_field? hcomponent, hdisplay]
    rfl
  rw [hprocess]

theorem canonicalEnd_of_hasEnd {connection : Json} {side : Side} {p : Endpoint}
    (h : HasEnd connection side p) :
    canonicalEnd (connection.field side.key) = ofEndpoint p := by
  obtain ⟨place, port, hplace, hprocess, hport, hlower⟩ := h
  rw [Json.field_of_field? hplace, canonicalEnd, Json.field_of_field? hprocess,
    Json.field_of_field? hport, lowerPort, ← hlower, ofEndpoint]

/-- The canonical form of a connection, and how its kind is told. -/
theorem canonicalConnection_of_hasParts {connection : Json} {c : Connection}
    (h : HasParts connection c) :
    canonicalConnection connection = ofConnection c ∧
      hasData connection = c.initial?.isSome := by
  cases c with
  | edge e =>
    obtain ⟨hdata, hsource, htarget⟩ := h
    have hstart : canonicalEnd (connection.field "src") = ofEndpoint e.source :=
      canonicalEnd_of_hasEnd hsource
    have hgoal : canonicalEnd (connection.field "tgt") = ofEndpoint e.target :=
      canonicalEnd_of_hasEnd htarget
    unfold canonicalConnection hasData
    rw [hdata, hstart, hgoal]
    exact ⟨rfl, rfl⟩
  | initial i =>
    obtain ⟨hdata, htarget⟩ := h
    have hgoal : canonicalEnd (connection.field "tgt") = ofEndpoint i.target :=
      canonicalEnd_of_hasEnd htarget
    unfold canonicalConnection hasData
    rw [hdata, hgoal]
    exact ⟨rfl, rfl⟩

theorem canonicalProcesses_of_readNode {entries : List (String × Json)} {nodes : List Node}
    (h : List.Forall₂ (fun entry n => readNode entry.1 entry.2 = .ok n) entries nodes) :
    entries.map (fun (id, process) => (id, canonicalProcess process)) = nodeFields nodes := by
  rw [nodeFields, ← List.forall₂_eq_eq_eq, List.forall₂_map_left_iff, List.forall₂_map_right_iff]
  exact h.imp fun _ _ hread => canonicalProcess_of_readNode hread

theorem canonicalConnections_of_readConnection {items : List Json}
    {connections : List Connection}
    (h : List.Forall₂ (fun v c => readConnection v = .ok c) items connections) :
    (items.filter fun v => !hasData v).map canonicalConnection =
        (connections.filterMap (·.edge?)).map ofEdge ∧
      (items.filter hasData).map canonicalConnection =
        (connections.filterMap (·.initial?)).map ofInitializer := by
  induction h with
  | nil => exact ⟨rfl, rfl⟩
  | @cons v c items connections hread _ ih =>
    obtain ⟨hcanonical, hkind⟩ :=
      canonicalConnection_of_hasParts (hasParts_of_readConnection hread)
    cases c with
    | edge e =>
      have hdata : hasData v = false := hkind
      have hedge : canonicalConnection v = ofEdge e := hcanonical
      simp [hdata, hedge, ih, Connection.edge?, Connection.initial?]
    | initial i =>
      have hdata : hasData v = true := hkind
      have hinitial : canonicalConnection v = ofInitializer i := hcanonical
      simp [hdata, hinitial, ih, Connection.edge?, Connection.initial?]

theorem encode_of_decode {d : Json} {g : Graph}
    (hk : ((processesOf d).entries.map (·.1)).Nodup) (h : decode d = .ok g) :
    encode g = canonical d := by
  obtain ⟨entries, items, connections, hname, hentries, hnodes, hitems, hconnections, hedges,
    hinitializers⟩ := decode_eq_ok h
  have hprocesses := canonicalProcesses_of_readNode hnodes
  obtain ⟨hcanonicalEdges, hcanonicalPackets⟩ := canonicalConnections_of_readConnection hconnections
  have hids : (g.nodes.map (·.id)).Nodup := by
    rw [ids_of_readNode hnodes]
    rw [hentries] at hk
    exact hk
  rw [encode, layout, processes_eq, distinctNodes_of_nodup hids, ← hprocesses, hedges,
    hinitializers, ← hcanonicalEdges, ← hcanonicalPackets, ← List.map_append, canonical, byKind,
    hname, hentries, hitems]
  rfl

/-! No connection is lost, or comes twice, or changes its place among those of its kind. -/

theorem hasData_canonicalConnection (connection : Json) :
    hasData (canonicalConnection connection) = hasData connection := by
  unfold hasData canonicalConnection
  cases connection.field? "data" <;> rfl

theorem filter_byKind (connections : List Json) (b : Bool) :
    (byKind connections).filter (hasData · == b) = connections.filter (hasData · == b) := by
  cases b <;> simp [byKind, List.filter_append, List.filter_filter]

theorem filter_canonical (d : Json) (b : Bool) :
    (connectionsOf (canonical d)).items.filter (hasData · == b) =
      ((connectionsOf d).items.filter (hasData · == b)).map canonicalConnection := by
  have hitems : (connectionsOf (canonical d)).items =
      (byKind (connectionsOf d).items).map canonicalConnection := rfl
  rw [hitems, List.filter_map, ← filter_byKind]
  congr 1
  exact List.filter_congr fun c _ => by simp [hasData_canonicalConnection]

/-- What is written of a graph is the canonical form of the definition that it was read from. So
the connections with data, and those without, are the same as before and in the same order. -/
theorem encode_decoded_canonical {d : Json} {g : Graph}
    (hk : ((processesOf d).entries.map (·.1)).Nodup) (h : decode d = .ok g) :
    encode g = canonical d ∧
      ∀ b, (connectionsOf (encode g)).items.filter (hasData · == b) =
        ((connectionsOf d).items.filter (hasData · == b)).map canonicalConnection := by
  have hcanonical := encode_of_decode hk h
  refine ⟨hcanonical, fun b => ?_⟩
  rw [hcanonical]
  exact filter_canonical d b

/-- Packets and edges take turns, the properties are void, and each object has a field too many. -/
def mixedDefinition : Json :=
  .object [
    ("connections", .array [
      .object [("data", .null), ("src", .null),
        ("tgt", .object [("port", .string "IN"), ("process", .string "B")])],
      .object [("tgt", .object [("process", .string "B"), ("port", .string "Data")]),
        ("src", .object [("process", .string "A"), ("index", .int 0), ("port", .string "OUT")])],
      .object [("data", .array [.int 1]),
        ("tgt", .object [("process", .string "C"), ("port", .string "in")])],
      .object [("src", .object [("process", .string "B"), ("port", .string "out")]),
        ("tgt", .object [("process", .string "A"), ("port", .string "in")])]]),
    ("properties", .bool false),
    ("processes", .object [
      ("B", .object [("display", .null), ("component", .string "Y")]),
      ("A", .object [("component", .int 5), ("metadata", .object []),
        ("display", .object [("x", .int 1)])])])]

def mixedGraph : Graph where
  nodes := [⟨"B", .string "Y", .null⟩, ⟨"A", .int 5, .object [("x", .int 1)]⟩]
  edges := [⟨⟨"A", "out"⟩, ⟨"B", "data"⟩⟩, ⟨⟨"B", "out"⟩, ⟨"A", "in"⟩⟩]
  initializers := [⟨.null, ⟨"B", "in"⟩⟩, ⟨.array [.int 1], ⟨"C", "in"⟩⟩]

theorem mixedDefinition_sorted : decode mixedDefinition = .ok mixedGraph ∧
    encode mixedGraph = canonical mixedDefinition ∧
    (connectionsOf (encode mixedGraph)).items.filter (hasData · == true) =
      ((connectionsOf mixedDefinition).items.filter (hasData · == true)).map
        canonicalConnection := by
  have hread : decode mixedDefinition = .ok mixedGraph := by decide
  obtain ⟨hcanonical, hkinds⟩ := encode_decoded_canonical (by decide) hread
  exact ⟨hread, hcanonical, hkinds true⟩

end FlowGraph.Definition
