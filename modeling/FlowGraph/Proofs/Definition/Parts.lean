import FlowGraph.Definition.Decode
import FlowGraph.Proofs.Outcome

/-! The parts of a definition, and what reading makes of each of them. A part that is not there
stands for an empty one. -/

namespace FlowGraph

namespace Json

/-- The value of a field, which only objects have. -/
def field? (key : String) : Json → Option Json
  | .object fields => lookup key fields
  | _ => none

/-- The value of a field, or null where there is none. -/
def field (key : String) (v : Json) : Json :=
  (v.field? key).getD .null

def entries : Json → List (String × Json)
  | .object fields => fields
  | _ => []

def items : Json → List Json
  | .array items => items
  | _ => []

def isObject : Json → Bool
  | .object _ => true
  | _ => false

def isArray : Json → Bool
  | .array _ => true
  | _ => false

def isString : Json → Bool
  | .string _ => true
  | _ => false

theorem field_of_field? {key : String} {v w : Json} (h : v.field? key = some w) :
    v.field key = w := by
  rw [field, h, Option.getD_some]

theorem isObject_of_field? {key : String} {v : Json} (h : (v.field? key).isSome = true) :
    v.isObject = true := by
  cases v with
  | object fields => rfl
  | _ => cases h

theorem field?_of_isVoid {v : Json} (h : v.isVoid = true) (key : String) :
    v.field? key = none := by
  cases v with
  | object fields =>
    have hfields : fields = [] := List.isEmpty_iff.mp h
    rw [hfields]
    rfl
  | _ => rfl

end Json

namespace Definition

def propertiesOf (d : Json) : Json :=
  d.field "properties"

def nameOf (d : Json) : Json :=
  ((propertiesOf d).field? "name").getD (.string "")

def processesOf (d : Json) : Json :=
  (d.field? "processes").getD (.object [])

def connectionsOf (d : Json) : Json :=
  (d.field? "connections").getD (.array [])

variable {fields : Fields}

theorem nameOf_of_readName {name : String} (h : readName fields = .ok name) :
    nameOf (.object fields) = .string name := by
  unfold readName at h
  unfold nameOf propertiesOf Json.field
  rw [Json.field?]
  generalize (Json.lookup "properties" fields).getD .null = properties at h ⊢
  by_cases hv : properties.isVoid = true
  · rw [Json.field?_of_isVoid hv]
    simpa [hv] using h
  · simp only [hv, Bool.false_eq_true, if_false] at h
    cases properties with
    | object inner =>
      rw [Json.field?]
      cases hname : Json.lookup "name" inner with
      | none => simpa [hname] using h
      | some name => cases name <;> simp_all
    | _ => simp at h

theorem processesOf_of_readNodes {nodes : List Node} (h : readNodes fields = .ok nodes) :
    ∃ entries, processesOf (.object fields) = .object entries ∧
      List.Forall₂ (fun entry n => readNode entry.1 entry.2 = .ok n) entries nodes := by
  unfold readNodes at h
  unfold processesOf
  rw [Json.field?]
  split at h
  · next hnone =>
    obtain rfl := Except.ok.inj h
    rw [hnone]
    exact ⟨[], rfl, .nil⟩
  · next entries hentries =>
    rw [hentries]
    exact ⟨entries, rfl, Outcome.mapM_eq_ok_iff.mp h⟩
  · cases h

theorem readConnection_of_data {data : Json}
    (h : Json.lookup "data" fields = some data) : readConnection (.object fields) =
      readEnd .target fields >>= fun target => .ok (.initial ⟨data, target⟩) := by
  simp only [readConnection, h]
  rfl

theorem readConnection_of_no_data (h : Json.lookup "data" fields = none) :
    readConnection (.object fields) = readEnd .source fields >>= fun source =>
      readEnd .target fields >>= fun target => .ok (.edge ⟨source, target⟩) := by
  simp only [readConnection, h]
  rfl

theorem fields_of_readNode {id : String} {process : Json} {n : Node}
    (h : readNode id process = .ok n) :
    n.id = id ∧ process.field? "component" = some n.component ∧
      process.field "display" = n.display := by
  unfold readNode at h
  split at h
  · split at h
    · next hcomponent =>
      obtain rfl := Except.ok.inj h
      exact ⟨rfl, hcomponent, rfl⟩
    · cases h
  · cases h

theorem ids_of_readNode {entries : List (String × Json)} {nodes : List Node}
    (h : List.Forall₂ (fun entry n => readNode entry.1 entry.2 = .ok n) entries nodes) :
    nodes.map (·.id) = entries.map (·.1) := by
  rw [← List.forall₂_eq_eq_eq, List.forall₂_map_left_iff, List.forall₂_map_right_iff]
  exact h.flip.imp fun _ _ hread => (fields_of_readNode hread).1

/-- The connection has an end on this side, with its port in whatever case. -/
def HasEnd (connection : Json) (side : Side) (p : Endpoint) : Prop :=
  ∃ place port, connection.field? side.key = some place ∧
    place.field? "process" = some (.string p.node) ∧
    place.field? "port" = some (.string port) ∧ p.port = Text.lowercase port

theorem hasEnd_of_readEnd {side : Side} {p : Endpoint} (h : readEnd side fields = .ok p) :
    HasEnd (.object fields) side p := by
  unfold readEnd at h
  split at h
  · next inner hplace =>
    split at h
    · next port hprocess hport =>
      obtain rfl := Except.ok.inj h
      exact ⟨.object inner, port, hplace, hprocess, hport, rfl⟩
    · cases h
  · cases h

/-- What makes a value the connection that is read from it. -/
def HasParts (connection : Json) : Connection → Prop
  | .edge e => connection.field? "data" = none ∧ HasEnd connection .source e.source ∧
      HasEnd connection .target e.target
  | .initial i => connection.field? "data" = some i.data ∧ HasEnd connection .target i.target

theorem hasParts_of_readConnection {connection : Json} {c : Connection}
    (h : readConnection connection = .ok c) : HasParts connection c := by
  cases connection with
  | object fields =>
    rcases Option.eq_none_or_eq_some (Json.lookup "data" fields) with hdata | ⟨data, hdata⟩
    · rw [readConnection_of_no_data hdata] at h
      obtain ⟨source, hsource, h⟩ := Outcome.bind_eq_ok_iff.mp h
      obtain ⟨target, htarget, h⟩ := Outcome.bind_eq_ok_iff.mp h
      obtain rfl := Except.ok.inj h
      exact ⟨hdata, hasEnd_of_readEnd hsource, hasEnd_of_readEnd htarget⟩
    · rw [readConnection_of_data hdata] at h
      obtain ⟨target, htarget, h⟩ := Outcome.bind_eq_ok_iff.mp h
      obtain rfl := Except.ok.inj h
      exact ⟨hdata, hasEnd_of_readEnd htarget⟩
  | _ => cases h

theorem readFrom_eq_ok_iff {index : Nat} {values : List Json} {connections : List Connection} :
    readFrom index values = .ok connections ↔
      List.Forall₂ (fun v c => readConnection v = .ok c) values connections := by
  induction values generalizing index connections with
  | nil =>
    rw [readFrom, List.forall₂_nil_left_iff]
    exact ⟨fun h => (Except.ok.inj h).symm, fun h => h ▸ rfl⟩
  | cons v values ih =>
    rw [readFrom, List.forall₂_cons_left_iff]
    cases hv : readConnection v with
    | ok c =>
      constructor
      · intro h
        obtain ⟨others, hothers, h⟩ := Outcome.bind_eq_ok_iff.mp h
        exact ⟨c, others, rfl, ih.mp hothers, (Except.ok.inj h).symm⟩
      · rintro ⟨c', others, hc, hothers, rfl⟩
        obtain rfl := Except.ok.inj hc
        exact Outcome.bind_eq_ok_iff.mpr ⟨others, ih.mpr hothers, rfl⟩
    | error fault => simp

theorem connectionsOf_of_readConnections {connections : List Connection}
    (h : readConnections fields = .ok connections) :
    ∃ items, connectionsOf (.object fields) = .array items ∧
      List.Forall₂ (fun v c => readConnection v = .ok c) items connections := by
  unfold readConnections at h
  unfold connectionsOf
  rw [Json.field?]
  split at h
  · next hnone =>
    obtain rfl := Except.ok.inj h
    rw [hnone]
    exact ⟨[], rfl, .nil⟩
  · next items hitems =>
    rw [hitems]
    exact ⟨items, rfl, readFrom_eq_ok_iff.mp h⟩
  · cases h

/-- What a definition is if it was read as this graph. -/
theorem decode_eq_ok {d : Json} {g : Graph} (h : decode d = .ok g) :
    ∃ entries items connections, nameOf d = .string g.name ∧ processesOf d = .object entries ∧
      List.Forall₂ (fun entry n => readNode entry.1 entry.2 = .ok n) entries g.nodes ∧
      connectionsOf d = .array items ∧
      List.Forall₂ (fun v c => readConnection v = .ok c) items connections ∧
      g.edges = connections.filterMap (·.edge?) ∧
      g.initializers = connections.filterMap (·.initial?) := by
  cases d with
  | object fields =>
    obtain ⟨name, hname, h⟩ := Outcome.bind_eq_ok_iff.mp h
    obtain ⟨nodes, hnodes, h⟩ := Outcome.bind_eq_ok_iff.mp h
    obtain ⟨connections, hconnections, h⟩ := Outcome.bind_eq_ok_iff.mp h
    obtain ⟨entries, hentries, hnodes⟩ := processesOf_of_readNodes hnodes
    obtain ⟨items, hitems, hconnections⟩ := connectionsOf_of_readConnections hconnections
    obtain rfl := Except.ok.inj h
    exact ⟨entries, items, connections, nameOf_of_readName hname, hentries, hnodes, hitems,
      hconnections, rfl, rfl⟩
  | _ => cases h

end Definition

end FlowGraph
