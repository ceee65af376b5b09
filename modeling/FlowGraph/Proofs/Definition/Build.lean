import FlowGraph.Proofs.Definition.Check

/-! Building a graph from a definition without a look at what its values are. A value that is not
fit for its use stops the building; once the checks have passed, there is no such value. -/

namespace FlowGraph

namespace Json

/-- Why a value cannot be used: it has no such field, or it is not of the kind to be used so. -/
inductive Misuse where
  | noField (key : String)
  | wrongKind (kind : String)
  deriving DecidableEq, Repr

def get (key : String) : Json → Except Misuse Json
  | .object fields =>
    match lookup key fields with
    | some v => .ok v
    | none => .error (.noField key)
  | other => .error (.wrongKind other.kind)

def asString : Json → Except Misuse String
  | .string s => .ok s
  | other => .error (.wrongKind other.kind)

def asEntries : Json → Except Misuse (List (String × Json))
  | .object fields => .ok fields
  | other => .error (.wrongKind other.kind)

def asItems : Json → Except Misuse (List Json)
  | .array items => .ok items
  | other => .error (.wrongKind other.kind)

theorem get_of_field? {key : String} {v w : Json} (h : v.field? key = some w) :
    v.get key = .ok w := by
  cases v with
  | object fields =>
    have hlookup : lookup key fields = some w := h
    rw [get, hlookup]
  | _ => cases h

end Json

namespace Definition

open Json (Misuse)

def buildNode (id : String) (process : Json) : Except Misuse Node := do
  return ⟨id, ← process.get "component", process.field "display"⟩

def buildEnd (place : Json) : Except Misuse Endpoint := do
  let node ← (← place.get "process").asString
  let port ← (← place.get "port").asString
  return ⟨node, Text.lowercase port⟩

def buildConnection (connection : Json) : Except Misuse Connection := do
  let target ← connection.get "tgt"
  match connection.field? "data" with
  | some data => return .initial ⟨data, ← buildEnd target⟩
  | none => do
    let source ← buildEnd (← connection.get "src")
    return .edge ⟨source, ← buildEnd target⟩

def build (d : Json) : Except Misuse Graph := do
  let name ← (nameOf d).asString
  let nodes ← (← (processesOf d).asEntries).mapM fun (id, process) => buildNode id process
  let connections ← (← (connectionsOf d).asItems).mapM buildConnection
  return ⟨name, nodes, connections.filterMap (·.edge?), connections.filterMap (·.initial?)⟩

/-! What is read is what is built. -/

theorem buildNode_of_readNode {id : String} {process : Json} {n : Node}
    (h : readNode id process = .ok n) : buildNode id process = .ok n := by
  obtain ⟨rfl, hcomponent, hdisplay⟩ := fields_of_readNode h
  rw [buildNode, Json.get_of_field? hcomponent, hdisplay]
  rfl

theorem buildEnd_of_hasEnd {connection : Json} {side : Side} {p : Endpoint}
    (h : HasEnd connection side p) :
    ∃ place, connection.get side.key = .ok place ∧ buildEnd place = .ok p := by
  obtain ⟨place, port, hplace, hprocess, hport, hlower⟩ := h
  refine ⟨place, Json.get_of_field? hplace, ?_⟩
  rw [buildEnd, Json.get_of_field? hprocess, Json.get_of_field? hport]
  show Except.ok (Endpoint.mk p.node (Text.lowercase port)) = .ok p
  rw [← hlower]

theorem buildConnection_of_hasParts {connection : Json} {c : Connection}
    (h : HasParts connection c) : buildConnection connection = .ok c := by
  cases c with
  | edge e =>
    obtain ⟨hdata, hsource, htarget⟩ := h
    obtain ⟨start, hstart, hsource⟩ := buildEnd_of_hasEnd hsource
    obtain ⟨goal, hgoal, htarget⟩ := buildEnd_of_hasEnd htarget
    have hstart : connection.get "src" = .ok start := hstart
    have hgoal : connection.get "tgt" = .ok goal := hgoal
    simp only [buildConnection, hdata, hgoal, hstart]
    show (buildEnd start >>= fun source => buildEnd goal >>= fun target =>
      Except.ok (Connection.edge ⟨source, target⟩)) = .ok (.edge e)
    rw [hsource, htarget]
    rfl
  | initial i =>
    obtain ⟨hdata, htarget⟩ := h
    obtain ⟨goal, hgoal, htarget⟩ := buildEnd_of_hasEnd htarget
    have hgoal : connection.get "tgt" = .ok goal := hgoal
    simp only [buildConnection, hdata, hgoal]
    show (buildEnd goal >>= fun target =>
      Except.ok (Connection.initial ⟨i.data, target⟩)) = .ok (.initial i)
    rw [htarget]
    rfl

theorem build_of_decode {d : Json} {g : Graph} (h : decode d = .ok g) : build d = .ok g := by
  obtain ⟨entries, items, connections, hname, hentries, hnodes, hitems, hconnections, hedges,
    hinitializers⟩ := decode_eq_ok h
  have hbuiltNodes : entries.mapM (fun (id, process) => buildNode id process) = .ok g.nodes :=
    Outcome.mapM_eq_ok_iff.mpr (hnodes.imp fun _ _ hread => buildNode_of_readNode hread)
  have hbuiltConnections : items.mapM buildConnection = .ok connections :=
    Outcome.mapM_eq_ok_iff.mpr (hconnections.imp fun _ _ hread =>
      buildConnection_of_hasParts (hasParts_of_readConnection hread))
  unfold build
  rw [hname, hentries, hitems]
  show (entries.mapM (fun (id, process) => buildNode id process) >>= fun nodes =>
    items.mapM buildConnection >>= fun connections => Except.ok (Graph.mk g.name nodes
      (connections.filterMap (·.edge?)) (connections.filterMap (·.initial?)))) = .ok g
  rw [hbuiltNodes, hbuiltConnections]
  show Except.ok (Graph.mk g.name g.nodes (connections.filterMap (·.edge?))
    (connections.filterMap (·.initial?))) = .ok g
  rw [← hedges, ← hinitializers]

/-! The place of a fault in a connection. -/

/-- The connection has all that it must have. -/
def Proper (connection : Json) : Prop :=
  ∀ c ∈ connectionChecks connection, c.passes = true

theorem not_connection_of_frameChecks {d : Json} {c : Check Fault} (h : c ∈ frameChecks d)
    (index : Nat) (reason : ConnectionFault) : c.fault ≠ .connection index reason := by
  simp only [frameChecks, nameChecks, processChecks, nodeChecks, List.mem_cons, List.mem_append,
    List.mem_flatMap, List.not_mem_nil, or_false] at h
  rcases h with rfl | ((rfl | rfl) | rfl | ⟨entry, -, rfl⟩) | rfl <;> simp

theorem firstFault_connectionsFrom {index : Nat} {connections : List Json} {fault : Fault}
    (h : firstFault (connectionsFrom index connections) = some fault) :
    ∃ before connection after reason, connections = before ++ connection :: after ∧
      fault = .connection (index + before.length) reason ∧ (∀ b ∈ before, Proper b) ∧
      firstFault (connectionChecks connection) = some reason := by
  induction connections generalizing index with
  | nil => cases h
  | cons c connections ih =>
    rw [connectionsFrom_cons, firstFault_append, firstFault_relabel] at h
    cases hc : firstFault (connectionChecks c) with
    | none =>
      rw [hc, Option.map_none, Option.none_or] at h
      obtain ⟨before, connection, after, reason, rfl, rfl, hbefore, hreason⟩ := ih h
      have hindex : index + 1 + before.length = index + (c :: before).length := by
        rw [List.length_cons]
        omega
      exact ⟨c :: before, connection, after, reason, rfl, by rw [hindex],
        List.forall_mem_cons.mpr ⟨firstFault_eq_none_iff.mp hc, hbefore⟩, hreason⟩
    | some reason =>
      rw [hc, Option.map_some, Option.some_or] at h
      exact ⟨[], c, connections, reason, rfl, (Option.some.inj h).symm, by simp, hc⟩

theorem firstFault_of_data {connection : Json} {reason : ConnectionFault}
    (hdata : (connection.field? "data").isSome = true)
    (h : firstFault (connectionChecks connection) = some reason) :
    reason = .missing .target ∨ reason = .incomplete .target := by
  have hobject : connection.isObject = true := Json.isObject_of_field? hdata
  rw [connectionChecks, firstFault_cons, if_pos hobject, sides, if_pos hdata] at h
  obtain ⟨c, hc, rfl⟩ := mem_of_firstFault h
  simp only [List.flatMap_singleton, endChecks, List.mem_cons, List.not_mem_nil, or_false] at hc
  rcases hc with rfl | rfl
  · exact .inl rfl
  · exact .inr rfl

theorem connection_fault_placed {d : Json} {index : Nat} {reason : ConnectionFault}
    (h : firstFault (checks d) = some (.connection index reason)) :
    (∀ c ∈ frameChecks d, c.passes = true) ∧
      ∃ before connection after, (connectionsOf d).items = before ++ connection :: after ∧
        before.length = index ∧ (∀ b ∈ before, Proper b) ∧
        firstFault (connectionChecks connection) = some reason := by
  rw [checks, firstFault_append] at h
  cases hframe : firstFault (frameChecks d) with
  | some fault =>
    obtain ⟨c, hc, hfault⟩ := mem_of_firstFault hframe
    rw [hframe, Option.some_or, ← hfault] at h
    exact absurd (Option.some.inj h) (not_connection_of_frameChecks hc index reason)
  | none =>
    rw [hframe, Option.none_or] at h
    obtain ⟨before, connection, after, reason', hitems, hfault, hbefore, hreason⟩ :=
      firstFault_connectionsFrom h
    obtain ⟨hindex, rfl⟩ := Fault.connection.inj hfault
    refine ⟨firstFault_eq_none_iff.mp hframe, before, connection, after, hitems, ?_, hbefore,
      hreason⟩
    rw [hindex, Nat.zero_add]

theorem readConnection_put_source {fields : Fields}
    (hdata : (Json.lookup "data" fields).isSome = true) (source : Json) :
    readConnection (.object (Json.put "src" source fields)) = readConnection (.object fields) := by
  obtain ⟨data, hdata⟩ := Option.isSome_iff_exists.mp hdata
  have hput : Json.lookup "data" (Json.put "src" source fields) = some data := by
    rw [Json.lookup_put_of_ne (by decide), hdata]
  have htarget : readEnd .target (Json.put "src" source fields) = readEnd .target fields := by
    unfold readEnd
    rw [Json.lookup_put_of_ne (by decide)]
  rw [readConnection_of_data hput, readConnection_of_data hdata, htarget]

/-- A definition all of whose checks pass is built into a graph, and nothing is missing or of the
wrong kind on the way; any other is refused with the fault of the first check that fails. So a
fault in a connection is in the first one that is malformed, and all before the connections is well
formed. Where a connection has data, its source does not matter. -/
theorem decode_reports_first_fault (d : Json) :
    ((firstFault (checks d) = none ∧ ∃ g, decode d = .ok g ∧ build d = .ok g) ∨
      ∃ fault, firstFault (checks d) = some fault ∧ decode d = .error fault) ∧
    (∀ index reason, decode d = .error (.connection index reason) →
      (∀ c ∈ frameChecks d, c.passes = true) ∧
      ∃ before connection after, (connectionsOf d).items = before ++ connection :: after ∧
        before.length = index ∧ (∀ b ∈ before, Proper b) ∧
        firstFault (connectionChecks connection) = some reason ∧
        ((connection.field? "data").isSome = true →
          reason = .missing .target ∨ reason = .incomplete .target)) ∧
    ∀ fields source, (Json.lookup "data" fields).isSome = true →
      readConnection (.object (Json.put "src" source fields)) =
        readConnection (.object fields) := by
  have hheeds := heeds_decode d
  refine ⟨?_, fun index reason h => ?_, fun fields source hdata =>
    readConnection_put_source hdata source⟩
  · cases h : decode d with
    | ok g =>
      rw [h] at hheeds
      exact .inl ⟨hheeds, g, rfl, build_of_decode h⟩
    | error fault =>
      rw [h] at hheeds
      exact .inr ⟨fault, hheeds, rfl⟩
  · rw [h] at hheeds
    obtain ⟨hframe, before, connection, after, hitems, hindex, hbefore, hreason⟩ :=
      connection_fault_placed hheeds
    exact ⟨hframe, before, connection, after, hitems, hindex, hbefore, hreason,
      fun hdata => firstFault_of_data hdata hreason⟩

/-- A packet whose source is nothing of the kind, an edge that is wrong at both its ends, and after
it a connection that is no object. -/
def crossedDefinition : Json :=
  .object [
    ("connections", .array [
      .object [("src", .int 7), ("data", .null),
        ("tgt", .object [("port", .string "IN"), ("process", .string "A")])],
      .object [("tgt", .int 3),
        ("src", .object [("process", .string "A"), ("port", .int 1)])],
      .string "late"]),
    ("processes", .object [("A", .object [("component", .string "X")])]),
    ("properties", .array [])]

theorem crossedDefinition_refused :
    decode crossedDefinition = .error (.connection 1 (.incomplete .source)) ∧
      (∀ c ∈ frameChecks crossedDefinition, c.passes = true) ∧
      ∃ before connection after,
        (connectionsOf crossedDefinition).items = before ++ connection :: after ∧
        before.length = 1 ∧ (∀ b ∈ before, Proper b) ∧
        firstFault (connectionChecks connection) = some (.incomplete .source) := by
  have h : decode crossedDefinition = .error (.connection 1 (.incomplete .source)) := by
    decide
  obtain ⟨hframe, before, connection, after, hitems, hindex, hbefore, hreason, -⟩ :=
    (decode_reports_first_fault crossedDefinition).2.1 1 (.incomplete .source) h
  exact ⟨h, hframe, before, connection, after, hitems, hindex, hbefore, hreason⟩

end Definition

end FlowGraph
