import FlowGraph.Proofs.Definition.Parts

/-! The checks of a definition, in the order in which they are made. To read a definition is to
make them: it fails with the fault of the first check that fails, and succeeds if there is none. -/

namespace FlowGraph.Definition

/-- A condition on a value, and the fault that is reported where it does not hold. -/
structure Check (ε : Type) where
  passes : Bool
  fault : ε

variable {ε δ α β : Type}

def Check.relabel (f : ε → δ) (c : Check ε) : Check δ :=
  ⟨c.passes, f c.fault⟩

def firstFault (checks : List (Check ε)) : Option ε :=
  (checks.find? (!·.passes)).map (·.fault)

@[simp] theorem firstFault_nil : firstFault ([] : List (Check ε)) = none := rfl

theorem firstFault_cons (c : Check ε) (checks : List (Check ε)) :
    firstFault (c :: checks) = if c.passes then firstFault checks else some c.fault := by
  cases h : c.passes <;> simp [firstFault, h]

theorem firstFault_append (cs ds : List (Check ε)) :
    firstFault (cs ++ ds) = (firstFault cs).or (firstFault ds) := by
  induction cs with
  | nil => rfl
  | cons c cs ih =>
    rw [List.cons_append, firstFault_cons, firstFault_cons, ih]
    split <;> rfl

theorem firstFault_relabel (f : ε → δ) (checks : List (Check ε)) :
    firstFault (checks.map (Check.relabel f)) = (firstFault checks).map f := by
  induction checks with
  | nil => rfl
  | cons c checks ih =>
    rw [List.map_cons, firstFault_cons, firstFault_cons, ih]
    cases h : c.passes <;> simp [Check.relabel, h]

theorem firstFault_eq_none_iff {checks : List (Check ε)} :
    firstFault checks = none ↔ ∀ c ∈ checks, c.passes = true := by
  simp [firstFault]

theorem mem_of_firstFault {checks : List (Check ε)} {fault : ε}
    (h : firstFault checks = some fault) : ∃ c ∈ checks, c.fault = fault := by
  obtain ⟨c, hc, hfault⟩ := Option.map_eq_some_iff.mp h
  exact ⟨c, List.mem_of_find?_eq_some hc, hfault⟩

/-- The outcome is a failure just if one of the checks fails, with the fault of the first. -/
def Heeds (checks : List (Check ε)) : Except ε α → Prop
  | .ok _ => firstFault checks = none
  | .error fault => firstFault checks = some fault

theorem Heeds.cons {c : Check ε} {checks : List (Check ε)} {x : Except ε α}
    (h : Heeds checks x) (hc : c.passes = true) : Heeds (c :: checks) x := by
  have hrest : firstFault (c :: checks) = firstFault checks := by
    rw [firstFault_cons, if_pos hc]
  cases x <;> exact hrest.trans h

theorem Heeds.relabel {checks : List (Check ε)} {x : Except ε α} (h : Heeds checks x)
    (f : ε → δ) : Heeds (checks.map (Check.relabel f)) (x.mapError f) := by
  cases x with
  | ok a =>
    have hnone : firstFault checks = none := h
    show firstFault (checks.map (Check.relabel f)) = none
    rw [firstFault_relabel, hnone, Option.map_none]
  | error fault =>
    have hfirst : firstFault checks = some fault := h
    show firstFault (checks.map (Check.relabel f)) = some (f fault)
    rw [firstFault_relabel, hfirst, Option.map_some]

theorem Heeds.bind {cs ds : List (Check ε)} {x : Except ε α} {f : α → Except ε β}
    (hx : Heeds cs x) (hf : ∀ a, x = .ok a → Heeds ds (f a)) : Heeds (cs ++ ds) (x >>= f) := by
  cases x with
  | error fault =>
    have hfirst : firstFault cs = some fault := hx
    show firstFault (cs ++ ds) = some fault
    rw [firstFault_append, hfirst, Option.some_or]
  | ok a =>
    have hnone : firstFault cs = none := hx
    have hrest : firstFault (cs ++ ds) = firstFault ds := by
      rw [firstFault_append, hnone, Option.none_or]
    have ha := hf a rfl
    show Heeds (cs ++ ds) (f a)
    cases hb : f a <;> rw [hb] at ha <;> exact hrest.trans ha

/-- To make no check of its own. -/
theorem Heeds.bind_ok {cs : List (Check ε)} {x : Except ε α} (hx : Heeds cs x) (f : α → β) :
    Heeds cs (x >>= fun a => .ok (f a)) := by
  cases x <;> exact hx

theorem Heeds.mapM {checks : α → List (Check ε)} {f : α → Except ε β}
    (h : ∀ a, Heeds (checks a) (f a)) (xs : List α) :
    Heeds (xs.flatMap checks) (xs.mapM f) := by
  induction xs with
  | nil => rfl
  | cons x xs ih =>
    rw [List.mapM_cons, List.flatMap_cons]
    exact (h x).bind fun b _ => ih.bind_ok (b :: ·)

/-! The checks of a definition. -/

def nameChecks (d : Json) : List (Check Fault) :=
  [⟨(propertiesOf d).isObject || (propertiesOf d).isVoid, .properties⟩,
    ⟨(nameOf d).isString, .name (nameOf d).kind⟩]

def nodeChecks (id : String) (process : Json) : List (Check Fault) :=
  [⟨(process.field? "component").isSome, .noComponent id⟩]

def processChecks (d : Json) : List (Check Fault) :=
  ⟨(processesOf d).isObject, .processes⟩ ::
    (processesOf d).entries.flatMap fun (id, process) => nodeChecks id process

def endChecks (side : Side) (connection : Json) : List (Check ConnectionFault) :=
  let place := connection.field side.key
  [⟨place.isObject, .missing side⟩,
    ⟨(place.field? "process").any Json.isString && (place.field? "port").any Json.isString,
      .incomplete side⟩]

/-- The ends that a connection must have. -/
def sides (connection : Json) : List Side :=
  if (connection.field? "data").isSome then [.target] else [.source, .target]

def connectionChecks (connection : Json) : List (Check ConnectionFault) :=
  ⟨connection.isObject, .notObject⟩ :: (sides connection).flatMap (endChecks · connection)

def connectionsFrom (index : Nat) (connections : List Json) : List (Check Fault) :=
  (connections.zipIdx index).flatMap fun (connection, i) =>
    (connectionChecks connection).map (Check.relabel (.connection i))

theorem connectionsFrom_cons (index : Nat) (connection : Json) (connections : List Json) :
    connectionsFrom index (connection :: connections) =
      (connectionChecks connection).map (Check.relabel (.connection index)) ++
        connectionsFrom (index + 1) connections := by
  simp [connectionsFrom]

/-- What is checked before the connections are looked at one by one. -/
def frameChecks (d : Json) : List (Check Fault) :=
  ⟨d.isObject, .notObject d.kind⟩ :: (nameChecks d ++ processChecks d ++
    [⟨(connectionsOf d).isArray, .connections⟩])

def checks (d : Json) : List (Check Fault) :=
  frameChecks d ++ connectionsFrom 0 (connectionsOf d).items

/-! Each reader makes its checks. -/

theorem heeds_readName (fields : Fields) :
    Heeds (nameChecks (.object fields)) (readName fields) := by
  unfold readName nameChecks nameOf propertiesOf Json.field
  rw [Json.field?]
  generalize (Json.lookup "properties" fields).getD .null = properties
  by_cases hv : properties.isVoid = true
  · simp [hv, Json.field?_of_isVoid hv, Heeds, firstFault_cons, Json.isString]
  · cases properties with
    | object inner =>
      simp only [hv, Json.field?, Json.isObject, Bool.true_or, Bool.false_eq_true, if_false]
      cases hname : Json.lookup "name" inner with
      | none => rfl
      | some name => cases name <;> rfl
    | _ => simp [hv, Json.isObject, Heeds, firstFault_cons]

theorem heeds_readNode (id : String) (process : Json) :
    Heeds (nodeChecks id process) (readNode id process) := by
  cases process with
  | object inner =>
    simp only [readNode, nodeChecks, Json.field?]
    cases Json.lookup "component" inner <;> rfl
  | _ => rfl

theorem heeds_readNodes (fields : Fields) :
    Heeds (processChecks (.object fields)) (readNodes fields) := by
  unfold readNodes processChecks processesOf
  rw [Json.field?]
  cases Json.lookup "processes" fields with
  | none => rfl
  | some processes =>
    cases processes with
    | object entries =>
      have hread := Heeds.mapM (fun entry : String × Json => heeds_readNode entry.1 entry.2) entries
      exact hread.cons rfl
    | _ => rfl

theorem heeds_readEnd (side : Side) (fields : Fields) :
    Heeds (endChecks side (.object fields)) (readEnd side fields) := by
  unfold readEnd endChecks Json.field
  rw [Json.field?]
  cases Json.lookup side.key fields with
  | none => rfl
  | some place =>
    cases place with
    | object inner =>
      simp only [Option.getD_some, Json.field?]
      cases Json.lookup "process" inner with
      | none => rfl
      | some process =>
        cases Json.lookup "port" inner with
        | none => cases process <;> rfl
        | some port => cases process <;> cases port <;> rfl
    | _ => rfl

theorem heeds_readConnection (connection : Json) :
    Heeds (connectionChecks connection) (readConnection connection) := by
  cases connection with
  | object fields =>
    have hsource := heeds_readEnd .source fields
    have htarget := heeds_readEnd .target fields
    rcases Option.eq_none_or_eq_some (Json.lookup "data" fields) with hdata | ⟨data, hdata⟩
    · have hsides : (sides (.object fields)).flatMap (endChecks · (.object fields)) =
          endChecks .source (.object fields) ++ endChecks .target (.object fields) := by
        simp [sides, Json.field?, hdata]
      rw [readConnection_of_no_data hdata, connectionChecks, hsides]
      exact (hsource.bind fun source _ => htarget.bind_ok _).cons rfl
    · have hsides : (sides (.object fields)).flatMap (endChecks · (.object fields)) =
          endChecks .target (.object fields) := by
        simp [sides, Json.field?, hdata]
      rw [readConnection_of_data hdata, connectionChecks, hsides]
      exact (htarget.bind_ok _).cons rfl
  | _ => rfl

theorem heeds_readFrom (index : Nat) (connections : List Json) :
    Heeds (connectionsFrom index connections) (readFrom index connections) := by
  induction connections generalizing index with
  | nil => rfl
  | cons connection connections ih =>
    have hfirst := (heeds_readConnection connection).relabel (Fault.connection index)
    have hread := hfirst.bind fun c _ => (ih (index + 1)).bind_ok (c :: ·)
    rw [connectionsFrom_cons, readFrom]
    cases hc : readConnection connection <;> rw [hc] at hread <;> exact hread

theorem heeds_readConnections (fields : Fields) :
    Heeds (⟨(connectionsOf (.object fields)).isArray, .connections⟩ ::
      connectionsFrom 0 (connectionsOf (.object fields)).items) (readConnections fields) := by
  unfold readConnections connectionsOf
  rw [Json.field?]
  cases Json.lookup "connections" fields with
  | none => rfl
  | some connections =>
    cases connections with
    | array items => exact (heeds_readFrom 0 items).cons rfl
    | _ => rfl

theorem heeds_decode (d : Json) : Heeds (checks d) (decode d) := by
  cases d with
  | object fields =>
    have hread := (heeds_readName fields).bind fun name _ =>
      (heeds_readNodes fields).bind fun nodes _ =>
        (heeds_readConnections fields).bind_ok fun connections => Graph.mk name nodes
          (connections.filterMap (·.edge?)) (connections.filterMap (·.initial?))
    have hchecks : checks (.object fields) = ⟨true, .notObject "dict"⟩ ::
        (nameChecks (.object fields) ++ (processChecks (.object fields) ++
          (⟨(connectionsOf (.object fields)).isArray, .connections⟩ ::
            connectionsFrom 0 (connectionsOf (.object fields)).items))) := by
      simp [checks, frameChecks, Json.isObject, Json.kind]
    rw [hchecks]
    exact hread.cons rfl
  | _ => rfl

theorem refused_of_check {d : Json} {c : Check Fault} (hc : c ∈ checks d)
    (h : c.passes = false) : ∃ fault, decode d = .error fault := by
  cases hd : decode d with
  | error fault => exact ⟨fault, rfl⟩
  | ok g =>
    have hheeds := heeds_decode d
    rw [hd] at hheeds
    have hpasses := firstFault_eq_none_iff.mp hheeds c hc
    rw [h] at hpasses
    cases hpasses

end FlowGraph.Definition
