import FlowGraph.Proofs.Definition.Check
import FlowGraph.Proofs.Load.FixedPoint

/-! The data model of loaded graphs. Names are strings, for a definition where they are not is
refused. Components and display data are taken as they come, so a graph is in the model just if
they are so in its definition. -/

namespace FlowGraph

/-- A component is a string, and display data is an object, or null where there is none. -/
def InModel (component display : Json) : Prop :=
  component.isString = true ∧ (display = .null ∨ display.isObject = true)

def Graph.InModel (g : Graph) : Prop :=
  ∀ n ∈ g.nodes, FlowGraph.InModel n.component n.display

namespace Definition

/-- The name, and the process and the port at each end of a connection, are strings, and each
process has a component. -/
structure Named (d : Json) : Prop where
  name : (nameOf d).isString = true
  components : ∀ entry ∈ (processesOf d).entries, (entry.2.field? "component").isSome = true
  ends : ∀ c ∈ (connectionsOf d).items, ∀ side ∈ sides c,
    ((c.field side.key).field "process").isString = true ∧
      ((c.field side.key).field "port").isString = true

def ProcessesInModel (d : Json) : Prop :=
  ∀ entry ∈ (processesOf d).entries,
    InModel (entry.2.field "component") (entry.2.field "display")

theorem isString_of_hasEnd {connection : Json} {side : Side} {p : Endpoint}
    (h : HasEnd connection side p) :
    ((connection.field side.key).field "process").isString = true ∧
      ((connection.field side.key).field "port").isString = true := by
  obtain ⟨place, port, hplace, hprocess, hport, -⟩ := h
  rw [Json.field_of_field? hplace, Json.field_of_field? hprocess, Json.field_of_field? hport]
  exact ⟨rfl, rfl⟩

theorem hasEnd_of_hasParts {connection : Json} {c : Connection} (h : HasParts connection c)
    {side : Side} (hside : side ∈ sides connection) : ∃ p, HasEnd connection side p := by
  cases c with
  | edge e =>
    obtain ⟨-, hsource, htarget⟩ := h
    cases side with
    | source => exact ⟨e.source, hsource⟩
    | target => exact ⟨e.target, htarget⟩
  | initial i =>
    obtain ⟨hdata, htarget⟩ := h
    have hsides : sides connection = [.target] := by
      rw [sides, hdata]
      rfl
    rw [hsides, List.mem_singleton] at hside
    exact ⟨i.target, hside ▸ htarget⟩

theorem named_of_decode {d : Json} {g : Graph} (h : decode d = .ok g) : Named d := by
  obtain ⟨entries, items, connections, hname, hentries, hnodes, hitems, hconnections, -, -⟩ :=
    decode_eq_ok h
  refine ⟨?_, fun entry hentry => ?_, fun c hc side hside => ?_⟩
  · rw [hname]
    rfl
  · rw [hentries] at hentry
    obtain ⟨n, -, hread⟩ := Outcome.exists_of_mem_forall₂ hnodes.flip hentry
    obtain ⟨-, hcomponent, -⟩ := fields_of_readNode hread
    rw [hcomponent, Option.isSome_some]
  · rw [hitems] at hc
    obtain ⟨read, -, hread⟩ := Outcome.exists_of_mem_forall₂ hconnections.flip hc
    obtain ⟨p, hp⟩ := hasEnd_of_hasParts (hasParts_of_readConnection hread) hside
    exact isString_of_hasEnd hp

theorem inModel_of_readNode {id : String} {process : Json} {n : Node}
    (h : readNode id process = .ok n) :
    InModel n.component n.display ↔ InModel (process.field "component") (process.field "display") := by
  obtain ⟨-, hcomponent, hdisplay⟩ := fields_of_readNode h
  rw [Json.field_of_field? hcomponent, hdisplay]

theorem inModel_of_decode {d : Json} {g : Graph} (h : decode d = .ok g) :
    g.InModel ↔ ProcessesInModel d := by
  obtain ⟨entries, -, -, -, hentries, hnodes, -⟩ := decode_eq_ok h
  rw [ProcessesInModel, hentries]
  constructor
  · intro hg entry hentry
    obtain ⟨n, hn, hread⟩ := Outcome.exists_of_mem_forall₂ hnodes.flip hentry
    exact (inModel_of_readNode hread).mp (hg n hn)
  · intro hd n hn
    obtain ⟨entry, hentry, hread⟩ := Outcome.exists_of_mem_forall₂ hnodes hn
    exact (inModel_of_readNode hread).mpr (hd entry hentry)

end Definition

variable {ε : Type}

/-- The graph was loaded, and this is the definition that it was loaded from: it was given, or it
is what a program stands for, or what a text says. -/
inductive LoadedFrom (ε : Type) (d : Json) (g : Graph) : Prop
  | definition (receiver : Option (Receiver ε)) (h : (loadDefinition d receiver).result = .ok g)
  | program (text : String) (receiver : Option (Receiver ε)) (parser : Option Parser)
    (hd : definitionOfText text parser = .ok d)
    (h : (loadProgram text receiver parser).result = .ok g)
  | text (text : String) (hd : Json.readAll text.toList = .ok d) (h : ofJsonText text = .ok g)

theorem LoadedFrom.decode {d : Json} {g : Graph} (h : LoadedFrom ε d g) :
    Definition.decode d = .ok g := by
  cases h with
  | definition receiver h => exact decode_of_loadDefinition h
  | program text receiver parser hd h =>
    obtain ⟨d', hd', hdecode⟩ := decode_of_loadProgram h
    rw [hd] at hd'
    obtain rfl := Except.ok.inj hd'
    exact hdecode
  | text text hd h =>
    obtain ⟨d', hd', hdecode⟩ := decode_of_ofJsonText h
    rw [hd] at hd'
    obtain rfl := Except.ok.inj hd'
    exact hdecode

theorem Program.inModel_graph (p : Program) : p.graph.InModel := by
  intro n hn
  obtain ⟨⟨id, component⟩, -, rfl⟩ := List.mem_map.mp hn
  exact ⟨rfl, .inl rfl⟩

theorem refused_of_not_named {d : Json} (h : ¬ Definition.Named d)
    (receiver : Option (Receiver ε)) :
    ∃ fault, (loadDefinition d receiver).result = .error (.malformed (.definition fault)) := by
  unfold loadDefinition
  cases hd : Definition.decode d with
  | ok g => exact absurd (Definition.named_of_decode hd) h
  | error fault => exact ⟨fault, rfl⟩

/-- A definition whose names are not strings, or with a process that has no component, is refused.
A graph that was loaded is in the data model just if the components and display data of its
definition are, and always if it was read from a program in the line-oriented notation. -/
theorem loaded_inModel_iff :
    (∀ d g, LoadedFrom ε d g → Definition.Named d ∧ (g.InModel ↔ Definition.ProcessesInModel d)) ∧
    (∀ d (receiver : Option (Receiver ε)), ¬ Definition.Named d →
      ∃ fault, (loadDefinition d receiver).result = .error (.malformed (.definition fault))) ∧
    ∀ text (receiver : Option (Receiver ε)) g,
      (loadProgram text receiver none).result = .ok g → g.InModel := by
  refine ⟨fun d g h => ?_, fun d receiver h => refused_of_not_named h receiver,
    fun text receiver g h => ?_⟩
  · exact ⟨Definition.named_of_decode h.decode, Definition.inModel_of_decode h.decode⟩
  · obtain ⟨d, hd, hdecode⟩ := decode_of_loadProgram h
    obtain ⟨p, -, rfl⟩ := definitionOfText_none_iff.mp hd
    rw [Program.decode_definition] at hdecode
    rw [← Except.ok.inj hdecode]
    exact p.inModel_graph

def placedDefinition : Json :=
  .object [
    ("processes", .object [
      ("A", .object [("component", .string "X"), ("display", .object [("x", .int 1)])]),
      ("B", .object [("component", .string "Y"), ("display", .null)])]),
    ("connections", .array [
      .object [("src", .object [("process", .string "A"), ("port", .string "OUT")]),
        ("tgt", .object [("process", .string "B"), ("port", .string "IN")])]])]

def placedGraph : Graph where
  nodes := [⟨"A", .string "X", .object [("x", .int 1)]⟩, ⟨"B", .string "Y", .null⟩]
  edges := [⟨⟨"A", "out"⟩, ⟨"B", "in"⟩⟩]

theorem placedGraph_inModel : LoadedFrom Empty placedDefinition placedGraph ∧
    Definition.Named placedDefinition ∧ placedGraph.InModel := by
  have hread : Definition.decode placedDefinition = .ok placedGraph := by decide
  have hloaded : LoadedFrom Empty placedDefinition placedGraph := by
    refine .definition none ?_
    rw [loadDefinition, hread]
    rfl
  have hprocesses : Definition.ProcessesInModel placedDefinition := by
    intro entry hentry
    simp only [placedDefinition, Definition.processesOf, Json.field?, Json.lookup, Json.entries,
      if_true, Option.getD_some, List.mem_cons, List.not_mem_nil, or_false] at hentry
    rcases hentry with rfl | rfl
    · exact ⟨rfl, .inr rfl⟩
    · exact ⟨rfl, .inl rfl⟩
  obtain ⟨hnamed, hmodel⟩ := (@loaded_inModel_iff Empty).1 placedDefinition placedGraph hloaded
  exact ⟨hloaded, hnamed, hmodel.mpr hprocesses⟩

/-- A component that is a number is taken as it comes. -/
theorem loaded_not_always_inModel :
    ¬ ∀ (d : Json) (g : Graph), LoadedFrom Empty d g → g.InModel := by
  intro h
  have hg := h (.object [("processes", .object [("A", .object [("component", .int 5)])])])
    ⟨"", [⟨"A", .int 5, .null⟩], [], []⟩ (.definition none rfl)
  cases (hg ⟨"A", .int 5, .null⟩ List.mem_cons_self).1

end FlowGraph
