import FlowGraph.Proofs.Definition.Parts
import FlowGraph.Proofs.Definition.RoundTrip
import FlowGraph.Proofs.Json.WellFormed
import FlowGraph.Proofs.Text.Lowercase

/-! Graphs in normal form: their node ids differ, their ports are in lower case, and their values
can be written. What is read from a definition is in normal form at once, and a graph in normal
form is read again from what is written of it. -/

namespace FlowGraph

theorem Endpoint.lowered_lowered (p : Endpoint) : p.lowered.lowered = p.lowered := by
  simp [Endpoint.lowered, Text.lowercase_lowercase]

theorem Connection.lowered_lowered (c : Connection) : c.lowered.lowered = c.lowered := by
  cases c with
  | edge e => simp [Connection.lowered, Edge.lowered, Endpoint.lowered_lowered]
  | initial i => simp [Connection.lowered, Initializer.lowered, Endpoint.lowered_lowered]

structure Node.WellFormed (n : Node) : Prop where
  component : n.component.WellFormed
  display : n.display.WellFormed

structure Graph.Normal (g : Graph) : Prop where
  ids : (g.nodes.map (·.id)).Nodup
  ports : g.LowerCased
  nodes : ∀ n ∈ g.nodes, n.WellFormed
  data : ∀ i ∈ g.initializers, i.data.WellFormed

def Graph.floats (g : Graph) : List Binary64 :=
  g.nodes.flatMap (fun n => n.component.floats ++ n.display.floats) ++
    g.initializers.flatMap (·.data.floats)

namespace Graph.Normal

variable {g : Graph}

theorem readable (hg : g.Normal) (hf : ∀ x ∈ g.floats, Json.Legible x) : g.Readable := by
  simp only [Graph.floats, List.mem_append, List.mem_flatMap] at hf
  refine ⟨fun n hn => ?_, fun n hn => ?_, fun i hi => ?_⟩
  · exact Json.readable_of_wellFormed (hg.nodes n hn).component
      fun x hx => hf x (.inl ⟨n, hn, .inl hx⟩)
  · exact Json.readable_of_wellFormed (hg.nodes n hn).display
      fun x hx => hf x (.inl ⟨n, hn, .inr hx⟩)
  · exact Json.readable_of_wellFormed (hg.data i hi) fun x hx => hf x (.inr ⟨i, hi, hx⟩)

theorem of_connections {name : String} {nodes : List Node} {connections : List Connection}
    (hids : (nodes.map (·.id)).Nodup) (hnodes : ∀ n ∈ nodes, n.WellFormed)
    (hports : ∀ c ∈ connections, c.lowered = c)
    (hdata : ∀ i, .initial i ∈ connections → i.data.WellFormed) :
    Graph.Normal ⟨name, nodes, connections.filterMap (·.edge?),
      connections.filterMap (·.initial?)⟩ := by
  have hedge {e : Edge} (he : e ∈ connections.filterMap (·.edge?)) : .edge e ∈ connections := by
    obtain ⟨c, hc, hce⟩ := List.mem_filterMap.mp he
    cases c with
    | edge f => exact Option.some.inj hce ▸ hc
    | initial i => cases hce
  have hinitial {i : Initializer} (hi : i ∈ connections.filterMap (·.initial?)) :
      .initial i ∈ connections := by
    obtain ⟨c, hc, hci⟩ := List.mem_filterMap.mp hi
    cases c with
    | edge e => cases hci
    | initial j => exact Option.some.inj hci ▸ hc
  refine ⟨hids, ⟨fun e he => ?_, fun e he => ?_, fun i hi => ?_⟩, hnodes,
    fun i hi => hdata i (hinitial hi)⟩
  · have h := Connection.edge.inj (hports _ (hedge he))
    exact congrArg (·.source.port) h
  · have h := Connection.edge.inj (hports _ (hedge he))
    exact congrArg (·.target.port) h
  · have h := Connection.initial.inj (hports _ (hinitial hi))
    exact congrArg (·.target.port) h

theorem decode_encode (hg : g.Normal) : Definition.decode (Definition.encode g) = .ok g := by
  rw [Definition.decode_encode, Graph.interchanged_eq_self hg.ids hg.ports]

theorem ofJsonText (hg : g.Normal) (hf : ∀ x ∈ g.floats, Json.Legible x) (indent : Option Int) :
    ofJsonText (jsonText g indent) = .ok g := by
  unfold FlowGraph.ofJsonText jsonText Json.toText
  rw [String.toList_ofList, Json.readAll_write _ (Definition.readable_encode (hg.readable hf))]
  simp only [hg.decode_encode]
  rfl

end Graph.Normal

theorem Json.WellFormed.field? {key : String} {v w : Json} (hv : v.WellFormed)
    (h : v.field? key = some w) : w.WellFormed := by
  cases v with
  | object fields => exact hv.lookup h
  | _ => cases h

theorem Json.WellFormed.field {v : Json} (hv : v.WellFormed) (key : String) :
    (v.field key).WellFormed := by
  cases h : v.field? key with
  | none =>
    rw [Json.field, h]
    exact .null
  | some w =>
    rw [Json.field_of_field? h]
    exact hv.field? h

namespace Definition

theorem wellFormed_processesOf {d : Json} (hd : d.WellFormed) : (processesOf d).WellFormed := by
  unfold processesOf
  cases h : d.field? "processes" with
  | none => exact .object [] .nil (by simp)
  | some processes => exact hd.field? h

theorem wellFormed_connectionsOf {d : Json} (hd : d.WellFormed) :
    (connectionsOf d).WellFormed := by
  unfold connectionsOf
  cases h : d.field? "connections" with
  | none => exact .array [] (by simp)
  | some connections => exact hd.field? h

theorem wellFormed_of_readNode {id : String} {process : Json} {n : Node}
    (hw : process.WellFormed) (h : readNode id process = .ok n) : n.WellFormed := by
  obtain ⟨-, hcomponent, hdisplay⟩ := fields_of_readNode h
  exact ⟨hw.field? hcomponent, hdisplay ▸ hw.field "display"⟩

theorem lowered_of_hasEnd {connection : Json} {side : Side} {p : Endpoint}
    (h : HasEnd connection side p) : p.lowered = p := by
  obtain ⟨place, port, -, -, -, hlower⟩ := h
  have hport : Text.lowercase p.port = p.port := by rw [hlower, Text.lowercase_lowercase]
  rw [Endpoint.lowered, hport]

theorem lowered_of_hasParts {connection : Json} {c : Connection} (h : HasParts connection c) :
    c.lowered = c := by
  cases c with
  | edge e =>
    obtain ⟨-, hsource, htarget⟩ := h
    rw [Connection.lowered, Edge.lowered, lowered_of_hasEnd hsource, lowered_of_hasEnd htarget]
  | initial i =>
    obtain ⟨-, htarget⟩ := h
    rw [Connection.lowered, Initializer.lowered, lowered_of_hasEnd htarget]

theorem normal_of_decode {definition : Json} {g : Graph} (hw : definition.WellFormed)
    (h : decode definition = .ok g) : g.Normal := by
  obtain ⟨entries, items, connections, -, hentries, hnodes, hitems, hconnections, hedges,
    hinitializers⟩ := decode_eq_ok h
  have hprocesses := wellFormed_processesOf hw
  have hvalues := wellFormed_connectionsOf hw
  rw [hentries] at hprocesses
  rw [hitems] at hvalues
  have hg : g = ⟨g.name, g.nodes, connections.filterMap (·.edge?),
      connections.filterMap (·.initial?)⟩ := by
    rw [← hedges, ← hinitializers]
  cases hprocesses with
  | object _ hkeys hprocesses =>
    cases hvalues with
    | array _ hvalues =>
      rw [hg]
      refine .of_connections ?_ (fun n hn => ?_) (fun c hc => ?_) fun i hi => ?_
      · rw [ids_of_readNode hnodes]
        exact hkeys
      · obtain ⟨entry, hentry, hread⟩ := Outcome.exists_of_mem_forall₂ hnodes hn
        exact wellFormed_of_readNode (hprocesses entry hentry) hread
      · obtain ⟨v, -, hread⟩ := Outcome.exists_of_mem_forall₂ hconnections hc
        exact lowered_of_hasParts (hasParts_of_readConnection hread)
      · obtain ⟨v, hv, hread⟩ := Outcome.exists_of_mem_forall₂ hconnections hi
        obtain ⟨hdata, -⟩ := hasParts_of_readConnection hread
        exact (hvalues v hv).field? hdata

end Definition

end FlowGraph
