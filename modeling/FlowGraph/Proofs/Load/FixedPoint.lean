import FlowGraph.Proofs.Definition.NormalForm
import FlowGraph.Proofs.Program.Loading

/-! However a graph was loaded, to save it and to load it again changes nothing. -/

namespace FlowGraph

namespace Program

theorem nodup_declare {known : List (String × String)} (h : (known.map (·.1)).Nodup)
    (declared : List (String × String)) : ((declare known declared).map (·.1)).Nodup := by
  induction declared generalizing known with
  | nil => exact h
  | cons d declared ih =>
    obtain ⟨id, component⟩ := d
    by_cases hk : known.any (·.1 == id) = true
    · have hstep : declare known ((id, component) :: declared) = declare known declared := by
        simp only [declare, List.foldl_cons, hk, if_true]
      rw [hstep]
      exact ih h
    · have hstep : declare known ((id, component) :: declared) =
          declare (known ++ [(id, component)]) declared := by
        simp only [declare, List.foldl_cons, hk, if_neg, Bool.false_eq_true, not_false_eq_true]
      have hnew : id ∉ known.map (·.1) := by
        simpa using hk
      rw [hstep]
      refine ih ?_
      rw [List.map_append, List.map_singleton, ← List.concat_eq_append]
      exact h.concat hnew

theorem Source.data_connect {source : Source} {target : Endpoint} {i : Initializer}
    (h : source.connect target = .initial i) : ∃ data, i.data = .string data := by
  cases source with
  | literal data =>
    obtain rfl := Connection.initial.inj h
    exact ⟨data, rfl⟩
  | port e => cases h

theorem data_of_readStatement {tokens : List Located} {s : Statement} {i : Initializer}
    (h : readStatement tokens = .ok s) (hi : .initial i ∈ s.connections) :
    ∃ data, i.data = .string data := by
  obtain ⟨c, -, rfl⟩ := readStatement_eq_ok_iff.mp h
  rw [Chain.statement, Chain.connections, ← List.map_uncurry_zip_eq_zipWith] at hi
  obtain ⟨⟨head, link⟩, -, hconnect⟩ := List.mem_map.mp hi
  exact Source.data_connect hconnect

/-- A program is a graph in normal form: components and initial packets are strings. -/
theorem normal_graph_of_parse {text name : String} {p : Program}
    (h : parse text name = .ok p) : p.graph.Normal := by
  obtain ⟨statements, read, -, hread, rfl⟩ := parse_eq_ok_iff.mp h
  refine .of_connections ?_ (fun n hn => ?_) (fun c hc => ?_) fun i hi => ?_
  · have hids := @nodup_declare [] List.nodup_nil (read.flatMap (·.declared))
    simpa [nodes, ofStatements, Function.comp_def] using hids
  · obtain ⟨⟨id, component⟩, -, rfl⟩ := List.mem_map.mp hn
    exact ⟨.string component, .null⟩
  · obtain ⟨c, -, rfl⟩ := List.mem_map.mp hc
    exact c.lowered_lowered
  · obtain ⟨c, hc, hlowered⟩ := List.mem_map.mp hi
    cases c with
    | edge e => cases hlowered
    | initial j =>
      obtain rfl := Connection.initial.inj hlowered
      obtain ⟨s, hs, hj⟩ := List.mem_flatMap.mp hc
      obtain ⟨tokens, -, htokens⟩ :=
        Outcome.exists_of_mem_forall₂ (Outcome.mapM_eq_ok_iff.mp hread) hs
      obtain ⟨data, hdata⟩ := data_of_readStatement htokens hj
      have hstring : j.lowered.data = .string data := hdata
      rw [hstring]
      exact .string data

end Program

variable {ε : Type} {g : Graph}

/-- The ways in which a graph is loaded. A definition that does not come from a text is any value
that a text could stand for. -/
inductive Loaded (ε : Type) (g : Graph) : Prop
  | definition (d : Json) (receiver : Option (Receiver ε)) (hd : d.WellFormed)
    (h : (loadDefinition d receiver).result = .ok g)
  | program (text : String) (receiver : Option (Receiver ε))
    (h : (loadProgram text receiver none).result = .ok g)
  | parsed (text : String) (receiver : Option (Receiver ε)) (parser : Parser)
    (hd : ∀ d, parser text = .ok d → d.WellFormed)
    (h : (loadProgram text receiver (some parser)).result = .ok g)
  | text (text : String) (h : ofJsonText text = .ok g)

theorem eq_of_deliver {g' : Graph} {receiver : Option (Receiver ε)}
    (h : (deliver g' receiver).result = .ok g) : g' = g := by
  unfold deliver at h
  dsimp only at h
  split at h
  · exact Except.ok.inj h
  · split at h
    · exact Except.ok.inj h
    · cases h

theorem decode_of_loadDefinition {d : Json} {receiver : Option (Receiver ε)}
    (h : (loadDefinition d receiver).result = .ok g) : Definition.decode d = .ok g := by
  unfold loadDefinition at h
  split at h
  · next hdecode => rw [hdecode, eq_of_deliver h]
  · cases h

theorem definitionOfText_none_iff {text : String} {d : Json} :
    definitionOfText text none = .ok d ↔ ∃ p, Program.parse text = .ok p ∧ p.definition = d := by
  cases hp : Program.parse text <;> simp [definitionOfText, hp]

theorem definitionOfText_some_iff {text : String} {parser : Parser} {d : Json} :
    definitionOfText text (some parser) = .ok d ↔ parser text = .ok d := by
  cases hp : parser text <;> simp [definitionOfText, hp]

theorem decode_of_loadProgram {text : String} {receiver : Option (Receiver ε)}
    {parser : Option Parser} (h : (loadProgram text receiver parser).result = .ok g) :
    ∃ d, definitionOfText text parser = .ok d ∧ Definition.decode d = .ok g := by
  unfold loadProgram at h
  split at h
  · next d hd => exact ⟨d, hd, decode_of_loadDefinition h⟩
  · cases h

theorem decode_of_ofJsonText {text : String} (h : ofJsonText text = .ok g) :
    ∃ d, Json.readAll text.toList = .ok d ∧ Definition.decode d = .ok g := by
  unfold ofJsonText at h
  split at h
  · cases h
  · next d hread =>
    refine ⟨d, hread, ?_⟩
    cases hdecode : Definition.decode d with
    | ok g' =>
      rw [hdecode] at h
      rw [Except.ok.inj h]
    | error fault =>
      rw [hdecode] at h
      cases h

theorem Loaded.normal (h : Loaded ε g) : g.Normal := by
  cases h with
  | definition d receiver hd h => exact Definition.normal_of_decode hd (decode_of_loadDefinition h)
  | program text receiver h =>
    obtain ⟨d, hd, hdecode⟩ := decode_of_loadProgram h
    obtain ⟨p, hp, rfl⟩ := definitionOfText_none_iff.mp hd
    rw [Program.decode_definition] at hdecode
    rw [← Except.ok.inj hdecode]
    exact Program.normal_graph_of_parse hp
  | parsed text receiver parser hw h =>
    obtain ⟨d, hd, hdecode⟩ := decode_of_loadProgram h
    exact Definition.normal_of_decode (hw d (definitionOfText_some_iff.mp hd)) hdecode
  | text text h =>
    obtain ⟨d, hread, hdecode⟩ := decode_of_ofJsonText h
    exact Definition.normal_of_decode (Json.wellFormed_of_readAll hread) hdecode

/-- A graph that was loaded is loaded again from its definition and from its text, at any indent;
and to write what was read from its text gives the same text. -/
theorem loaded_fixed_point (h : Loaded ε g) :
    (loadDefinition (Definition.encode g) none : Loading ε).result = .ok g ∧
      ((∀ x ∈ g.floats, Json.Legible x) → ∀ indent : Option Int,
        ofJsonText (jsonText g indent) = .ok g ∧
        (ofJsonText (jsonText g indent)).map (jsonText · indent) = .ok (jsonText g indent)) := by
  have hnormal := h.normal
  refine ⟨?_, fun hf indent => ?_⟩
  · simp [loadDefinition, hnormal.decode_encode, deliver]
  · have htext := hnormal.ofJsonText hf indent
    rw [htext]
    exact ⟨rfl, rfl⟩

/-- A process is given twice, a display is null, a packet stands before an edge, and of the ports
one ends in a capital sigma and one becomes longer. -/
def untidyText : String :=
  Json.toText .oneLine (.object [
    ("properties", .object [("name", .string "untidy"), ("version", .int 2)]),
    ("processes", .object [
      ("A", .object [("component", .string "first")]),
      ("B", .object [("component", .float (.finite false 6755399441055744 (-52))),
        ("display", .null)]),
      ("A", .object [("component", .string "last")])]),
    ("connections", .array [
      .object [("data", .float .nan),
        ("tgt", .object [("process", .string "B"), ("port", .string "ΟΔΟΣ")])],
      .object [("src", .object [("process", .string "A"), ("port", .string "OUT")]),
        ("tgt", .object [("process", .string "B"), ("port", .string "\u0130N")])]])])

def tidyGraph : Graph where
  name := "untidy"
  nodes := [⟨"A", .string "last", .null⟩,
    ⟨"B", .float (.finite false 6755399441055744 (-52)), .null⟩]
  edges := [⟨⟨"A", "out"⟩, ⟨"B", "i\u0307n"⟩⟩]
  initializers := [⟨.float .nan, ⟨"B", "οδος"⟩⟩]

theorem untidyText_tidied : ofJsonText untidyText = .ok tidyGraph ∧
    (loadDefinition (Definition.encode tidyGraph) none : Loading Empty).result = .ok tidyGraph ∧
    ofJsonText (jsonText tidyGraph (some 4)) = .ok tidyGraph ∧
    (ofJsonText (jsonText tidyGraph (some 4))).map (jsonText · (some 4)) =
      .ok (jsonText tidyGraph (some 4)) := by
  have hread : ofJsonText untidyText = .ok tidyGraph := by
    rw [ofJsonText, untidyText, Json.toText, String.toList_ofList]
    decide +kernel
  have hfloats : ∀ x ∈ tidyGraph.floats, Json.Legible x := by decide
  have hloaded : Loaded Empty tidyGraph := .text untidyText hread
  obtain ⟨hdefinition, htext⟩ := loaded_fixed_point hloaded
  exact ⟨hread, hdefinition, htext hfloats (some 4)⟩

end FlowGraph
