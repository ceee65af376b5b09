import FlowGraph.Proofs.Definition.Parts
import FlowGraph.Proofs.Files.Tree
import FlowGraph.Proofs.Program.Loading

/-! Who hears of a graph, and when. A receiver gets the graph once it is complete, and what it
answers comes out as it is; before that there are only complaints about the source, and the
receiver gets nothing. -/

namespace FlowGraph

/-- Where a graph is loaded from. A file is in a tree in which operations may meet obstacles. -/
inductive Source where
  | definition (d : Json)
  | program (text : String) (parser : Option Parser)
  | file (path : Files.Path) (parser : Option Parser)
    (obstacle : Files.Operation → Option Files.Fault) (t : Files.Tree)

namespace Source

variable {ε : Type} {s : Source}

def load : Source → Option (Receiver ε) → Loading ε
  | .definition d, receiver => loadDefinition d receiver
  | .program text parser, receiver => loadProgram text receiver parser
  | .file path parser obstacle t, receiver =>
    ((loadFile path receiver parser).runAgainst obstacle t).1

/-- A path that a file can have, in a tree where only the system stands in the way. -/
def Ordinary : Source → Prop
  | .file path _ obstacle _ => '\x00' ∉ path.text.toList ∧
    ∀ o fault, obstacle o = some fault → fault.reason ≠ .nulCharacter
  | _ => True

/-- What the system answers to the one who reads the file. -/
def answer (path : Files.Path) (obstacle : Files.Operation → Option Files.Fault)
    (t : Files.Tree) : Except Files.Fault (List UInt8) :=
  ((Files.Disk.read path).runAgainst obstacle t).1

/-- The text of a file, with line feeds at the ends of its lines. -/
def HoldsText (path : Files.Path) (obstacle : Files.Operation → Option Files.Fault)
    (t : Files.Tree) (text : List Char) : Prop :=
  ∃ bytes chars, answer path obstacle t = .ok bytes ∧ Text.Utf8.decode bytes = .ok chars ∧
    text = Text.unifyNewlines chars

/-- The definition that a source gives: it is one, or a parser makes one of a program, or a file
holds one or the program for one. -/
inductive Gives : Source → Json → Prop
  | definition (d : Json) : Gives (.definition d) d
  | program {text : String} {p : Program} (h : Program.parse text = .ok p) :
    Gives (.program text none) p.definition
  | parsed {text : String} {parser : Parser} {d : Json} (h : parser text = .ok d) :
    Gives (.program text (some parser)) d
  | programFile {path parser obstacle t text d} (ht : HoldsText path obstacle t text)
    (hs : path.suffix = programSuffix) (h : Gives (.program (String.ofList text) parser) d) :
    Gives (.file path parser obstacle t) d
  | jsonFile {path parser obstacle t text d} (ht : HoldsText path obstacle t text)
    (hs : path.suffix ≠ programSuffix) (h : Json.readAll text = .ok d) :
    Gives (.file path parser obstacle t) d

/-- A node for each process of the definition, and a connection for each of its connections. -/
structure Complete (d : Json) (g : Graph) : Prop where
  nodes : g.nodes.map (·.id) = (Definition.processesOf d).entries.map (·.1)
  connections : g.edges.length + g.initializers.length = (Definition.connectionsOf d).items.length

/-- The graph can be built from the source, to the last connection. -/
def Builds (s : Source) (g : Graph) : Prop :=
  ∃ d, s.Gives d ∧ Definition.decode d = .ok g ∧ Complete d g

/-- What loading complains about: the definition, or a file that cannot be read. -/
inductive Complaint where
  | malformed (cause : Malformed)
  | unreadable (path : Files.Path) (cause : Unreadable)

def Complaint.error : Complaint → LoadError ε
  | .malformed cause => .malformed cause
  | .unreadable path cause => .unreadable path cause

/-- A source is refused for a definition that is not well formed, for a program or a text that
gives none, for what its parser raises, and a file also if it cannot be read or is not UTF-8. -/
inductive Refuses : Source → Complaint → Prop
  | definition {s : Source} {d : Json} {fault : Definition.Fault} (hd : s.Gives d)
    (h : Definition.decode d = .error fault) : Refuses s (.malformed (.definition fault))
  | program {text : String} {e : Program.SyntaxError} (h : Program.parse text = .error e) :
    Refuses (.program text none) (.malformed (.program e))
  | parser {text : String} {parser : Parser} {failure : ParserFailure}
    (h : parser text = .error failure) :
    Refuses (.program text (some parser)) (.malformed (.parser failure))
  | programFile {path parser obstacle t text cause} (ht : HoldsText path obstacle t text)
    (hs : path.suffix = programSuffix)
    (h : Refuses (.program (String.ofList text) parser) (.malformed cause)) :
    Refuses (.file path parser obstacle t) (.malformed cause)
  | jsonFile {path parser obstacle t text e} (ht : HoldsText path obstacle t text)
    (hs : path.suffix ≠ programSuffix) (h : Json.readAll text = .error e) :
    Refuses (.file path parser obstacle t) (.malformed (.jsonFile path e text))
  | unreadable {path parser obstacle t fault} (h : answer path obstacle t = .error fault) :
    Refuses (.file path parser obstacle t) (.unreadable path (.fault fault))
  | notUtf8 {path parser obstacle t bytes fault} (h : answer path obstacle t = .ok bytes)
    (hd : Text.Utf8.decode bytes = .error fault) :
    Refuses (.file path parser obstacle t) (.unreadable path (.encoding fault))

theorem complete_of_decode {d : Json} {g : Graph} (h : Definition.decode d = .ok g) :
    Complete d g := by
  obtain ⟨entries, items, connections, -, hentries, hnodes, hitems, hconnections, hedges,
    hinitializers⟩ := Definition.decode_eq_ok h
  refine ⟨?_, ?_⟩
  · rw [hentries]
    exact Definition.ids_of_readNode hnodes
  · rw [hedges, hinitializers, hitems, Program.length_edge_add_length_initial]
    exact hconnections.length_eq.symm

theorem Builds.of_gives {d : Json} {g : Graph} (hd : s.Gives d)
    (h : Definition.decode d = .ok g) : s.Builds g :=
  ⟨d, hd, h, complete_of_decode h⟩

/-! What loading does with each answer. -/

theorem load_file (path : Files.Path) (parser : Option Parser)
    (obstacle : Files.Operation → Option Files.Fault) (t : Files.Tree)
    (receiver : Option (Receiver ε)) : (Source.file path parser obstacle t).load receiver =
      loadContent path (answer path obstacle t) receiver parser := by
  have hrun := Files.Disk.runAgainst_bind obstacle (Files.Disk.read path)
    (fun content => .done (loadContent path content receiver parser)) t
  exact congrArg Prod.fst hrun

theorem load_file_of_text {path : Files.Path} {parser : Option Parser}
    {obstacle : Files.Operation → Option Files.Fault} {t : Files.Tree} {text : List Char}
    (h : HoldsText path obstacle t text) (receiver : Option (Receiver ε)) :
    (Source.file path parser obstacle t).load receiver =
      loadText path text receiver parser := by
  obtain ⟨bytes, chars, hanswer, hdecode, rfl⟩ := h
  rw [load_file, hanswer, loadContent, hdecode]

/-- A definition that is given is decoded, whatever the source that gives it. -/
theorem load_of_gives {d : Json} (h : s.Gives d) (receiver : Option (Receiver ε)) :
    s.load receiver = loadDefinition d receiver := by
  induction h with
  | definition d => rfl
  | program h => simp only [load, loadProgram, definitionOfText, h]
  | parsed h => simp only [load, loadProgram, definitionOfText, h]
  | programFile ht hs h ih =>
    rw [load_file_of_text ht, loadText, if_pos hs]
    exact ih
  | jsonFile ht hs h => rw [load_file_of_text ht, loadText, if_neg hs, h]

theorem load_of_builds {g : Graph} (h : s.Builds g) (receiver : Option (Receiver ε)) :
    s.load receiver = deliver g receiver := by
  obtain ⟨d, hd, hdecode, -⟩ := h
  rw [load_of_gives hd, loadDefinition, hdecode]

theorem answer_ne_nul {path : Files.Path} {parser : Option Parser}
    {obstacle : Files.Operation → Option Files.Fault} {t : Files.Tree} {fault : Files.Fault}
    (hs : (Source.file path parser obstacle t).Ordinary)
    (h : answer path obstacle t = .error fault) : fault.reason ≠ .nulCharacter := by
  obtain ⟨hpath, hobstacle⟩ := hs
  cases ho : obstacle (.read path) with
  | some met =>
    have hanswer : answer path obstacle t = .error met := by
      unfold answer Files.Disk.read Files.Disk.runAgainst
      rw [ho]
      rfl
    rw [hanswer] at h
    exact Except.error.inj h ▸ hobstacle _ met ho
  | none =>
    have hanswer : answer path obstacle t = t.read path := by
      unfold answer Files.Disk.read Files.Disk.runAgainst
      rw [ho]
      rfl
    rw [hanswer] at h
    exact Files.Tree.read_ne_nul hpath h

theorem load_of_refuses (hs : s.Ordinary) {complaint : Complaint} (h : s.Refuses complaint)
    (receiver : Option (Receiver ε)) : s.load receiver = failed complaint.error := by
  induction h with
  | definition hd h => rw [load_of_gives hd, loadDefinition, h, Complaint.error]
  | program h => simp only [load, loadProgram, definitionOfText, h, Complaint.error]
  | parser h => simp only [load, loadProgram, definitionOfText, h, Complaint.error]
  | programFile ht hsuffix h ih =>
    rw [load_file_of_text ht, loadText, if_pos hsuffix]
    exact ih trivial
  | jsonFile ht hsuffix h =>
    rw [load_file_of_text ht, loadText, if_neg hsuffix, h]
    rfl
  | unreadable h =>
    rw [load_file, h, loadContent, if_neg (answer_ne_nul hs h)]
    rfl
  | notUtf8 h hd =>
    rw [load_file, h, loadContent, hd]
    rfl

/-! One of the two happens. -/

theorem builds_or_refuses_of_gives {d : Json} (h : s.Gives d) :
    (∃ g, s.Builds g) ∨ ∃ cause, s.Refuses (.malformed cause) := by
  cases hdecode : Definition.decode d with
  | ok g => exact .inl ⟨g, .of_gives h hdecode⟩
  | error fault => exact .inr ⟨_, .definition h hdecode⟩

theorem program_builds_or_refuses (text : String) (parser : Option Parser) :
    (∃ g, (Source.program text parser).Builds g) ∨
      ∃ cause, (Source.program text parser).Refuses (.malformed cause) := by
  cases parser with
  | none =>
    cases hparse : Program.parse text with
    | ok p => exact builds_or_refuses_of_gives (.program hparse)
    | error e => exact .inr ⟨_, .program hparse⟩
  | some parser =>
    cases hparse : parser text with
    | ok d => exact builds_or_refuses_of_gives (.parsed hparse)
    | error failure => exact .inr ⟨_, .parser hparse⟩

theorem file_builds_or_refuses (path : Files.Path) (parser : Option Parser)
    (obstacle : Files.Operation → Option Files.Fault) (t : Files.Tree) :
    (∃ g, (Source.file path parser obstacle t).Builds g) ∨
      ∃ complaint, (Source.file path parser obstacle t).Refuses complaint := by
  cases hanswer : answer path obstacle t with
  | error fault => exact .inr ⟨_, .unreadable hanswer⟩
  | ok bytes =>
    cases hdecode : Text.Utf8.decode bytes with
    | error fault => exact .inr ⟨_, .notUtf8 hanswer hdecode⟩
    | ok chars =>
      have htext : HoldsText path obstacle t (Text.unifyNewlines chars) :=
        ⟨bytes, chars, hanswer, hdecode, rfl⟩
      by_cases hsuffix : path.suffix = programSuffix
      · rcases program_builds_or_refuses (String.ofList (Text.unifyNewlines chars)) parser with
          ⟨g, d, hd, hdecode, hcomplete⟩ | ⟨cause, hcause⟩
        · exact .inl ⟨g, d, .programFile htext hsuffix hd, hdecode, hcomplete⟩
        · exact .inr ⟨_, .programFile htext hsuffix hcause⟩
      · cases hread : Json.readAll (Text.unifyNewlines chars) with
        | error e => exact .inr ⟨_, .jsonFile htext hsuffix hread⟩
        | ok d =>
          have hd : (Source.file path parser obstacle t).Gives d := .jsonFile htext hsuffix hread
          exact (builds_or_refuses_of_gives hd).imp_right fun ⟨cause, h⟩ => ⟨_, h⟩

theorem builds_or_refuses (s : Source) : (∃ g, s.Builds g) ∨ ∃ complaint, s.Refuses complaint := by
  cases s with
  | definition d =>
    exact (builds_or_refuses_of_gives (.definition d)).imp_right fun ⟨cause, h⟩ => ⟨_, h⟩
  | program text parser =>
    exact (program_builds_or_refuses text parser).imp_right fun ⟨cause, h⟩ => ⟨_, h⟩
  | file path parser obstacle t => exact file_builds_or_refuses path parser obstacle t

end Source

variable {ε : Type}

theorem received_deliver (g : Graph) (receiver : Option (Receiver ε)) :
    (deliver g receiver).received = receiver.toList.map fun _ => g := by
  cases receiver with
  | none => rfl
  | some r => cases h : r g <;> simp [deliver, h]

theorem result_deliver (g : Graph) (receiver : Option (Receiver ε)) :
    (deliver g receiver).result = match receiver.bind (· g) with
      | none => .ok g
      | some error => .error (.receiver error) := by
  cases receiver with
  | none => rfl
  | some r => cases h : r g <;> simp [deliver, h]

/-- The text of what the parser itself raised. -/
def ParserFailure.ownMessage : ParserFailure → String
  | .broken message => message
  | failure => failure.message

def ParserFailure.isBroken : ParserFailure → Bool
  | .broken _ => true
  | _ => false

theorem message_parser_eq (failure : ParserFailure) :
    (Malformed.parser failure).message =
      if failure.isBroken then "FBP parser failed: " ++ failure.ownMessage
      else failure.ownMessage := by
  cases failure with
  | malformed message => simp [ParserFailure.isBroken, ParserFailure.ownMessage, Malformed.message]
  | badLine message line =>
    simp [ParserFailure.isBroken, ParserFailure.ownMessage, Malformed.message]
  | broken message =>
    have hmessage : (ParserFailure.broken message).message = "FBP parser failed: " ++ message := by
      unfold ParserFailure.message
      rfl
    simp [ParserFailure.isBroken, ParserFailure.ownMessage, Malformed.message, hmessage]

/-- A file with the line ends of another system, for a parser of its own. -/
def foreignFile : Source :=
  .file (Files.Path.ofString "in.fbp")
    (some fun text =>
      if text = "x\n" then .ok (.object [
        ("processes", .object [("A", .object [("component", .string "X")])]),
        ("connections", .array [.object [("data", .int 1),
          ("tgt", .object [("process", .string "A"), ("port", .string "IN")])]])])
      else .error (.broken text))
    (fun _ => none)
    { home := ["work"], entries := [(["work", "in.fbp"], .file [120, 13, 10])] }

def foreignGraph : Graph where
  nodes := [⟨"A", .string "X", .null⟩]
  initializers := [⟨.int 1, ⟨"A", "in"⟩⟩]

end FlowGraph
