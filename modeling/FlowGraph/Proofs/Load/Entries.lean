import FlowGraph.Proofs.Json.Newlines
import FlowGraph.Proofs.Load.Delivery
import FlowGraph.Proofs.Load.FixedPoint
import FlowGraph.Proofs.Text.Utf8

/-! The ways in to a graph in JSON: from a file, from a text, from the value of a text. They lead to
the same graph, or none of them leads to one, whatever ends the lines of the file. -/

namespace FlowGraph

variable {ε : Type} {path : Files.Path} {parser : Option Parser}
  {obstacle : Files.Operation → Option Files.Fault} {t : Files.Tree} {text : String}

theorem result_loadDefinition_iff {d : Json} {g : Graph} :
    (loadDefinition d (none : Option (Receiver ε))).result = .ok g ↔
      Definition.decode d = .ok g := by
  refine ⟨decode_of_loadDefinition, fun h => ?_⟩
  rw [loadDefinition, h]
  rfl

theorem ofJsonText_eq_ok_iff {g : Graph} : ofJsonText text = .ok g ↔
    ∃ d, Json.readAll text.toList = .ok d ∧ Definition.decode d = .ok g := by
  refine ⟨decode_of_ofJsonText, ?_⟩
  rintro ⟨d, hread, hdecode⟩
  rw [ofJsonText, hread]
  simp only [hdecode]
  rfl

theorem holdsText_of_encoded
    (h : Source.answer path obstacle t = .ok (Text.Utf8.encode text.toList)) :
    Source.HoldsText path obstacle t (Text.unifyNewlines text.toList) :=
  ⟨_, _, h, Text.Utf8.decode_encode _, rfl⟩

/-- The value in a file is the value of its text. -/
theorem load_file_of_readAll (hs : path.suffix ≠ programSuffix)
    (h : Source.answer path obstacle t = .ok (Text.Utf8.encode text.toList)) {d : Json}
    (hread : Json.readAll text.toList = .ok d) (receiver : Option (Receiver ε)) :
    (Source.file path parser obstacle t).load receiver = loadDefinition d receiver := by
  have hunified : Json.readAll (Text.unifyNewlines text.toList) = .ok d := by
    rw [Json.readAll_unifyNewlines, hread]
    rfl
  exact Source.load_of_gives (.jsonFile (holdsText_of_encoded h) hs hunified) receiver

theorem load_file_of_readAll_error (hs : path.suffix ≠ programSuffix)
    (h : Source.answer path obstacle t = .ok (Text.Utf8.encode text.toList)) {e : Json.ReadError}
    (hread : Json.readAll text.toList = .error e) (receiver : Option (Receiver ε)) :
    (Source.file path parser obstacle t).load receiver =
      failed (.malformed (.jsonFile path e.unified (Text.unifyNewlines text.toList))) := by
  rw [Source.load_file_of_text (holdsText_of_encoded h), loadText, if_neg hs,
    Json.readAll_unifyNewlines, hread]
  rfl

def brokenLines : String :=
  "\r\n\x7b\"properties\":\r\x7b\"name\": \"a\\r\\nb\"\x7d,\n\r\"processes\": \x7b\x7d\r\n\x7d\r"

def brokenString : String :=
  "\r\n\x7b\"properties\":\r\x7b\"name\": \"a\r\nb\"\x7d,\n\r\"processes\": \x7b\x7d\r\n\x7d\r"

def brokenTree : Files.Tree where
  home := ["work"]
  entries := [(["work", "lines.json"], .file (Text.Utf8.encode brokenLines.toList)),
    (["work", "string"], .file (Text.Utf8.encode brokenString.toList))]

def brokenFile (name : String) : Source :=
  .file (Files.Path.ofString name) none (fun _ => none) brokenTree

end FlowGraph
