import FlowGraph.Proofs.Dot.Document

/-! Documents whose ids and ports stay in their tokens. Whatever these are read as, there is one
statement for each node and each connection. A backslash at the end of an id or brackets that do
not pair are enough for it to leave its token. -/

namespace FlowGraph.Dot

namespace Language

def Item.isNode : Item → Bool
  | .node .. => true
  | _ => false

def Item.isEdge : Item → Bool
  | .edge .. => true
  | _ => false

end Language

open FlowGraph.Dot.Language

variable {s : List Char}

/-- What the identifier for a text is read as, if that is a name. -/
def nameOf (s : List Char) : Id :=
  match token? (identifier s ++ [' ']) with
  | some (.id i, _) => i
  | _ => .text s

theorem Contained.readsName (h : Contained s) : ReadsName s (nameOf s) := by
  obtain ⟨i, tail, htail, hread⟩ := token?_identifier h
  have hname : nameOf s = i := by
    rw [nameOf, hread [' '] ⟨' ', [], rfl, by decide⟩]
  rw [hname]
  exact ⟨tail, htail, hread⟩

theorem ReadsName.contained {i : Id} (h : ReadsName s i) : Contained s := by
  obtain ⟨tail, htail, hread⟩ := h
  exact contained_iff_token.mpr ⟨i, tail, htail, hread [' '] ⟨' ', [], rfl, by decide⟩⟩

instance : DecidablePred Contained := fun s =>
  decidable_of_iff
    ((match token? (identifier s ++ [' ']) with
      | some (.id _, after) => decide (after = [' '] ∨ after = ['\n', ' '])
      | _ => false) = true) (by
    rw [contained_iff_token]
    constructor
    · intro h
      split at h
      · next i after hread =>
        rcases of_decide_eq_true h with rfl | rfl
        · exact ⟨i, [], .inl rfl, hread⟩
        · exact ⟨i, ['\n'], .inr rfl, hread⟩
      · cases h
    · rintro ⟨i, tail, rfl | rfl, hread⟩
      · rw [hread]
        rfl
      · rw [hread]
        rfl)

theorem countP_isNode_items (name : List Char → Id) (g : Graph) :
    (items name g).countP Item.isNode = g.nodes.length := by
  simp only [items, List.countP_append, List.mapIdx_eq_zipIdx_map, List.countP_map]
  show g.nodes.countP (fun _ => true) + g.initializers.zipIdx.countP (fun _ => false) +
    g.edges.countP (fun _ => false) = g.nodes.length
  simp

theorem countP_isEdge_items (name : List Char → Id) (g : Graph) :
    (items name g).countP Item.isEdge = g.initializers.length + g.edges.length := by
  simp only [items, List.countP_append, List.mapIdx_eq_zipIdx_map, List.countP_map]
  show g.nodes.countP (fun _ => false) + g.initializers.zipIdx.countP (fun _ => true) +
    g.edges.countP (fun _ => true) = g.initializers.length + g.edges.length
  simp

/-- The texts in a document that its graph gives. -/
def drawnTexts (g : Graph) : List (List Char) :=
  (ids g).map drawnId ++ (labels g).map drawnPort

theorem read_document_of_contained {g : Graph} (hname : '\n' ∉ g.name.toList)
    (h : ∀ s ∈ drawnTexts g, Contained s) : read (document g).toList = some (items nameOf g) := by
  simp only [drawnTexts, List.forall_mem_append, List.forall_mem_map] at h
  refine read_document_of_names hname (fun id hid => ?_) (fun port hport => ?_) fun index => ?_
  · exact (h.1 id hid).readsName
  · exact (h.2 port hport).readsName
  · exact (readsName_drawnData index).contained.readsName

/-- The texts in a document are all read as one name each, up to a last line feed, just if they are
contained. Then there is one node statement for each node and one edge statement for each connection
and nothing else, and every text is read as the same name wherever it stands. -/
theorem contained_document (g : Graph) (hname : '\n' ∉ g.name.toList) :
    ((∀ s ∈ drawnTexts g, ∃ i tail, (tail = [] ∨ tail = ['\n']) ∧
        token? (identifier s ++ [' ']) = some (.id i, tail ++ [' '])) ↔
      ∀ s ∈ drawnTexts g, Contained s) ∧
    ((∀ s ∈ drawnTexts g, Contained s) →
      ∃ name : List Char → Id, read (document g).toList = some (items name g) ∧
        (items name g).length = g.nodes.length + (g.initializers.length + g.edges.length) ∧
        (items name g).countP Item.isNode = g.nodes.length ∧
        (items name g).countP Item.isEdge = g.initializers.length + g.edges.length) := by
  refine ⟨forall₂_congr fun _ _ => contained_iff_token.symm, fun h => ?_⟩
  have hread := read_document_of_contained hname h
  exact ⟨nameOf, hread, by simp [items], countP_isNode_items nameOf g, countP_isEdge_items nameOf g⟩

def lone (id : String) : Graph where
  nodes := [⟨id, .string "component", .null⟩]

/-- A backslash at the end takes its quote away, and markup may end before its last bracket. -/
theorem lone_not_always_contained : read (document (lone "a\\")).toList = none ∧
    read (document (lone "<a>b>")).toList = none ∧
    (read (document (lone "<a>b<c>")).toList).map (·.countP Item.isNode) = some 3 := by
  decide

/-- In turn backslashes that escape each other, a quote that is escaped already, markup in markup, a
numeral with a line feed, and a keyword. -/
def contrivedGraph : Graph where
  name := "contrived"
  nodes := [⟨"a\\\\", .string "x", .null⟩, ⟨"b\\\"", .string "x", .null⟩,
    ⟨"<c<d>>", .string "x", .null⟩]
  edges := [⟨⟨"<c<d>>", "12\n"⟩, ⟨"a\\\\", "in"⟩⟩]
  initializers := [⟨.int 1, ⟨"b\\\"", "node"⟩⟩]

theorem contrivedGraph_contained : (∀ s ∈ drawnTexts contrivedGraph, Contained s) ∧
    ∃ name : List Char → Id,
      read (document contrivedGraph).toList = some (items name contrivedGraph) ∧
      (items name contrivedGraph).length = 5 ∧
      (items name contrivedGraph).countP Item.isNode = 3 ∧
      (items name contrivedGraph).countP Item.isEdge = 2 := by
  have htexts : ∀ s ∈ drawnTexts contrivedGraph, Contained s := by decide
  obtain ⟨-, hdocument⟩ := contained_document contrivedGraph (by decide)
  obtain ⟨name, hread, hlength, hnodes, hedges⟩ := hdocument htexts
  exact ⟨htexts, name, hread, hlength, hnodes, hedges⟩

end FlowGraph.Dot
