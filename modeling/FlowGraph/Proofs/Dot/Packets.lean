import FlowGraph.Proofs.Dot.Containment
import FlowGraph.Proofs.Dot.PlainNames

/-! The nodes that initial packets come from. They are told apart from each other, and from all
others but the ones whose id, without its white space, is the name of a packet's node. -/

namespace FlowGraph.Dot

open FlowGraph.Dot.Language

variable {g : Graph} {s t rest : List Char} {c : Char}

/-- Both texts are read as one name, and so there is one node for them. -/
def SameName (s t : List Char) : Prop :=
  ∃ i, ReadsName s i ∧ ReadsName t i

theorem ReadsName.unique {i j : Id} (hi : ReadsName s i) (hj : ReadsName s j) : i = j := by
  obtain ⟨_, -, hi⟩ := hi
  obtain ⟨_, -, hj⟩ := hj
  have hends : Ends [' '] := ⟨' ', [], rfl, by decide⟩
  have htoken := Option.some.inj ((hi _ hends).symm.trans (hj _ hends))
  exact Token.id.inj (Prod.mk.inj htoken).1

/-! Strings without quotes and backslashes. -/

theorem mem_escapeQuotes (odd : Bool) (h : c ∈ s) : c ∈ escapeQuotes odd s := by
  fun_induction escapeQuotes odd s with
  | case1 => cases h
  | case2 odd rest ih =>
    rcases List.mem_cons.mp h with rfl | h
    · cases odd <;> simp
    · exact List.mem_append_right _ (ih h)
  | case3 odd rest ih =>
    rcases List.mem_cons.mp h with rfl | h
    · exact List.mem_cons_self
    · exact List.mem_cons_of_mem _ (ih h)
  | case4 odd d rest hquote hslash ih =>
    rcases List.mem_cons.mp h with rfl | h
    · exact List.mem_cons_self
    · exact List.mem_cons_of_mem _ (ih h)

/-- Nothing was escaped in a string that is read without quotes and backslashes. -/
theorem eq_of_quotedBody {value : List Char} (h : quotedBody s = some (value, rest))
    (hline : '\n' ∉ s) (hquote : '"' ∉ value) (hslash : '\\' ∉ value) :
    s = value ++ '"' :: rest := by
  fun_induction quotedBody s generalizing value with
  | case1 => cases h
  | case2 after =>
    obtain ⟨rfl, rfl⟩ := Prod.mk.inj (Option.some.inj h)
    rfl
  | case3 after ih =>
    obtain ⟨inner, -, rfl⟩ := exists_of_map_fst _ h
    exact absurd List.mem_cons_self hquote
  | case4 after ih =>
    obtain ⟨inner, -, rfl⟩ := exists_of_map_fst (fun s => '\\' :: '\\' :: s) h
    exact absurd List.mem_cons_self hslash
  | case5 after ih => simp at hline
  | case6 c after hclose hescaped hpair hfeed ih =>
    obtain ⟨inner, hinner, rfl⟩ := exists_of_map_fst _ h
    simp only [List.mem_cons, not_or] at hline hquote hslash
    rw [ih hinner hline.2 hquote.2 hslash.2, List.cons_append]

/-- A text on one line that is read as a name without quotes and backslashes is that name. -/
theorem eq_of_readsName (h : ReadsName s (.text t)) (hline : '\n' ∉ s) (hquote : '"' ∉ t)
    (hslash : '\\' ∉ t) : s = t := by
  have hends : Ends [' '] := ⟨' ', [], rfl, by decide⟩
  have hcore : dropLastNewline s = s := dropLastNewline_of_not_mem hline
  obtain ⟨tail, htail, hread⟩ := h
  have htoken := hread [' '] hends
  by_cases hmarkup : isMarkup s = true
  · obtain ⟨body, hs⟩ := exists_body_of_isMarkup hmarkup
    have hidentifier : identifier s = s := by simp [identifier, hmarkup]
    rw [hidentifier, eq_markup hs, List.cons_append, token?_markup] at htoken
    obtain ⟨_, -, hid⟩ := exists_of_map_fst (fun s => Token.id (.markup s)) htoken
    cases hid
  by_cases hbare : isBare s = true ∧ isKeyword s = false
  · have hidentifier : identifier s = s := by simp [identifier, hbare]
    have hk : ¬ (isPlainName (dropLastNewline s) = true ∧
        isKeyword (dropLastNewline s) = true) := by
      simp [hcore, hbare.2]
    rw [hidentifier, token?_bare hbare.1 hends hk, hcore] at htoken
    have hid := (Prod.mk.inj (Option.some.inj htoken)).1
    exact Id.text.inj (Token.id.inj hid)
  · rw [identifier_quoted hmarkup hbare, List.cons_append, List.append_assoc, token?_string,
      List.singleton_append] at htoken
    obtain ⟨value, hbody, hid⟩ := exists_of_map_fst (fun s => Token.id (.text s)) htoken
    obtain rfl := Id.text.inj (Token.id.inj hid)
    have hwritten : '\n' ∉ escapeQuotes false s ++ '"' :: [' '] := by
      have hescaped : '\n' ∉ escapeQuotes false s := fun h => by
        simpa [hline] using mem_of_mem_escapeQuotes h
      simp [hescaped]
    have hsplit := eq_of_quotedBody hbody hwritten hquote hslash
    -- What the writer escapes leaves a backslash, and none is left.
    have hkept : '\\' ∉ s := by
      intro hmem
      have hright : '\\' ∈ value ++ '"' :: (tail ++ [' ']) :=
        hsplit ▸ List.mem_append_left _ (mem_escapeQuotes false hmem)
      rcases htail with rfl | rfl <;> simp [hslash] at hright
    rw [quotedBody_of_not_mem hkept] at hbody
    exact (Prod.mk.inj (Option.some.inj hbody)).1

/-! Packets. -/

theorem drawnData_injective {m n : Nat} (h : drawnData m = drawnData n) : m = n := by
  have hdigits (n : Nat) : (toString n).toList = Text.decimalDigits n := by
    simp [Text.decimalDigits]
  have hsame := List.append_cancel_left h
  rw [hdigits, hdigits] at hsame
  rw [← Text.decimalValue_decimalDigits m, hsame, Text.decimalValue_decimalDigits]

theorem sameName_drawnData_iff (hline : '\n' ∉ s) (n : Nat) :
    SameName s (drawnData n) ↔ s = drawnData n := by
  have hnot {c : Char} := @not_mem_drawnData c
  constructor
  · rintro ⟨i, hs, hdata⟩
    obtain rfl := (readsName_drawnData n).unique hdata
    exact eq_of_readsName hs hline (hnot (by decide) rfl n) (hnot (by decide) rfl n)
  · rintro rfl
    exact ⟨_, readsName_drawnData n, readsName_drawnData n⟩

theorem nameOf_drawnData (n : Nat) : nameOf (drawnData n) = .text (drawnData n) :=
  (readsName_drawnData n).contained.readsName.unique (readsName_drawnData n)

theorem nameOf_eq_drawnData_iff (h : Contained s) (hline : '\n' ∉ s) (n : Nat) :
    nameOf s = .text (drawnData n) ↔ s = drawnData n := by
  rw [← sameName_drawnData_iff hline]
  constructor
  · intro hname
    exact ⟨_, hname ▸ h.readsName, readsName_drawnData n⟩
  · rintro ⟨i, hs, hdata⟩
    rw [h.readsName.unique hs, hdata.unique (readsName_drawnData n)]

theorem statements_initializer {i : Initializer} {n : Nat} (hi : g.initializers[n]? = some i) :
    (statements g)[g.nodes.length + n]? = some (ofInitializer n i) := by
  have hn : n < g.initializers.length := (List.getElem?_eq_some_iff.mp hi).1
  rw [statements, List.append_assoc, List.getElem?_append_right (by simp), List.length_map,
    Nat.add_sub_cancel_left, List.getElem?_append_left (by simpa using hn), List.getElem?_mapIdx,
    hi]
  rfl

/-- The edge of a packet comes from a node of its own but for the ids that are drawn as that node's
name; whether there are any is not looked at. -/
theorem packet_source_taken_iff (g : Graph) {i : Initializer} {n : Nat}
    (hi : g.initializers[n]? = some i) :
    (statements g)[g.nodes.length + n]? =
      some (.edge (dataNode n) (nodeId i.target.node) (portLabel i.target.port)) ∧
    (∀ m, SameName (drawnData m) (drawnData n) ↔ m = n) ∧
    (∀ id ∈ ids g, SameName (drawnId id) (drawnData n) ↔ nodeId id = dataNode n) ∧
    ('\n' ∉ g.name.toList → (∀ s ∈ drawnTexts g, Contained s) →
      ∃ name : List Char → Id, read (document g).toList = some (items name g) ∧
        (∀ m, name (drawnData m) = name (drawnData n) ↔ m = n) ∧
        ∀ id ∈ ids g, name (drawnId id) = name (drawnData n) ↔ nodeId id = dataNode n) := by
  have hdata (m : Nat) : '\n' ∉ drawnData m := not_mem_drawnData (by decide) rfl m
  have hindex (m : Nat) : drawnData m = drawnData n ↔ m = n :=
    ⟨drawnData_injective, congrArg drawnData⟩
  have hid (id : String) : drawnId id = drawnData n ↔ nodeId id = dataNode n := by
    rw [← toList_nodeId, ← toList_dataNode, String.toList_inj]
  refine ⟨statements_initializer hi, fun m => ?_, fun id _ => ?_, fun hname hcontained => ?_⟩
  · rw [sameName_drawnData_iff (hdata m), hindex]
  · rw [sameName_drawnData_iff (newline_not_mem_drawnId id), hid]
  · refine ⟨nameOf, read_document_of_contained hname hcontained, fun m => ?_, fun id hmem => ?_⟩
    · rw [nameOf_drawnData, nameOf_drawnData, Id.text.injEq, hindex]
    · have hdrawn : drawnId id ∈ drawnTexts g :=
        List.mem_append_left _ (List.mem_map_of_mem hmem)
      rw [nameOf_drawnData,
        nameOf_eq_drawnData_iff (hcontained _ hdrawn) (newline_not_mem_drawnId id), hid]

/-- The second packet has a node that is there already, by its id without the tab, and a neighbour
of the first is not it. -/
def packedGraph : Graph where
  name := "packed"
  nodes := [⟨"data\t1", .string "x", .null⟩, ⟨"Data0", .string "x", .null⟩]
  edges := [⟨⟨"<data0>", "out"⟩, ⟨"data00", "in"⟩⟩]
  initializers := [⟨.int 1, ⟨"Data0", "in"⟩⟩, ⟨.int 2, ⟨"data\t1", "in"⟩⟩]

theorem packedGraph_second_taken : packedGraph.initializers[0]? = some ⟨.int 1, ⟨"Data0", "in"⟩⟩ ∧
    packedGraph.initializers[1]? = some ⟨.int 2, ⟨"data\t1", "in"⟩⟩ ∧
    '\n' ∉ packedGraph.name.toList ∧ (∀ s ∈ drawnTexts packedGraph, Contained s) ∧
    (∀ id ∈ ids packedGraph, ¬ SameName (drawnId id) (drawnData 0)) ∧
    SameName (drawnId "data\t1") (drawnData 1) ∧
    ∃ name : List Char → Id, read (document packedGraph).toList = some (items name packedGraph) ∧
      name (drawnId "data\t1") = name (drawnData 1) := by
  have hfirst : packedGraph.initializers[0]? = some ⟨.int 1, ⟨"Data0", "in"⟩⟩ := rfl
  have hsecond : packedGraph.initializers[1]? = some ⟨.int 2, ⟨"data\t1", "in"⟩⟩ := rfl
  have hline : '\n' ∉ packedGraph.name.toList := by decide
  have hcontained : ∀ s ∈ drawnTexts packedGraph, Contained s := by decide +kernel
  have hothers : ∀ id ∈ ids packedGraph, nodeId id ≠ dataNode 0 := by decide
  have hmem : "data\t1" ∈ ids packedGraph := by decide
  have hsame : nodeId "data\t1" = dataNode 1 := by decide
  obtain ⟨-, -, hfresh, -⟩ := packet_source_taken_iff packedGraph hfirst
  obtain ⟨-, -, htaken, hdocument⟩ := packet_source_taken_iff packedGraph hsecond
  obtain ⟨name, hread, -, hnames⟩ := hdocument hline hcontained
  refine ⟨hfirst, hsecond, hline, hcontained, fun id hid => ?_, (htaken _ hmem).mpr hsame,
    name, hread, (hnames _ hmem).mpr hsame⟩
  rw [hfresh id hid]
  exact hothers id hid

def selfFed : Graph where
  nodes := [⟨"data0", .string "component", .null⟩]
  initializers := [⟨.int 1, ⟨"data0", "in"⟩⟩]

/-- The packet comes from the node that it goes to. -/
theorem packet_source_not_always_fresh : "data0" ∈ ids selfFed ∧
    SameName (drawnId "data0") (drawnData 0) ∧
    read (document selfFed).toList = some [nodeItem (.text "data0".toList),
      edgeItem (.text "data0".toList) (.text "data0".toList) (.text "in".toList)] :=
  ⟨by decide, ⟨_, readsName_drawnData 0, readsName_drawnData 0⟩, by decide⟩

end FlowGraph.Dot
