import FlowGraph.Proofs.Dot.Containment
import FlowGraph.Proofs.Dot.Words

/-! Drawings all of whose names are plain: letters and digits, a letter first. Their statements have
no other words in them, and few other characters. -/

namespace FlowGraph.Dot

open FlowGraph.Dot.Language

variable {g : Graph} {s : List Char} {c : Char}

theorem mem_of_mem_escapeQuotes {odd : Bool} (h : c ∈ escapeQuotes odd s) :
    c ∈ s ∨ c = '"' ∨ c = '\\' := by
  fun_induction escapeQuotes odd s with
  | case1 => cases h
  | case2 odd rest ih =>
    rcases List.mem_append.mp h with h | h
    · cases odd with
      | true => exact .inr (.inl (List.mem_singleton.mp h))
      | false => exact .inr (by simpa [or_comm] using h)
    · exact (ih h).imp_left (List.mem_cons_of_mem _)
  | case3 odd rest ih =>
    rcases List.mem_cons.mp h with rfl | h
    · exact .inr (.inr rfl)
    · exact (ih h).imp_left (List.mem_cons_of_mem _)
  | case4 odd d rest hquote hslash ih =>
    rcases List.mem_cons.mp h with rfl | h
    · exact .inl List.mem_cons_self
    · exact (ih h).imp_left (List.mem_cons_of_mem _)

theorem mem_of_mem_identifier (h : c ∈ identifier s) : c ∈ s ∨ c = '"' ∨ c = '\\' := by
  unfold identifier at h
  split at h
  · exact .inl h
  · rcases List.mem_append.mp h with h | h
    · rcases List.mem_cons.mp h with rfl | h
      · exact .inr (.inl rfl)
      · exact mem_of_mem_escapeQuotes h
    · exact .inr (.inl (List.mem_singleton.mp h))

theorem not_mem_of_isPlainName (hs : isPlainName s = true) (hletter : isLetter c = false)
    (hdigit : Text.isDigit c = false) : c ∉ s := by
  intro hc
  cases s with
  | nil => cases hs
  | cons d s =>
    simp only [isPlainName, Bool.and_eq_true, List.all_eq_true, Bool.or_eq_true] at hs
    rcases List.mem_cons.mp hc with rfl | hc
    · exact Bool.false_ne_true (hletter.symm.trans hs.1)
    · rcases hs.2 c hc with h | h
      · exact Bool.false_ne_true (hletter.symm.trans h)
      · exact Bool.false_ne_true (hdigit.symm.trans h)

theorem readsName_of_isPlainName (hs : isPlainName s = true) : ReadsName s (.text s) :=
  have hnot {c : Char} := @not_mem_of_isPlainName s c hs
  (plain_of_not_mem (hnot (by decide) (by decide)) (hnot (by decide) (by decide))).readsName
    (hnot (by decide) (by decide))

theorem isPlainName_drawnData (index : Nat) : isPlainName (drawnData index) = true := by
  have hdigits : ∀ d ∈ (toString index).toList, Text.isDigit d = true := by
    intro d hd
    exact Text.isDigit_of_mem_decimalDigits (n := index) (by simpa [Text.decimalDigits] using hd)
  have hletters : "ata".toList.all (fun d => isLetter d || Text.isDigit d) = true := by decide
  have hfirst : isLetter 'd' = true := by decide
  have htext : drawnData index = 'd' :: ("ata".toList ++ (toString index).toList) := rfl
  rw [htext, isPlainName, hfirst, Bool.true_and, List.all_append, hletters, Bool.true_and,
    List.all_eq_true]
  exact fun d hd => by simp [hdigits d hd]

/-! What stands in a document where all names are plain. -/

def Statement.names : Statement → List String
  | .node id => [id]
  | .edge tail head label => [tail, head, label]

def layout : List Char :=
  "\t [shape=box] -> [label=]\n\x7d".toList

theorem mem_statement_text {st : Statement} (h : c ∈ st.text) :
    c ∈ layout ∨ ∃ name ∈ st.names, c ∈ identifier name.toList := by
  have htab : '\t' ∈ layout := by decide
  have hbox : " [shape=box]\n".toList ⊆ layout := by decide
  have harrow : " -> ".toList ⊆ layout := by decide
  have hlabel : " [label=".toList ⊆ layout := by decide
  have hclose : "]\n".toList ⊆ layout := by decide
  cases st with
  | node id =>
    simp only [Statement.text, List.mem_append, List.mem_cons] at h
    rcases h with (rfl | h) | h
    · exact .inl htab
    · exact .inr ⟨id, by simp [Statement.names], h⟩
    · exact .inl (hbox h)
  | edge tail head label =>
    simp only [Statement.text, List.mem_append, List.mem_cons] at h
    rcases h with (((((rfl | h) | h) | h) | h) | h) | h
    · exact .inl htab
    · exact .inr ⟨tail, by simp [Statement.names], h⟩
    · exact .inl (harrow h)
    · exact .inr ⟨head, by simp [Statement.names], h⟩
    · exact .inl (hlabel h)
    · exact .inr ⟨label, by simp [Statement.names], h⟩
    · exact .inl (hclose h)

/-- The texts that the graph gives are plain names. -/
def PlainlyDrawn (g : Graph) : Prop :=
  ∀ s ∈ drawnTexts g, isPlainName s = true

instance : DecidablePred PlainlyDrawn := fun g =>
  inferInstanceAs (Decidable (∀ s ∈ drawnTexts g, isPlainName s = true))

theorem PlainlyDrawn.names (h : PlainlyDrawn g) :
    ∀ st ∈ statements g, ∀ name ∈ st.names, isPlainName name.toList = true := by
  simp only [PlainlyDrawn, drawnTexts, ids, labels, List.forall_mem_append, List.forall_mem_map,
    List.forall_mem_flatMap, List.forall_mem_cons] at h
  obtain ⟨⟨⟨hnodes, htargets⟩, hends⟩, hentered, hleft⟩ := h
  have hdata (index : Nat) : isPlainName (dataNode index).toList = true := by
    rw [toList_dataNode]
    exact isPlainName_drawnData index
  simp only [statements, List.forall_mem_append, List.forall_mem_map, List.mapIdx_eq_zipIdx_map]
  refine ⟨⟨fun n hn => ?_, fun i hi => ?_⟩, fun e he => ?_⟩
  · simpa [Statement.names, toList_nodeId] using hnodes n hn
  · have hmem := List.fst_mem_of_mem_zipIdx hi
    simpa [ofInitializer, Statement.names, toList_nodeId, toList_portLabel, hdata] using
      ⟨htargets i.1 hmem, hentered i.1 hmem⟩
  · simpa [ofEdge, Statement.names, toList_nodeId, toList_portLabel] using
      ⟨(hends e he).1, (hends e he).2.1, hleft e he⟩

theorem PlainlyDrawn.not_mem_text (h : PlainlyDrawn g) (hletter : isLetter c = false)
    (hdigit : Text.isDigit c = false) (hlayout : c ∉ '"' :: '\\' :: layout) {st : Statement}
    (hst : st ∈ statements g) : c ∉ st.text := by
  simp only [List.mem_cons, not_or] at hlayout
  intro hc
  rcases mem_statement_text hc with hc | ⟨name, hname, hc⟩
  · exact hlayout.2.2 hc
  rcases mem_of_mem_identifier hc with hc | hc | hc
  · exact not_mem_of_isPlainName (h.names st hst name hname) hletter hdigit hc
  · exact hlayout.1 hc
  · exact hlayout.2.1 hc

def Statement.item : Statement → Item
  | .node id => nodeItem (.text id.toList)
  | .edge tail head label => edgeItem (.text tail.toList) (.text head.toList) (.text label.toList)

theorem items_eq_map (g : Graph) : items .text g = (statements g).map Statement.item := by
  simp only [items, statements, List.map_append, List.map_map, List.mapIdx_eq_zipIdx_map]
  refine congrArg₂ (· ++ ·) (congrArg₂ (· ++ ·) ?_ ?_) ?_
  · exact List.map_congr_left fun n _ => by simp [Statement.item, toList_nodeId]
  · exact List.map_congr_left fun i _ => by
      simp [Statement.item, ofInitializer, toList_nodeId, toList_dataNode, toList_portLabel]
  · exact List.map_congr_left fun e _ => by
      simp [Statement.item, ofEdge, toList_nodeId, toList_portLabel]

theorem PlainlyDrawn.words (h : PlainlyDrawn g) :
    ∀ w ∈ (items .text g).flatMap Item.words, ∃ s, w = .id (.text s) ∧ isPlainName s = true := by
  have hword {s : List Char} (hs : isPlainName s = true) :
      ∃ t, Token.id (.text s) = .id (.text t) ∧ isPlainName t = true :=
    ⟨s, rfl, hs⟩
  have hshape : isPlainName "shape".toList = true := by decide
  have hbox : isPlainName "box".toList = true := by decide
  have hlabel : isPlainName "label".toList = true := by decide
  rw [items_eq_map]
  simp only [List.flatMap_map, List.forall_mem_flatMap]
  intro st hst
  have hnames := h.names st hst
  cases st with
  | node id =>
    have hwords : (Statement.node id).item.words =
        [.id (.text id.toList), .id shape, .id box] := rfl
    simp only [Statement.names, List.forall_mem_singleton] at hnames
    simp only [hwords, List.forall_mem_cons]
    exact ⟨hword hnames, hword hshape, hword hbox, by simp⟩
  | edge tail head name =>
    have hwords : (Statement.edge tail head name).item.words =
        [.id (.text tail.toList), .id (.text head.toList), .id label,
          .id (.text name.toList)] := rfl
    simp only [Statement.names, List.forall_mem_cons] at hnames
    obtain ⟨htail, hhead, hname, -⟩ := hnames
    simp only [hwords, List.forall_mem_cons]
    exact ⟨hword htail, hword hhead, hword hlabel, hword hname, by simp⟩

theorem PlainlyDrawn.name_of_mem (h : PlainlyDrawn g) {fuel : Nat} {body : List Token}
    (hbody : statementsFor fuel body = some (items .text g)) {t : Token} (ht : t ∈ body)
    (hword : t.isWord = true) : ∃ s, t = .id (.text s) ∧ isPlainName s = true := by
  have hmem : t ∈ wordsOf body := List.mem_filter.mpr ⟨ht, hword⟩
  rw [words_statementsFor hbody] at hmem
  exact h.words t hmem

end FlowGraph.Dot
