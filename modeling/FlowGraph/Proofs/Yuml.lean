import FlowGraph.Proofs.Program.Names
import FlowGraph.Yuml
import Mathlib.Data.List.Basic

/-! What a diagram tells of its graph. A name may hold anything but the mark that closes it, so the
arrows are read off the text one by one, and those of the packets are known by their source. -/

namespace FlowGraph.Yuml

variable {g h : Graph}

def startId : String := "start"

/-- An arrow of a diagram: the id it comes from, its label, and the id it goes to. -/
structure Drawn where
  source : String
  label : String
  target : String
  deriving DecidableEq, Repr

namespace Drawn

def ofInitializer (i : Initializer) : Drawn :=
  ⟨startId, i.target.port, i.target.node⟩

def ofEdge (e : Edge) : Drawn :=
  ⟨e.source.node, e.source.port, e.target.node⟩

def text (a : Drawn) : List Char :=
  '(' :: (a.source.toList ++ ')' :: '[' :: (a.label.toList ++
    ']' :: '-' :: '>' :: '(' :: (a.target.toList ++ ')' :: [])))

/-- No name in the arrow holds the mark that closes it. -/
structure Closes (a : Drawn) : Prop where
  source : ')' ∉ a.source.toList
  label : ']' ∉ a.label.toList
  target : ')' ∉ a.target.toList

end Drawn

def drawn (g : Graph) : List Drawn :=
  g.initializers.map .ofInitializer ++ g.edges.map .ofEdge

/-! Texts of arrows. -/

theorem toList_arrow (a : Drawn) : (arrow a.source a.label a.target).toList = a.text := by
  simp [arrow, toString, Drawn.text]

theorem toList_document (g : Graph) :
    (document g).toList = [','].intercalate ((drawn g).map Drawn.text) := by
  have hcomma : ",".toList = [','] := rfl
  have harrows : arrows g = (drawn g).map fun a => arrow a.source a.label a.target := by
    rw [drawn, List.map_append, List.map_map, List.map_map]
    rfl
  rw [document, String.toList_intercalate, hcomma, harrows, List.map_map]
  exact congrArg _ (List.map_congr_left fun a _ => toList_arrow a)

/-- The first of these marks ends the text before it. -/
theorem append_mark_inj {c : Char} {s t s' t' : List Char} (hs : c ∉ s) (ht : c ∉ t)
    (h : s ++ c :: s' = t ++ c :: t') : s = t ∧ s' = t' := by
  induction s generalizing t with
  | nil =>
    cases t with
    | nil => exact ⟨rfl, (List.cons.inj h).2⟩
    | cons d t => exact absurd ((List.cons.inj h).1 ▸ List.mem_cons_self) ht
  | cons d s ih =>
    cases t with
    | nil => exact absurd ((List.cons.inj h).1 ▸ List.mem_cons_self) hs
    | cons d' t =>
      obtain ⟨rfl, hrest⟩ := List.cons.inj h
      obtain ⟨rfl, hafter⟩ :=
        ih (fun hc => hs (.tail _ hc)) (fun hc => ht (.tail _ hc)) hrest
      exact ⟨rfl, hafter⟩

theorem Drawn.text_append_inj {a b : Drawn} (ha : a.Closes) (hb : b.Closes) {s t : List Char}
    (h : a.text ++ s = b.text ++ t) : a = b ∧ s = t := by
  simp only [text, List.cons_append, List.append_assoc, List.nil_append] at h
  obtain ⟨hsource, h⟩ := append_mark_inj ha.source hb.source (List.cons.inj h).2
  obtain ⟨hlabel, h⟩ := append_mark_inj ha.label hb.label (List.cons.inj h).2
  simp only [List.cons.injEq, true_and] at h
  obtain ⟨htarget, h⟩ := append_mark_inj ha.target hb.target h
  cases a
  cases b
  simp_all [String.toList_inj]

theorem intercalate_cons (sep s : List Char) (rest : List (List Char)) :
    sep.intercalate (s :: rest) = s ++ rest.flatMap (sep ++ ·) := by
  induction rest generalizing s with
  | nil => simp
  | cons t rest ih => rw [List.intercalate_cons_cons, ih, List.flatMap_cons, List.append_assoc,
      List.append_assoc]

theorem flatMap_text_inj {as bs : List Drawn} (ha : ∀ a ∈ as, a.Closes) (hb : ∀ b ∈ bs, b.Closes)
    (h : as.flatMap (fun a => ',' :: a.text) = bs.flatMap fun b => ',' :: b.text) : as = bs := by
  induction as generalizing bs with
  | nil =>
    cases bs with
    | nil => rfl
    | cons b bs => cases h
  | cons a as ih =>
    cases bs with
    | nil => cases h
    | cons b bs =>
      rw [List.forall_mem_cons] at ha hb
      simp only [List.flatMap_cons, List.cons_append, List.cons.injEq, true_and] at h
      obtain ⟨rfl, hrest⟩ := Drawn.text_append_inj ha.1 hb.1 h
      rw [ih ha.2 hb.2 hrest]

theorem intercalate_text_inj {as bs : List Drawn} (ha : ∀ a ∈ as, a.Closes)
    (hb : ∀ b ∈ bs, b.Closes)
    (h : [','].intercalate (as.map Drawn.text) = [','].intercalate (bs.map Drawn.text)) :
    as = bs := by
  cases as with
  | nil =>
    cases bs with
    | nil => rfl
    | cons b bs =>
      rw [List.map_cons, intercalate_cons] at h
      cases h
  | cons a as =>
    cases bs with
    | nil =>
      rw [List.map_cons, intercalate_cons] at h
      cases h
    | cons b bs =>
      rw [List.forall_mem_cons] at ha hb
      simp only [List.map_cons, intercalate_cons, List.flatMap_map] at h
      obtain ⟨rfl, hrest⟩ := Drawn.text_append_inj ha.1 hb.1 h
      rw [flatMap_text_inj ha.2 hb.2 hrest]

/-! Graphs whose diagrams can be read. -/

def PortCloses (p : Endpoint) : Prop :=
  ')' ∉ p.node.toList ∧ ']' ∉ p.port.toList

instance : DecidablePred PortCloses := fun p =>
  inferInstanceAs (Decidable (')' ∉ p.node.toList ∧ ']' ∉ p.port.toList))

/-- The names that are drawn do not hold the mark that closes them, and no edge comes from an id
that is taken for the start. -/
structure Legible (g : Graph) : Prop where
  entered : ∀ i ∈ g.initializers, PortCloses i.target
  left : ∀ e ∈ g.edges, PortCloses e.source
  reached : ∀ e ∈ g.edges, ')' ∉ e.target.node.toList
  started : ∀ e ∈ g.edges, e.source.node ≠ startId

theorem Legible.closes (hg : Legible g) : ∀ a ∈ drawn g, a.Closes := by
  have hstart : ')' ∉ startId.toList := by decide
  rw [drawn, List.forall_mem_append, List.forall_mem_map, List.forall_mem_map]
  exact ⟨fun i hi => ⟨hstart, (hg.entered i hi).2, (hg.entered i hi).1⟩,
    fun e he => ⟨(hg.left e he).1, (hg.left e he).2, hg.reached e he⟩⟩

/-- The arrows from the start are those of the packets. -/
theorem Legible.filter_drawn (hg : Legible g) :
    (drawn g).filter (·.source == startId) = g.initializers.map .ofInitializer ∧
      (drawn g).filter (·.source != startId) = g.edges.map .ofEdge := by
  have hinitializers : ∀ i ∈ g.initializers, (Drawn.ofInitializer i).source = startId :=
    fun _ _ => rfl
  have hedges : ∀ e ∈ g.edges, (Drawn.ofEdge e).source ≠ startId := hg.started
  rw [← List.forall_mem_map (f := Drawn.ofInitializer) (P := (·.source = startId))]
    at hinitializers
  rw [← List.forall_mem_map (f := Drawn.ofEdge) (P := (·.source ≠ startId))] at hedges
  constructor
  · rw [drawn, List.filter_append, List.filter_eq_self.mpr (by simpa using hinitializers),
      List.filter_eq_nil_iff.mpr (by simpa using hedges), List.append_nil]
  · rw [drawn, List.filter_append, List.filter_eq_nil_iff.mpr (by simpa using hinitializers),
      List.filter_eq_self.mpr (by simpa using hedges), List.nil_append]

/-- What is to be drawn: where the packets go, and from which port to which process the edges
lead. -/
structure SameDrawing (g h : Graph) : Prop where
  packets : g.initializers.map (·.target) = h.initializers.map (·.target)
  edges : g.edges.map (fun e => (e.source, e.target.node)) =
    h.edges.map fun e => (e.source, e.target.node)

theorem drawn_eq_of_sameDrawing (hsame : SameDrawing g h) : drawn g = drawn h := by
  have hpackets := congrArg (List.map fun p : Endpoint => (⟨startId, p.port, p.node⟩ : Drawn))
    hsame.packets
  have hedges := congrArg
    (List.map fun (p, target) => (⟨p.node, p.port, target⟩ : Drawn)) hsame.edges
  rw [List.map_map, List.map_map] at hpackets hedges
  exact congrArg₂ (· ++ ·) hpackets hedges

theorem sameDrawing_of_drawn_eq (hg : Legible g) (hh : Legible h) (heq : drawn g = drawn h) :
    SameDrawing g h := by
  obtain ⟨hpackets, hedges⟩ := hg.filter_drawn
  rw [heq] at hpackets hedges
  have htargets := congrArg (List.map fun a : Drawn => (⟨a.target, a.label⟩ : Endpoint))
    (hpackets.symm.trans hh.filter_drawn.1)
  have hlinks := congrArg
    (List.map fun a : Drawn => ((⟨a.source, a.label⟩ : Endpoint), a.target))
    (hedges.symm.trans hh.filter_drawn.2)
  rw [List.map_map, List.map_map] at htargets hlinks
  exact ⟨htargets, hlinks⟩

theorem legible_of_loadProgram {ε : Type} {text : String} {receiver : Option (Receiver ε)}
    (hload : (loadProgram text receiver none).result = .ok g)
    (hstart : ∀ e ∈ g.edges, e.source.node ≠ startId) : Legible g := by
  have hround : Program.Foreign ')' := by decide
  have hsquare : Program.Foreign ']' := by decide
  obtain ⟨-, hnamed⟩ := named_of_loadProgram hload
  constructor
  · intro i hi
    obtain ⟨i', ⟨hnode, hport⟩, rfl⟩ := hnamed.initializers i hi
    exact ⟨hnode.not_mem hround, hport.not_mem_lowercase hsquare⟩
  · intro e he
    obtain ⟨e', ⟨⟨hnode, hport⟩, -⟩, rfl⟩ := hnamed.edges e he
    exact ⟨hnode.not_mem hround, hport.not_mem_lowercase hsquare⟩
  · intro e he
    obtain ⟨e', ⟨-, hnode, -⟩, rfl⟩ := hnamed.edges e he
    exact hnode.not_mem hround
  · exact hstart

/-- Of two graphs whose diagrams can be read the texts are the same just if the drawings are; and
so it is with all programs that have no edge from the start. -/
theorem same_document_iff {ε : Type} :
    (∀ g h, Legible g → Legible h → (document g = document h ↔ SameDrawing g h)) ∧
    ∀ (text : String) (receiver : Option (Receiver ε)) (g : Graph),
      (loadProgram text receiver none).result = .ok g →
        (∀ e ∈ g.edges, e.source.node ≠ startId) → Legible g := by
  refine ⟨fun g h hg hh => ⟨fun heq => ?_, fun hsame => ?_⟩, fun _ _ _ => legible_of_loadProgram⟩
  · have htext := congrArg String.toList heq
    rw [toList_document, toList_document] at htext
    exact sameDrawing_of_drawn_eq hg hh (intercalate_text_inj hg.closes hh.closes htext)
  · rw [← String.toList_inj, toList_document, toList_document, drawn_eq_of_sameDrawing hsame]

/-- The names are made of what stands between other names. -/
def joinedDiagram : Graph where
  edges := [⟨⟨"A", ","⟩, ⟨",(B", "in"⟩⟩, ⟨⟨"", "->"⟩, ⟨" ", "in"⟩⟩]
  initializers := [⟨.int 1, ⟨"start", "[->(A"⟩⟩]

/-- A comma stands in another name. -/
def splitDiagram : Graph where
  edges := [⟨⟨"A", ",,"⟩, ⟨"(B", "in"⟩⟩, ⟨⟨"", "->"⟩, ⟨" ", "in"⟩⟩]
  initializers := [⟨.int 1, ⟨"start", "[->(A"⟩⟩]

/-- Only the components, the packets and the ports that edges go to are others. -/
def relabeledDiagram : Graph where
  nodes := [⟨"A", .string "x", .null⟩]
  edges := [⟨⟨"A", ","⟩, ⟨",(B", "out"⟩⟩, ⟨⟨"", "->"⟩, ⟨" ", "out"⟩⟩]
  initializers := [⟨.null, ⟨"start", "[->(A"⟩⟩]

def relayText : String :=
  "'x' -> IN Start(Relay) OUT -> IN-1 B.c"

def relayGraph : Graph where
  name := "main"
  nodes := [⟨"Start", .string "Relay", .null⟩]
  edges := [⟨⟨"Start", "out"⟩, ⟨"B.c", "in-1"⟩⟩]
  initializers := [⟨.string "x", ⟨"Start", "in"⟩⟩]

theorem joinedDiagram_told_apart : Legible joinedDiagram ∧ Legible splitDiagram ∧
    Legible relabeledDiagram ∧ document joinedDiagram ≠ document splitDiagram ∧
    document joinedDiagram = document relabeledDiagram ∧
    (loadProgram relayText none none : Loading Empty).result = .ok relayGraph ∧
    (∀ e ∈ relayGraph.edges, e.source.node ≠ startId) ∧ Legible relayGraph := by
  have hjoined : Legible joinedDiagram := ⟨by decide, by decide, by decide, by decide⟩
  have hsplit : Legible splitDiagram := ⟨by decide, by decide, by decide, by decide⟩
  have hrelabeled : Legible relabeledDiagram := ⟨by decide, by decide, by decide, by decide⟩
  have hload : (loadProgram relayText none none : Loading Empty).result = .ok relayGraph := rfl
  have hstart : ∀ e ∈ relayGraph.edges, e.source.node ≠ startId := by decide
  obtain ⟨hsame, hloaded⟩ := same_document_iff (ε := Empty)
  refine ⟨hjoined, hsplit, hrelabeled, fun heq => ?_, ?_, hload, hstart,
    hloaded relayText none relayGraph hload hstart⟩
  · have hedges := ((hsame _ _ hjoined hsplit).mp heq).edges
    exact absurd hedges (by decide)
  · exact (hsame _ _ hjoined hrelabeled).mpr ⟨rfl, rfl⟩

end FlowGraph.Yuml
