import FlowGraph.Live.Script
import Mathlib.Data.List.Nodup

/-! Entities as objects of their own. An elementary change of a live graph adds one entity with a
fresh tag, takes some out, or leaves them as they are. -/

namespace FlowGraph.Live

variable {L : Type}

def Entity.tag : Entity → Nat
  | .node n => n.tag
  | .edge e => e.tag
  | .initializer i => i.tag

def Entity.isNode : Entity → Bool
  | .node _ => true
  | _ => false

def Event.isRemoval : Event → Bool
  | .removeNode => true
  | .removeEdge => true
  | _ => false

/-- What a command adds to a graph. -/
def Command.addition (g : LiveGraph L) : Command L → Option Entity
  | .addNode n => some (.node ⟨g.fresh, n⟩)
  | .addEdge e => some (.edge ⟨g.fresh, e⟩)
  | .addInitial i => some (.initializer ⟨g.fresh, i⟩)
  | _ => none

/-- Nodes, edges and initializers have tags of their own. -/
def Entity.kind : Entity → Fin 3
  | .node _ => 0
  | .edge _ => 1
  | .initializer _ => 2

theorem Entity.is_eq (x y : Entity) :
    x.is y = (decide (x.kind = y.kind) && x.tag == y.tag) := by
  cases x <;> cases y <;> rfl

theorem Entity.is_self (x : Entity) : x.is x = true := by
  rw [Entity.is_eq, decide_eq_true rfl, beq_self_eq_true]
  rfl

theorem Entity.kind_eq_of_is {x y : Entity} (h : x.is y = true) : x.kind = y.kind := by
  rw [Entity.is_eq, Bool.and_eq_true] at h
  exact of_decide_eq_true h.1

theorem Entity.tag_eq_of_is {x y : Entity} (h : x.is y = true) : x.tag = y.tag := by
  rw [Entity.is_eq, Bool.and_eq_true] at h
  exact eq_of_beq h.2

theorem Entity.is_comm (x y : Entity) : x.is y = y.is x := by
  rw [Entity.is_eq, Entity.is_eq, BEq.comm, decide_eq_decide.mpr eq_comm]

theorem Entity.is_trans {x y z : Entity} (hxy : x.is y = true) (hyz : y.is z = true) :
    x.is z = true := by
  rw [Entity.is_eq, Entity.kind_eq_of_is hxy, Entity.tag_eq_of_is hxy, ← Entity.is_eq]
  exact hyz

theorem Entity.isNode_eq_of_is {x y : Entity} (h : x.is y = true) : x.isNode = y.isNode := by
  have hnode (x : Entity) : x.isNode = decide (x.kind = 0) := by cases x <;> rfl
  rw [hnode, hnode, Entity.kind_eq_of_is h]

theorem Entity.among_iff {x : Entity} {xs : List Entity} :
    x.among xs = true ↔ ∃ y ∈ xs, y.is x = true :=
  List.any_eq_true

theorem Entity.among_of_mem {x : Entity} {xs : List Entity} (h : x ∈ xs) : x.among xs = true :=
  Entity.among_iff.mpr ⟨x, h, x.is_self⟩

theorem Entity.among_congr {x y : Entity} (h : x.is y = true) (xs : List Entity) :
    x.among xs = y.among xs := by
  apply Bool.eq_iff_iff.mpr
  rw [Entity.among_iff, Entity.among_iff]
  constructor
  · rintro ⟨z, hz, hzx⟩
    exact ⟨z, hz, Entity.is_trans hzx h⟩
  · rintro ⟨z, hz, hzy⟩
    exact ⟨z, hz, Entity.is_trans hzy (by rw [Entity.is_comm]; exact h)⟩

theorem Entity.among_append (x : Entity) (xs ys : List Entity) :
    x.among (xs ++ ys) = (x.among xs || x.among ys) :=
  List.any_append

end FlowGraph.Live

namespace FlowGraph.LiveGraph

open Live

variable {L : Type} {g g' : LiveGraph L}

theorem mem_entities {x : Entity} : x ∈ g.entities ↔
    ((∃ n ∈ g.nodes, Entity.node n = x) ∨ ∃ e ∈ g.edges, Entity.edge e = x) ∨
      ∃ i ∈ g.initializers, Entity.initializer i = x := by
  rw [← List.mem_map, ← List.mem_map, ← List.mem_map, ← List.mem_append]
  exact List.mem_append

theorem mem_entities_node {n : Tagged Node} : Entity.node n ∈ g.entities ↔ n ∈ g.nodes := by
  simp [mem_entities]

theorem mem_entities_edge {e : Tagged Edge} : Entity.edge e ∈ g.entities ↔ e ∈ g.edges := by
  simp [mem_entities]

theorem mem_entities_initializer {i : Tagged Initializer} :
    Entity.initializer i ∈ g.entities ↔ i ∈ g.initializers := by
  simp [mem_entities]

theorem mem_entities_of_entitiesAt {p : Endpoint} {x : Entity} (h : x ∈ g.entitiesAt p) :
    x ∈ g.entities := by
  simp only [entitiesAt, List.mem_append, List.mem_map] at h
  rcases h with ⟨e, he, rfl⟩ | ⟨i, hi, rfl⟩
  · exact mem_entities_edge.mpr (List.mem_filter.mp he).1
  · exact mem_entities_initializer.mpr (List.mem_filter.mp hi).1

theorem holds_iff {x : Entity} : g.holds x = true ↔ ∃ y ∈ g.entities, y.is x = true :=
  Entity.among_iff

theorem holds_of_mem {x : Entity} (h : x ∈ g.entities) : g.holds x = true :=
  Entity.among_of_mem h

theorem mem_entities_drop {x : Entity} {xs : List Entity} :
    x ∈ (g.drop xs).entities ↔ x ∈ g.entities ∧ x.among xs = false := by
  cases x <;> simp [mem_entities, drop]

theorem holds_drop (x : Entity) (xs : List Entity) :
    (g.drop xs).holds x = (g.holds x && !x.among xs) := by
  apply Bool.eq_iff_iff.mpr
  simp only [Bool.and_eq_true, Bool.not_eq_true', holds_iff, mem_entities_drop]
  constructor
  · rintro ⟨y, ⟨hy, ha⟩, hyx⟩
    exact ⟨⟨y, hy, hyx⟩, by rw [← Entity.among_congr hyx]; exact ha⟩
  · rintro ⟨⟨y, hy, hyx⟩, ha⟩
    exact ⟨y, ⟨hy, by rw [Entity.among_congr hyx]; exact ha⟩, hyx⟩

/-- Adding puts one entity with a fresh tag at the end of its list. -/
inductive Enters (g : LiveGraph L) : Event → Entity → LiveGraph L → Prop
  | node (n : Node) : Enters g .addNode (.node ⟨g.fresh, n⟩) (g.pushNode n)
  | edge (e : Edge) : Enters g .addEdge (.edge ⟨g.fresh, e⟩) (g.pushEdge e)
  | initializer (i : Initializer) :
    Enters g .addEdge (.initializer ⟨g.fresh, i⟩) (g.pushInitializer i)

theorem Enters.tag {event : Event} {x : Entity} (h : Enters g event x g') : x.tag = g.fresh := by
  cases h <;> rfl

theorem Enters.fresh {event : Event} {x : Entity} (h : Enters g event x g') :
    g'.fresh = g.fresh + 1 := by
  cases h <;> rfl

theorem Enters.isRemoval {event : Event} {x : Entity} (h : Enters g event x g') :
    event.isRemoval = false := by
  cases h <;> rfl

theorem Enters.subscriptions {event : Event} {x : Entity} (h : Enters g event x g') :
    g'.subscriptions = g.subscriptions := by
  cases h <;> rfl

theorem Enters.mem_iff {event : Event} {x y : Entity} (h : Enters g event x g') :
    y ∈ g'.entities ↔ y ∈ g.entities ∨ y = x := by
  cases h <;> cases y <;> simp [mem_entities, pushNode, pushEdge, pushInitializer]

/-- Edits that add nothing and take nothing out. -/
inductive Adjusts (g : LiveGraph L) : Command L → LiveGraph L → Prop
  | subscribe (event : Event) (l : L) : Adjusts g (.subscribe event l) (g.subscribe event l)
  | unsubscribe [DecidableEq L] (event : Event) (l : L) :
    Adjusts g (.unsubscribe event l) (g.unsubscribe event l)
  | rename (name : String) : Adjusts g (.rename name) { g with name }
  | setDisplay (id : String) (display : Json) :
    Adjusts g (.setDisplay id display) (g.setDisplay id display)

theorem Adjusts.addition {c : Command L} (h : Adjusts g c g') : c.addition g = none := by
  cases h <;> rfl

/-- Setting display data changes what is known of one node, and no tag. -/
theorem setDisplay_nodes (g : LiveGraph L) (id : String) (display : Json) :
    ∃ f : Tagged Node → Tagged Node,
      (g.setDisplay id display).nodes = g.nodes.map f ∧ ∀ n, (f n).tag = n.tag := by
  unfold setDisplay
  cases g.find? id with
  | none => exact ⟨fun n => n, by simp, fun _ => rfl⟩
  | some found =>
    refine ⟨_, rfl, fun n => ?_⟩
    dsimp only
    split <;> rfl

theorem setDisplay_edges (g : LiveGraph L) (id : String) (display : Json) :
    (g.setDisplay id display).edges = g.edges := by
  unfold setDisplay
  cases g.find? id <;> rfl

theorem setDisplay_initializers (g : LiveGraph L) (id : String) (display : Json) :
    (g.setDisplay id display).initializers = g.initializers := by
  unfold setDisplay
  cases g.find? id <;> rfl

theorem setDisplay_fresh (g : LiveGraph L) (id : String) (display : Json) :
    (g.setDisplay id display).fresh = g.fresh := by
  unfold setDisplay
  cases g.find? id <;> rfl

theorem Adjusts.nodes {c : Command L} (h : Adjusts g c g') :
    ∃ f : Tagged Node → Tagged Node, g'.nodes = g.nodes.map f ∧ ∀ n, (f n).tag = n.tag := by
  cases h with
  | setDisplay id display => exact setDisplay_nodes g id display
  | _ => exact ⟨id, (List.map_id g.nodes).symm, fun _ => rfl⟩

theorem Adjusts.edges {c : Command L} (h : Adjusts g c g') : g'.edges = g.edges := by
  cases h with
  | setDisplay id display => exact setDisplay_edges g id display
  | _ => rfl

theorem Adjusts.initializers {c : Command L} (h : Adjusts g c g') :
    g'.initializers = g.initializers := by
  cases h with
  | setDisplay id display => exact setDisplay_initializers g id display
  | _ => rfl

theorem Adjusts.fresh {c : Command L} (h : Adjusts g c g') : g'.fresh = g.fresh := by
  cases h with
  | setDisplay id display => exact setDisplay_fresh g id display
  | _ => rfl

theorem Adjusts.mem_iff {c : Command L} {x : Entity} (h : Adjusts g c g')
    (hx : x.isNode = false) : x ∈ g'.entities ↔ x ∈ g.entities := by
  cases x with
  | node n => simp [Entity.isNode] at hx
  | edge e => rw [mem_entities_edge, mem_entities_edge, h.edges]
  | initializer i => rw [mem_entities_initializer, mem_entities_initializer, h.initializers]

theorem Adjusts.holds_eq {c : Command L} (h : Adjusts g c g') (x : Entity) :
    g'.holds x = g.holds x := by
  obtain ⟨f, hf, ht⟩ := h.nodes
  cases x <;> simp [holds, Entity.among, entities, hf, h.edges, h.initializers, Entity.is,
    Function.comp_def, ht]

/-- Tags tell the entities of a graph apart, and those that have not been given out are free. -/
structure Sound (g : LiveGraph L) : Prop where
  tag_lt : ∀ x ∈ g.entities, x.tag < g.fresh
  nodes : (g.nodes.map (·.tag)).Nodup
  edges : (g.edges.map (·.tag)).Nodup
  initializers : (g.initializers.map (·.tag)).Nodup

theorem eq_of_nodup_tags {α : Type} {l : List (Tagged α)} (h : (l.map (·.tag)).Nodup)
    {a b : Tagged α} (ha : a ∈ l) (hb : b ∈ l) (hab : a.tag = b.tag) : a = b :=
  List.inj_on_of_nodup_map h ha hb hab

theorem Sound.eq_of_is (hs : g.Sound) {x y : Entity} (hx : x ∈ g.entities) (hy : y ∈ g.entities)
    (h : x.is y = true) : x = y := by
  have htag := Entity.tag_eq_of_is h
  cases x <;> cases y <;> try cases h
  · exact congrArg Entity.node (eq_of_nodup_tags hs.nodes (mem_entities_node.mp hx)
      (mem_entities_node.mp hy) htag)
  · exact congrArg Entity.edge (eq_of_nodup_tags hs.edges (mem_entities_edge.mp hx)
      (mem_entities_edge.mp hy) htag)
  · exact congrArg Entity.initializer (eq_of_nodup_tags hs.initializers
      (mem_entities_initializer.mp hx) (mem_entities_initializer.mp hy) htag)

theorem nodup_tags_concat {α : Type} {l : List (Tagged α)} (h : (l.map (·.tag)).Nodup)
    {a : Tagged α} (ha : ∀ b ∈ l, b.tag < a.tag) : ((l ++ [a]).map (·.tag)).Nodup := by
  rw [List.map_append, List.nodup_append]
  refine ⟨h, by simp, ?_⟩
  rintro t ht u hu rfl
  obtain ⟨b, hb, rfl⟩ := List.mem_map.mp ht
  simp only [List.map_cons, List.map_nil, List.mem_singleton] at hu
  have := ha b hb
  omega

theorem Enters.sound {event : Event} {x : Entity} (h : Enters g event x g') (hs : g.Sound) :
    g'.Sound := by
  have hlt : ∀ y ∈ g'.entities, y.tag < g'.fresh := by
    intro y hy
    rw [h.fresh]
    rcases h.mem_iff.mp hy with hy | rfl
    · have := hs.tag_lt y hy
      omega
    · rw [h.tag]
      omega
  cases h with
  | node n =>
    exact ⟨hlt, nodup_tags_concat hs.nodes fun m hm => hs.tag_lt _ (mem_entities_node.mpr hm),
      hs.edges, hs.initializers⟩
  | edge e =>
    exact ⟨hlt, hs.nodes, nodup_tags_concat hs.edges fun d hd =>
      hs.tag_lt _ (mem_entities_edge.mpr hd), hs.initializers⟩
  | initializer i =>
    exact ⟨hlt, hs.nodes, hs.edges, nodup_tags_concat hs.initializers fun j hj =>
      hs.tag_lt _ (mem_entities_initializer.mpr hj)⟩

theorem Enters.holds_eq {event : Event} {x y : Entity} (h : Enters g event x g')
    (hy : y.tag < g.fresh) : g'.holds y = g.holds y := by
  apply Bool.eq_iff_iff.mpr
  simp only [holds_iff, h.mem_iff]
  constructor
  · rintro ⟨z, hz | rfl, hzy⟩
    · exact ⟨z, hz, hzy⟩
    · have := Entity.tag_eq_of_is hzy
      rw [h.tag] at this
      omega
  · rintro ⟨z, hz, hzy⟩
    exact ⟨z, .inl hz, hzy⟩

theorem Adjusts.sound {c : Command L} (h : Adjusts g c g') (hs : g.Sound) : g'.Sound := by
  obtain ⟨f, hf, ht⟩ := h.nodes
  refine ⟨?_, ?_, by rw [h.edges]; exact hs.edges, by rw [h.initializers]; exact hs.initializers⟩
  · intro x hx
    rw [h.fresh]
    -- The tag of a node is that of a node before.
    obtain ⟨y, hy, hyx⟩ := holds_iff.mp (h.holds_eq x ▸ holds_of_mem hx)
    rw [← Entity.tag_eq_of_is hyx]
    exact hs.tag_lt y hy
  · rw [hf, List.map_map]
    simpa [Function.comp_def, ht] using hs.nodes

theorem Sound.drop (hs : g.Sound) (xs : List Entity) : (g.drop xs).Sound where
  tag_lt x hx := hs.tag_lt x (mem_entities_drop.mp hx).1
  nodes := hs.nodes.sublist (List.filter_sublist.map _)
  edges := hs.edges.sublist (List.filter_sublist.map _)
  initializers := hs.initializers.sublist (List.filter_sublist.map _)

end FlowGraph.LiveGraph
