import FlowGraph.Proofs.Live.Attribution
import FlowGraph.Proofs.Live.Recorder

/-! The groups in which the connections of a node go. Each port at which one of them ends has its
group, in the order in which the ports come up when the edges and then the packets are looked
through; a connection that ends at two of them is in the group of the first. -/

namespace FlowGraph.Live

/-- Whether a connection ends at none of some ports. -/
def Entity.avoids (ps : List Endpoint) (x : Entity) : Bool :=
  ps.all fun p => !x.touches p

theorem Entity.avoids_nil (x : Entity) : x.avoids [] = true := rfl

theorem Entity.avoids_cons (p : Endpoint) (ps : List Endpoint) (x : Entity) :
    x.avoids (p :: ps) = (!x.touches p && x.avoids ps) := rfl

theorem Entity.avoids_singleton (p : Endpoint) (x : Entity) : x.avoids [p] = !x.touches p :=
  Bool.and_true _

theorem Entity.avoids_append (ps qs : List Endpoint) (x : Entity) :
    x.avoids (ps ++ qs) = (x.avoids ps && x.avoids qs) :=
  List.all_append

theorem Entity.avoids_eq_false_iff {ps : List Endpoint} {x : Entity} :
    x.avoids ps = false ↔ ∃ p ∈ ps, x.touches p = true := by
  simp [Entity.avoids]

theorem Entity.avoids_congr {ps qs : List Endpoint} (h : ∀ p, p ∈ ps ↔ p ∈ qs) (x : Entity) :
    x.avoids ps = x.avoids qs := by
  apply Bool.eq_iff_iff.mpr
  simp only [Entity.avoids, List.all_eq_true, h]

namespace Contents

def connections (c : Contents) : List Entity :=
  c.edges.map .edge ++ c.initializers.map .initializer

def connectionsAt (c : Contents) (p : Endpoint) : List Entity :=
  c.connections.filter (·.touches p)

/-- The ports of a node, as often as they come up. -/
def edgeEnds (c : Contents) (id : String) : List Endpoint :=
  (c.edges.flatMap fun e => [e.value.source, e.value.target]).filter (·.node = id)

def packetEnds (c : Contents) (id : String) : List Endpoint :=
  (c.initializers.map (·.value.target)).filter (·.node = id)

def ends (c : Contents) (id : String) : List Endpoint :=
  c.edgeEnds id ++ c.packetEnds id

/-- At each port those connections that have not been told of. -/
def groupsFrom (c : Contents) (told : List Entity) : List Endpoint → List (List Entity)
  | [] => []
  | p :: ps =>
    let group := (c.connectionsAt p).filter (· ∉ told)
    group :: c.groupsFrom (told ++ group) ps

def groups (c : Contents) (id : String) : List (List Entity) :=
  c.groupsFrom [] (c.ends id).eraseDups

/-- Without the first node that has an id, and without all connections of that id. -/
def without (c : Contents) (id : String) : Contents where
  nodes := c.nodes.eraseP (·.value.id == id)
  edges := c.edges.filter fun e => !(Entity.edge e).joins id
  initializers := c.initializers.filter fun i => !(Entity.initializer i).joins id

/-- Without all connections that end at some ports. -/
def vacated (c : Contents) (ps : List Endpoint) : Contents where
  nodes := c.nodes
  edges := c.edges.filter fun e => (Entity.edge e).avoids ps
  initializers := c.initializers.filter fun i => (Entity.initializer i).avoids ps

/-- What removals at some ports take, one after the other. -/
def removals (c : Contents) : List Endpoint → List (List Entity)
  | [] => []
  | p :: ps => c.connectionsAt p :: (c.vacated [p]).removals ps

/-- Tags tell entities apart. -/
structure Distinct (c : Contents) : Prop where
  nodes : (c.nodes.map (·.tag)).Nodup
  edges : (c.edges.map (·.tag)).Nodup
  initializers : (c.initializers.map (·.tag)).Nodup

variable {c : Contents} {p : Endpoint} {ps qs : List Endpoint} {x : Entity} {id : String}

theorem mem_connections : x ∈ c.connections ↔
    (∃ e ∈ c.edges, Entity.edge e = x) ∨ ∃ i ∈ c.initializers, Entity.initializer i = x := by
  rw [← List.mem_map, ← List.mem_map]
  exact List.mem_append

theorem mem_connections_edge {e : Tagged Edge} : .edge e ∈ c.connections ↔ e ∈ c.edges := by
  simp [mem_connections]

theorem mem_connections_initializer {i : Tagged Initializer} :
    .initializer i ∈ c.connections ↔ i ∈ c.initializers := by
  simp [mem_connections]

theorem connections_vacated (c : Contents) (ps : List Endpoint) :
    (c.vacated ps).connections = c.connections.filter (·.avoids ps) := by
  simp only [connections, vacated, List.filter_append, List.filter_map]
  rfl

theorem vacated_nil (c : Contents) : c.vacated [] = c := by
  simp [vacated, Entity.avoids]

theorem vacated_vacated (c : Contents) (ps qs : List Endpoint) :
    (c.vacated ps).vacated qs = c.vacated (ps ++ qs) := by
  simp only [vacated, List.filter_filter, Entity.avoids_append, Bool.and_comm]

theorem vacated_congr (h : ∀ p, p ∈ ps ↔ p ∈ qs) (c : Contents) : c.vacated ps = c.vacated qs := by
  simp only [vacated, Entity.avoids_congr h]

theorem vacated_eraseDups (c : Contents) (ps : List Endpoint) :
    c.vacated ps.eraseDups = c.vacated ps :=
  vacated_congr (fun _ => List.mem_eraseDups) c

theorem mem_connectionsAt : x ∈ c.connectionsAt p ↔ x ∈ c.connections ∧ x.touches p = true :=
  List.mem_filter

theorem connectionsAt_vacated (c : Contents) (ps : List Endpoint) (p : Endpoint) :
    (c.vacated ps).connectionsAt p = (c.connectionsAt p).filter (·.avoids ps) := by
  unfold connectionsAt
  rw [connections_vacated, List.filter_comm]

/-- Nothing is left at a port that is vacant. -/
theorem connectionsAt_vacated_of_mem (h : p ∈ ps) (c : Contents) :
    (c.vacated ps).connectionsAt p = [] := by
  rw [connectionsAt_vacated]
  apply List.filter_eq_nil_iff.mpr
  intro x hx havoids
  rw [Entity.avoids_eq_false_iff.mpr ⟨p, h, (mem_connectionsAt.mp hx).2⟩] at havoids
  cases havoids

theorem Distinct.vacated (h : c.Distinct) (ps : List Endpoint) : (c.vacated ps).Distinct where
  nodes := h.nodes
  edges := h.edges.sublist (List.filter_sublist.map _)
  initializers := h.initializers.sublist (List.filter_sublist.map _)

theorem Distinct.connections_nodup (h : c.Distinct) : c.connections.Nodup := by
  refine List.Nodup.append ?_ ?_ ?_
  · exact (h.edges.of_map _).map fun _ _ => Entity.edge.inj
  · exact (h.initializers.of_map _).map fun _ _ => Entity.initializer.inj
  · intro x he hi
    obtain ⟨e, -, rfl⟩ := List.mem_map.mp he
    obtain ⟨i, -, hi⟩ := List.mem_map.mp hi
    cases hi

theorem isNode_of_mem_connections (h : x ∈ c.connections) : x.isNode = false := by
  cases x with
  | node n => simp [mem_connections] at h
  | _ => rfl

theorem Distinct.eq_of_is (h : c.Distinct) {y : Entity} (hx : x ∈ c.connections)
    (hy : y ∈ c.connections) (hxy : x.is y = true) : x = y := by
  have htag := Entity.tag_eq_of_is hxy
  cases x <;> cases y <;> try cases hxy
  · cases isNode_of_mem_connections hx
  · exact congrArg Entity.edge (LiveGraph.eq_of_nodup_tags h.edges (mem_connections_edge.mp hx)
      (mem_connections_edge.mp hy) htag)
  · exact congrArg Entity.initializer (LiveGraph.eq_of_nodup_tags h.initializers
      (mem_connections_initializer.mp hx) (mem_connections_initializer.mp hy) htag)

theorem Distinct.among_connectionsAt (h : c.Distinct) (hx : x ∈ c.connections) :
    x.among (c.connectionsAt p) = x.touches p := by
  apply Bool.eq_iff_iff.mpr
  rw [Entity.among_iff]
  constructor
  · rintro ⟨y, hy, hyx⟩
    obtain ⟨hy, ht⟩ := mem_connectionsAt.mp hy
    exact h.eq_of_is hy hx hyx ▸ ht
  · exact fun ht => ⟨x, mem_connectionsAt.mpr ⟨hx, ht⟩, x.is_self⟩

theorem node_among_connectionsAt (n : Tagged Node) (c : Contents) (p : Endpoint) :
    (Entity.node n).among (c.connectionsAt p) = false := by
  apply Bool.eq_false_iff.mpr
  rw [ne_eq, Entity.among_iff]
  rintro ⟨y, hy, hyn⟩
  have hnode := isNode_of_mem_connections (mem_connectionsAt.mp hy).1
  rw [Entity.isNode_eq_of_is hyn] at hnode
  cases hnode

/-- Since tags tell them apart, the connections that were chosen at a port are those that go. -/
theorem Distinct.drop_connectionsAt (h : c.Distinct) (p : Endpoint) :
    c.drop (c.connectionsAt p) = c.vacated [p] := by
  unfold drop Contents.vacated
  congr 1
  · simp [node_among_connectionsAt]
  · refine List.filter_congr fun e he => ?_
    rw [h.among_connectionsAt (mem_connections_edge.mpr he), Entity.avoids_singleton]
  · refine List.filter_congr fun i hi => ?_
    rw [h.among_connectionsAt (mem_connections_initializer.mpr hi),
      Entity.avoids_singleton]

/-! Removals at ports that may come up more than once. -/

theorem removals_nil (c : Contents) : c.removals [] = [] := rfl

theorem removals_cons (c : Contents) (p : Endpoint) (ps : List Endpoint) :
    c.removals (p :: ps) = c.connectionsAt p :: (c.vacated [p]).removals ps := rfl

theorem removals_append (c : Contents) (ps qs : List Endpoint) :
    c.removals (ps ++ qs) = c.removals ps ++ (c.vacated ps).removals qs := by
  induction ps generalizing c with
  | nil => rw [vacated_nil]; rfl
  | cons p ps ih =>
    rw [List.cons_append, removals_cons, removals_cons, ih, vacated_vacated]
    rfl

theorem mem_flatten_removals (c : Contents) (ps : List Endpoint) (x : Entity) :
    x ∈ (c.removals ps).flatten ↔ x ∈ c.connections ∧ x.avoids ps = false := by
  induction ps generalizing c with
  | nil => simp [removals_nil, Entity.avoids_nil]
  | cons p ps ih =>
    rw [removals_cons, List.flatten_cons, List.mem_append, ih, connections_vacated, List.mem_filter,
      mem_connectionsAt, Entity.avoids_singleton, Entity.avoids_cons]
    cases x.touches p <;> simp

theorem nodup_flatten_removals (h : c.connections.Nodup) (ps : List Endpoint) :
    (c.removals ps).flatten.Nodup := by
  induction ps generalizing c with
  | nil => exact List.nodup_nil
  | cons p ps ih =>
    have hrest : (c.vacated [p]).connections.Nodup := by
      rw [connections_vacated]
      exact h.filter _
    rw [removals_cons, List.flatten_cons]
    refine List.Nodup.append (h.filter _) (ih hrest) ?_
    intro x hx hlater
    have hvacated := ((mem_flatten_removals _ _ _).mp hlater).1
    rw [connections_vacated, List.mem_filter, Entity.avoids_singleton,
      (mem_connectionsAt.mp hx).2] at hvacated
    cases hvacated.2

theorem vacated_of_connectionsAt (h : c.connectionsAt p = []) : c.vacated [p] = c := by
  have hkeep : ∀ x ∈ c.connections, x.avoids [p] = true := by
    intro x hx
    have ht := List.filter_eq_nil_iff.mp h x hx
    rw [Entity.avoids_singleton, Bool.not_eq_true', Bool.eq_false_iff]
    exact ht
  unfold vacated
  rw [List.filter_eq_self.mpr fun e he => hkeep _ (mem_connections_edge.mpr he),
    List.filter_eq_self.mpr fun i hi => hkeep _ (mem_connections_initializer.mpr hi)]

/-- A port at which nothing is left can be left out. -/
theorem flatten_removals_filter (h : c.connectionsAt p = []) (ps : List Endpoint) :
    (c.removals ps).flatten = (c.removals (ps.filter fun q => !q == p)).flatten := by
  induction ps generalizing c with
  | nil => rfl
  | cons q ps ih =>
    by_cases hq : q = p
    · subst hq
      rw [List.filter_cons_of_neg (by simp), removals_cons, List.flatten_cons, h,
        vacated_of_connectionsAt h, ih h]
      rfl
    · have hlater : (c.vacated [q]).connectionsAt p = [] := by
        rw [connectionsAt_vacated, h, List.filter_nil]
      rw [List.filter_cons_of_pos (by simpa using hq), removals_cons, removals_cons,
        List.flatten_cons, List.flatten_cons, ih hlater]

theorem flatten_removals_eraseDups (c : Contents) (ps : List Endpoint) :
    (c.removals ps).flatten = (c.removals ps.eraseDups).flatten := by
  induction hn : ps.length using Nat.strongRecOn generalizing c ps with
  | ind n ih =>
    cases ps with
    | nil => rfl
    | cons p ps =>
      have hshorter : (ps.filter fun q => !q == p).length < n :=
        hn ▸ Nat.lt_succ_of_le (List.length_filter_le _ ps)
      have hvacant := connectionsAt_vacated_of_mem (List.mem_singleton_self p) c
      rw [List.eraseDups_cons, removals_cons, removals_cons, List.flatten_cons,
        List.flatten_cons, flatten_removals_filter hvacant, ih _ hshorter _ _ rfl]

/-- What was told of before is what ends at a port that came up before. -/
theorem removals_eq_groupsFrom {told : List Entity}
    (h : ∀ x ∈ c.connections, x ∈ told ↔ x.avoids qs = false) (ps : List Endpoint) :
    (c.vacated qs).removals ps = c.groupsFrom told ps := by
  induction ps generalizing qs told with
  | nil => rfl
  | cons p ps ih =>
    have hgroup : (c.vacated qs).connectionsAt p = (c.connectionsAt p).filter (· ∉ told) := by
      rw [connectionsAt_vacated]
      refine List.filter_congr fun x hx => ?_
      have hx := h x (mem_connectionsAt.mp hx).1
      cases hq : x.avoids qs <;> simp [hx, hq]
    have hnext : ∀ x ∈ c.connections, x ∈ told ++ (c.connectionsAt p).filter (· ∉ told) ↔
        x.avoids (qs ++ [p]) = false := by
      intro x hx
      rw [List.mem_append, List.mem_filter, mem_connectionsAt, Entity.avoids_append,
        Entity.avoids_singleton, decide_eq_true_iff, h x hx]
      cases x.avoids qs <;> simp [hx]
    rw [removals_cons, hgroup, vacated_vacated, ih hnext]
    rfl

/-! The connections of a node. -/

theorem node_of_mem_ends (h : p ∈ c.ends id) : p.node = id := by
  rcases List.mem_append.mp h with h | h <;> exact of_decide_eq_true (List.mem_filter.mp h).2

/-- Packets that went with the edges have no other ports than those of the edges. -/
theorem eraseDups_ends (c : Contents) (id : String) :
    (c.edgeEnds id ++ (c.vacated (c.edgeEnds id)).packetEnds id).eraseDups =
      (c.ends id).eraseDups := by
  have hpackets : (c.vacated (c.edgeEnds id)).packetEnds id =
      (c.packetEnds id).removeAll (c.edgeEnds id) := by
    have havoids (i : Tagged Initializer) : (Entity.initializer i).avoids (c.edgeEnds id) =
        !(c.edgeEnds id).elem i.value.target := by
      apply Bool.eq_iff_iff.mpr
      simp only [Entity.avoids, Entity.touches, List.all_eq_true, Bool.not_eq_true',
        beq_eq_false_iff_ne, List.elem_eq_mem, decide_eq_false_iff_not]
      exact ⟨fun h hm => h _ hm rfl, fun h p hp he => h (he ▸ hp)⟩
    simp only [packetEnds, vacated, List.removeAll, havoids]
    have hmap : (c.initializers.map (·.value.target)).filter (!(c.edgeEnds id).elem ·) =
        (c.initializers.filter fun i => !(c.edgeEnds id).elem i.value.target).map
          (·.value.target) := List.filter_map
    rw [List.filter_comm, hmap]
  have hagain : ((c.packetEnds id).removeAll (c.edgeEnds id)).removeAll (c.edgeEnds id) =
      (c.packetEnds id).removeAll (c.edgeEnds id) := by
    simp [List.removeAll]
  rw [ends, List.eraseDups_append, List.eraseDups_append, hpackets, hagain]

theorem avoids_ends_eq_false_iff (hx : x ∈ c.connections) :
    x.avoids (c.ends id) = false ↔ x.joins id = true := by
  rw [Entity.avoids_eq_false_iff]
  constructor
  · rintro ⟨p, hp, ht⟩
    exact node_of_mem_ends hp ▸ Entity.joins_of_touches ht
  · intro hj
    cases x with
    | node n => cases hj
    | edge e =>
      have hend (p : Endpoint) (hp : p ∈ [e.value.source, e.value.target]) (hn : p.node = id) :
          p ∈ c.ends id := by
        refine List.mem_append_left _ (List.mem_filter.mpr ⟨?_, decide_eq_true hn⟩)
        exact List.mem_flatMap.mpr ⟨e, mem_connections_edge.mp hx, hp⟩
      simp only [Entity.joins, Bool.or_eq_true, beq_iff_eq] at hj
      rcases hj with hj | hj
      · exact ⟨_, hend _ (by simp) hj, by simp [Entity.touches, Edge.touches]⟩
      · exact ⟨_, hend _ (by simp) hj, by simp [Entity.touches, Edge.touches]⟩
    | initializer i =>
      have hj : i.value.target.node = id := by simpa [Entity.joins] using hj
      refine ⟨i.value.target, List.mem_append_right _ (List.mem_filter.mpr ⟨?_, ?_⟩), ?_⟩
      · exact List.mem_map_of_mem (mem_connections_initializer.mp hx)
      · exact decide_eq_true hj
      · simp [Entity.touches]

theorem avoids_ends (hx : x ∈ c.connections) : x.avoids (c.ends id) = !x.joins id := by
  have h : x.avoids (c.ends id) = false ↔ x.joins id = true := avoids_ends_eq_false_iff hx
  cases hj : x.joins id with
  | true => exact h.mpr hj
  | false =>
    rw [Bool.not_false, ← Bool.not_eq_false]
    intro ha
    rw [h.mp ha] at hj
    cases hj

theorem groups_eq_removals (c : Contents) (id : String) :
    c.groups id = c.removals (c.ends id).eraseDups := by
  have hnone : ∀ x ∈ c.connections, x ∈ ([] : List Entity) ↔ x.avoids [] = false := by
    simp [Entity.avoids_nil]
  rw [groups, ← removals_eq_groupsFrom hnone, vacated_nil]

/-- Every connection of a node is in one group, once. -/
theorem mem_flatten_groups : x ∈ (c.groups id).flatten ↔ x ∈ c.connections ∧ x.joins id = true := by
  rw [groups_eq_removals, ← flatten_removals_eraseDups, mem_flatten_removals]
  exact and_congr_right avoids_ends_eq_false_iff

theorem Distinct.nodup_flatten_groups (h : c.Distinct) (id : String) :
    (c.groups id).flatten.Nodup := by
  rw [groups_eq_removals]
  exact nodup_flatten_removals h.connections_nodup _

/-- Removals at all ports of a node leave it without connections. -/
theorem vacated_ends (c : Contents) (id : String) : c.vacated (c.ends id) =
    { c.without id with nodes := c.nodes } := by
  unfold vacated without
  congr 1
  · exact List.filter_congr fun e he => avoids_ends (mem_connections_edge.mpr he)
  · exact List.filter_congr fun i hi => avoids_ends (mem_connections_initializer.mpr hi)

theorem vacated_eq (c : Contents) (ps : List Endpoint) : c.vacated ps =
    { c with
      edges := c.edges.filter fun e => .edge e ∉ (c.removals ps).flatten
      initializers := c.initializers.filter fun i =>
        .initializer i ∉ (c.removals ps).flatten } := by
  have havoids (x : Entity) (hx : x ∈ c.connections) :
      x.avoids ps = decide (x ∉ (c.removals ps).flatten) := by
    have hmem := mem_flatten_removals c ps x
    cases ha : x.avoids ps with
    | false => exact (decide_eq_false (not_not_intro (hmem.mpr ⟨hx, ha⟩))).symm
    | true =>
      have hnot : x ∉ (c.removals ps).flatten := by
        intro hm
        rw [(hmem.mp hm).2] at ha
        cases ha
      exact (decide_eq_true hnot).symm
  unfold vacated
  congr 1
  · exact List.filter_congr fun e he => havoids _ (mem_connections_edge.mpr he)
  · exact List.filter_congr fun i hi => havoids _ (mem_connections_initializer.mpr hi)

/-- Whatever has gone at ports of a node would have gone with it. -/
theorem without_vacated (h : ∀ p ∈ ps, p.node = id) (c : Contents) :
    (c.vacated ps).without id = c.without id := by
  have hjoins (x : Entity) : (!x.joins id && x.avoids ps) = !x.joins id := by
    rw [Bool.and_eq_left_iff_imp, Bool.not_eq_true', ← Bool.not_eq_false]
    intro hj ha
    obtain ⟨p, hp, ht⟩ := Entity.avoids_eq_false_iff.mp ha
    rw [← h p hp, Entity.joins_of_touches ht] at hj
    cases hj
  simp only [without, vacated, List.filter_filter, hjoins]

/-- A node that was found by its id is the first one that has it. -/
theorem filter_tag_ne {α : Type} {l : List (Tagged α)} (h : (l.map (·.tag)).Nodup)
    {f : Tagged α → Bool} {a : Tagged α} (ha : l.find? f = some a) :
    l.filter (·.tag ≠ a.tag) = l.eraseP f := by
  induction l with
  | nil => cases ha
  | cons b l ih =>
    obtain ⟨hb, hl⟩ := List.nodup_cons.mp h
    have hne (d : Tagged α) (hd : d ∈ l) : d.tag ≠ b.tag :=
      fun he => hb (List.mem_map.mpr ⟨d, hd, he⟩)
    cases hf : f b with
    | true =>
      rw [List.find?_cons_of_pos hf] at ha
      obtain rfl := Option.some.inj ha
      rw [List.eraseP_cons_of_pos hf, List.filter_cons_of_neg (by simp)]
      exact List.filter_eq_self.mpr fun d hd => decide_eq_true (hne d hd)
    | false =>
      rw [List.find?_cons_of_neg (by simp [hf])] at ha
      have htag := (hne a (List.mem_of_find?_eq_some ha)).symm
      rw [List.eraseP_cons_of_neg (by simp [hf]), List.filter_cons_of_pos (by simpa using htag),
        ih hl ha]

theorem Distinct.drop_node (h : c.Distinct) {n : Tagged Node}
    (hn : c.nodes.find? (·.value.id == id) = some n) :
    (c.vacated (c.ends id)).drop [.node n] = c.without id := by
  have hedge (e : Tagged Edge) : (Entity.edge e).among [.node n] = false := rfl
  have hinitializer (i : Tagged Initializer) : (Entity.initializer i).among [.node n] = false := rfl
  have hnode (m : Tagged Node) : (!(Entity.node m).among [.node n]) = decide (m.tag ≠ n.tag) := by
    simp [Entity.among, Entity.is, eq_comm, Bool.beq_eq_decide_eq]
  have hnodes := filter_tag_ne h.nodes hn
  rw [vacated_ends]
  simp only [drop, hedge, hinitializer, hnode, hnodes, Bool.not_false, List.filter_true]
  rfl

end Contents

end FlowGraph.Live

namespace FlowGraph.LiveGraph

open Live

variable {L : Type} {g : LiveGraph L}

theorem entitiesAt_eq (g : LiveGraph L) (p : Endpoint) :
    g.entitiesAt p = g.contents.connectionsAt p := by
  simp only [Contents.connectionsAt, Contents.connections, List.filter_append, List.filter_map]
  rfl

theorem mem_connections_iff {x : Entity} :
    x ∈ g.contents.connections ↔ x ∈ g.entities ∧ x.isNode = false := by
  cases x <;> simp [Contents.connections, contents, entities, Entity.isNode]

theorem Sound.distinct (hs : g.Sound) : g.contents.Distinct :=
  ⟨hs.nodes, hs.edges, hs.initializers⟩

end FlowGraph.LiveGraph
