import FlowGraph.Proofs.Live.PortRemoval
import Mathlib.Data.List.Perm.Basic

/-! Removals in any order. What some removals leave can be told without a look at their order: a
connection stays if none of them is out for it, and of the nodes with an id the first go, one for
each removal of that id. -/

namespace FlowGraph.Live

variable {L σ ε : Type}

/-- What is to be removed: a node, which an id stands for, or what ends at a port. -/
inductive Removal where
  | node (id : String)
  | port (p : Endpoint)
  deriving DecidableEq, Repr

def Removal.command : Removal → Command L
  | .node id => .removeNode id
  | .port p => .removeEdge p

def Removal.names : Removal → Tagged Node → Bool
  | .node id, n => n.value.id == id
  | .port _, _ => false

/-- Whether a removal is out for a connection. Nothing goes with a node that is not there. -/
def Removal.takes (c : Contents) (x : Entity) : Removal → Bool
  | .node id => c.nodes.any (·.value.id == id) && x.joins id
  | .port p => x.touches p

/-- The nodes that some removals leave. Each removal of an id takes one node that has it. -/
def unclaimed : List (Tagged Node) → List Removal → List (Tagged Node)
  | [], _ => []
  | n :: nodes, rs =>
    if .node n.value.id ∈ rs then unclaimed nodes (rs.erase (.node n.value.id))
    else n :: unclaimed nodes rs

/-- What is left after some removals. -/
def Contents.after (c : Contents) (rs : List Removal) : Contents where
  nodes := unclaimed c.nodes rs
  edges := c.edges.filter fun e => rs.all fun r => !r.takes c (.edge e)
  initializers := c.initializers.filter fun i => rs.all fun r => !r.takes c (.initializer i)

/-! Nodes. -/

theorem unclaimed_nil (nodes : List (Tagged Node)) : unclaimed nodes [] = nodes := by
  induction nodes with
  | nil => rfl
  | cons n nodes ih => simp [unclaimed, ih]

theorem unclaimed_perm {rs rs' : List Removal} (h : rs.Perm rs') (nodes : List (Tagged Node)) :
    unclaimed nodes rs = unclaimed nodes rs' := by
  induction nodes generalizing rs rs' with
  | nil => rfl
  | cons n nodes ih => simp only [unclaimed, h.mem_iff, ih h, ih (h.erase _)]

/-- The first removal takes the first node that it names. -/
theorem unclaimed_cons (r : Removal) (rs : List Removal) (nodes : List (Tagged Node)) :
    unclaimed nodes (r :: rs) = unclaimed (nodes.eraseP r.names) rs := by
  induction nodes generalizing rs with
  | nil => rfl
  | cons n nodes ih =>
    by_cases hr : r = .node n.value.id
    · have hnames : r.names n = true := by simp [hr, Removal.names]
      rw [List.eraseP_cons_of_pos hnames, hr, unclaimed, if_pos List.mem_cons_self,
        List.erase_cons_head]
    · have hnames : r.names n = false := by
        cases r with
        | node id => exact beq_eq_false_iff_ne.mpr fun he => hr (congrArg Removal.node he.symm)
        | port p => rfl
      have hmem : .node n.value.id ∈ r :: rs ↔ .node n.value.id ∈ rs :=
        List.mem_cons.trans (or_iff_right (Ne.symm hr))
      have herase : (r :: rs).erase (.node n.value.id) = r :: rs.erase (.node n.value.id) :=
        List.erase_cons_tail (by simpa using hr)
      rw [List.eraseP_cons_of_neg (by simp [hnames])]
      simp only [unclaimed, hmem, herase, ih]

theorem unclaimed_singleton (r : Removal) (nodes : List (Tagged Node)) :
    unclaimed nodes [r] = nodes.eraseP r.names := by
  rw [unclaimed_cons, unclaimed_nil]

theorem unclaimed_of_unnamed {r : Removal} {nodes : List (Tagged Node)}
    (h : ∀ n ∈ nodes, r.names n = false) : unclaimed nodes [r] = nodes := by
  rw [unclaimed_singleton]
  exact List.eraseP_of_forall_not fun n hn => Bool.eq_false_iff.mp (h n hn)

/-! Connections. -/

attribute [ext] Contents

namespace Contents

variable {c : Contents} {x : Entity} {r : Removal} {rs rs' : List Removal} {id : String}

theorem nodes_after_singleton (c : Contents) (r : Removal) :
    (c.after [r]).nodes = c.nodes.eraseP r.names :=
  unclaimed_singleton r c.nodes

/-- A removal leaves the others what they are out for, or has taken it itself. -/
theorem takes_after (h : r.takes c x = false) (r' : Removal) :
    r'.takes (c.after [r]) x = r'.takes c x := by
  cases r' with
  | port p => rfl
  | node id =>
    cases hj : x.joins id with
    | false => simp [Removal.takes, hj]
    | true =>
      simp only [Removal.takes, hj, Bool.and_true]
      by_cases hr : r = .node id
      · -- Otherwise it would have taken the connection.
        have hnone : c.nodes.any r.names = false := by
          simpa [hr, Removal.names, Removal.takes, hj] using h
        have hkeep : (c.after [r]).nodes = c.nodes :=
          unclaimed_of_unnamed (by simpa using hnone)
        rw [hkeep]
      · rw [nodes_after_singleton]
        apply Bool.eq_iff_iff.mpr
        simp only [List.any_eq_true, beq_iff_eq]
        refine exists_congr fun n => and_congr_left fun hid => List.mem_eraseP_of_neg ?_
        cases r with
        | node id' =>
          have hne : id' ≠ id := fun he => hr (congrArg Removal.node he)
          simpa [Removal.names, hid] using hne.symm
        | port p => simp [Removal.names]

theorem after_nil (c : Contents) : c.after [] = c := by
  simp [after, unclaimed_nil]

theorem after_cons (c : Contents) (r : Removal) (rs : List Removal) :
    (c.after [r]).after rs = c.after (r :: rs) := by
  have hkeep (x : Entity) :
      ((rs.all fun r' => !r'.takes (c.after [r]) x) && [r].all fun r' => !r'.takes c x) =
        (r :: rs).all fun r' => !r'.takes c x := by
    cases h : r.takes c x with
    | true => simp [h]
    | false => simp [h, takes_after h]
  have hedges : ((c.after [r]).after rs).edges = (c.after (r :: rs)).edges :=
    List.filter_filter.trans (List.filter_congr fun e _ => hkeep (.edge e))
  have hinitializers : ((c.after [r]).after rs).initializers = (c.after (r :: rs)).initializers :=
    List.filter_filter.trans (List.filter_congr fun i _ => hkeep (.initializer i))
  have hunclaimed : ((c.after [r]).after rs).nodes = (c.after (r :: rs)).nodes :=
    (congrArg (unclaimed · rs) (nodes_after_singleton c r)).trans (unclaimed_cons r rs c.nodes).symm
  exact Contents.ext hunclaimed hedges hinitializers

theorem after_perm (h : rs.Perm rs') (c : Contents) : c.after rs = c.after rs' := by
  simp only [after, unclaimed_perm h, h.all_eq]

theorem after_port (c : Contents) (p : Endpoint) : c.after [.port p] = c.vacated [p] := by
  have hnodes : unclaimed c.nodes [.port p] = c.nodes := unclaimed_of_unnamed fun _ _ => rfl
  simp [after, hnodes, vacated, Entity.avoids_singleton, Removal.takes]

theorem after_node_of_some {n : Tagged Node} (h : c.nodes.find? (·.value.id == id) = some n) :
    c.after [.node id] = c.without id := by
  have hany : c.nodes.any (·.value.id == id) = true := by
    rw [← List.isSome_find?, h]
    rfl
  have hnodes : unclaimed c.nodes [.node id] = c.nodes.eraseP (·.value.id == id) :=
    unclaimed_singleton (.node id) c.nodes
  simp [after, hnodes, without, Removal.takes, hany]

theorem after_node_of_none (h : c.nodes.find? (·.value.id == id) = none) :
    c.after [.node id] = c := by
  have hany : c.nodes.any (·.value.id == id) = false := by
    rw [← List.isSome_find?, h]
    rfl
  have hnodes : unclaimed c.nodes [.node id] = c.nodes :=
    unclaimed_of_unnamed fun n hn => Bool.eq_false_iff.mpr (List.any_eq_false.mp hany n hn)
  simp [after, hnodes, Removal.takes, hany]

theorem Distinct.after_singleton (h : c.Distinct) (r : Removal) : (c.after [r]).Distinct where
  nodes := by
    rw [nodes_after_singleton]
    exact h.nodes.sublist (List.eraseP_sublist.map _)
  edges := h.edges.sublist (List.filter_sublist.map _)
  initializers := h.initializers.sublist (List.filter_sublist.map _)

end Contents

/-! Runs. -/

section

variable [DecidableEq L] {behaviour : Behaviour L σ ε} {level : Nat} {steady : L → Bool}
  {s : State L σ}

def carryOut (behaviour : Behaviour L σ ε) (level : Nat) (r : Removal) : Action L σ ε Unit := do
  let _ ← edit behaviour (level + 1) r.command
  return ()

theorem carryOut_of_returned {r : Removal} {reply : Reply} {t : State L σ}
    (h : edit behaviour (level + 1) r.command s = (.returned reply, t)) :
    carryOut behaviour level r s = (.returned (), t) :=
  Action.bind_of_returned (f := fun _ => pure ()) h

theorem carryOut_after (hw : behaviour.Watches level steady False)
    (hd : s.live.contents.Distinct) (r : Removal) :
    ∃ t, carryOut behaviour level r s = (.returned (), t) ∧
      t.live.contents = s.live.contents.after [r] := by
  cases r with
  | port p =>
    obtain ⟨outcome, t, new, hedit, -, hreply, h, -⟩ :=
      edit_removeEdge_vacating (fun _ _ l _ => hw.as l) p hd
    have hreturned : outcome.ending = .returned := by
      cases outcome with
      | returned reply => rfl
      | raised error => exact (h.raised rfl).1.elim
      | unfinished => exact absurd rfl h.finished
    rw [hreply hreturned] at hedit
    exact ⟨t, carryOut_of_returned hedit,
      (h.returned hreturned).1.trans (Contents.after_port _ p).symm⟩
  | node id =>
    cases hn : s.live.find? id with
    | none =>
      have hkeep : s.live.contents.after [.node id] = s.live.contents :=
        Contents.after_node_of_none hn
      exact ⟨_, carryOut_of_returned (edit_removeNode_of_none behaviour level hn), hkeep.symm⟩
    | some n =>
      have hgone : s.live.contents.after [.node id] = s.live.contents.without id :=
        Contents.after_node_of_some hn
      have hnone : s.live.contents = s.live.contents.vacated [] := (Contents.vacated_nil _).symm
      obtain ⟨t, hedit, hcontents⟩ := edit_removeNode_contents hw hd hn (by simp) hnone
      exact ⟨t, carryOut_of_returned hedit, hcontents.trans hgone.symm⟩

theorem carryOut_all_after (hw : behaviour.Watches level steady False)
    (hd : s.live.contents.Distinct) (rs : List Removal) :
    ∃ t, rs.forM (carryOut behaviour level) s = (.returned (), t) ∧
      t.live.contents = s.live.contents.after rs := by
  induction rs generalizing s with
  | nil => exact ⟨s, rfl, (Contents.after_nil _).symm⟩
  | cons r rs ih =>
    obtain ⟨t, ht, hcontents⟩ := carryOut_after hw hd r
    obtain ⟨u, hu, hlast⟩ := ih (hcontents ▸ hd.after_singleton r)
    refine ⟨u, ?_, ?_⟩
    · exact (Action.bind_of_returned (f := fun _ => rs.forM (carryOut behaviour level)) ht).trans hu
    · rw [hlast, hcontents, Contents.after_cons]

/-- While listeners only watch, removals in any order leave the same nodes, edges and packets in the
same order: what is left is told without the order of the removals. -/
theorem removals_commute (hw : behaviour.Watches level steady False) (hs : s.live.Sound)
    {rs rs' : List Removal} (h : rs.Perm rs') :
    ∃ t t', rs.forM (carryOut behaviour level) s = (.returned (), t) ∧
      rs'.forM (carryOut behaviour level) s = (.returned (), t') ∧
      t.live.nodes = t'.live.nodes ∧ t.live.edges = t'.live.edges ∧
      t.live.initializers = t'.live.initializers ∧
      t.live.contents = s.live.contents.after rs := by
  obtain ⟨t, ht, hcontents⟩ := carryOut_all_after hw hs.distinct rs
  obtain ⟨t', ht', hcontents'⟩ := carryOut_all_after hw hs.distinct rs'
  have hsame : t.live.contents = t'.live.contents := by
    rw [hcontents, hcontents', Contents.after_perm h]
  exact ⟨t, t', ht, ht', congrArg Contents.nodes hsame, congrArg Contents.edges hsame,
    congrArg Contents.initializers hsame, hcontents⟩

end

/-- No node has the id X, two have the id A, and a port of A is cleared before or after them. -/
theorem crowded_removals :
    ∃ t t', [.node "X", .node "A", .port ⟨"A", "in"⟩, .port ⟨"A", "in"⟩].forM
        (carryOut comeAndGo 1) crowded = (.returned (), t) ∧
      [.port ⟨"A", "in"⟩, .node "A", .port ⟨"A", "in"⟩, .node "X"].forM
        (carryOut comeAndGo 1) crowded = (.returned (), t') ∧
      t.live.nodes = t'.live.nodes ∧ t.live.edges = t'.live.edges ∧
      t.live.initializers = t'.live.initializers ∧
      t.live.nodes = [⟨0, "B", .null, .null⟩, ⟨2, "A", .null, .null⟩] ∧
      t.live.edges = [⟨6, ⟨"B", "out"⟩, ⟨"B", "in"⟩⟩] ∧
      t.live.initializers = [⟨9, .null, ⟨"B", "in"⟩⟩] := by
  have hperm : List.Perm
      [Removal.node "X", .node "A", .port ⟨"A", "in"⟩, .port ⟨"A", "in"⟩]
      [.port ⟨"A", "in"⟩, .node "A", .port ⟨"A", "in"⟩, .node "X"] := by
    decide
  obtain ⟨t, t', ht, ht', hnodes, hedges, hinitializers, hcontents⟩ :=
    removals_commute comeAndGo_watches crowded_sound hperm
  refine ⟨t, t', ht, ht', hnodes, hedges, hinitializers, ?_, ?_, ?_⟩
  · exact (congrArg Contents.nodes hcontents).trans (by decide)
  · exact (congrArg Contents.edges hcontents).trans (by decide)
  · exact (congrArg Contents.initializers hcontents).trans (by decide)

end FlowGraph.Live
