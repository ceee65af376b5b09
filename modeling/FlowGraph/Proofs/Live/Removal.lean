import FlowGraph.Proofs.Live.Detaching

/-! The removal of a node, to the letter, while listeners only watch: what goes, what is announced
in which order, and what is left when a listener raises. -/

namespace FlowGraph.Live

variable {L σ ε : Type} [DecidableEq L] {behaviour : Behaviour L σ ε} {level : Nat}
  {steady : L → Bool} {raising : Prop} {id : String} {s : State L σ} {n : Tagged Node}

theorem edit_removeNode_of_none (behaviour : Behaviour L σ ε) (level : Nat)
    (hn : s.live.find? id = none) : edit behaviour (level + 1) (.removeNode id) s =
      (.returned none, { s with journal := .edit level (.removeNode id) s.live :: s.journal }) := by
  have hremove (u : State L σ) (hu : u.live.find? id = none) :
      removeNode behaviour level (edit behaviour level) id u = (.returned (), u) := by
    simp only [removeNode, bind, Action.bind, Action.live, hu]
    rfl
  exact Action.bind_of_returned (f := fun _ => pure none) (hremove _ hn)

/-- The removal of a node that is found, and the entries that it makes. -/
theorem edit_removeNode_unwiring (hw : behaviour.Watches level steady raising)
    (hd : s.live.contents.Distinct) (hn : s.live.find? id = some n) :
    ∃ outcome t new, edit behaviour (level + 1) (.removeNode id) s = (outcome, t) ∧
      t.journal = new ++ .edit level (.removeNode id) s.live :: s.journal ∧
      (outcome.ending = .returned → outcome = .returned none) ∧
      Unwiring level steady raising id n s.live new outcome.ending t.live := by
  obtain ⟨outcome, t, new, hedit, hj, hreply, h⟩ := (removeNode_unwiring hw (s :=
    { s with journal := .edit level (.removeNode id) s.live :: s.journal }) hd hn).replied
  exact ⟨outcome, t, new, hedit, hj, hreply, h⟩

/-- While listeners only watch, the removal of a node takes the first node with an id and all
connections of that id, and leaves the rest as it was. Each connection is announced once, at the
first port at which one of its ends comes up, and the node after all of them. -/
theorem removeNode_watched (hw : behaviour.Watches level steady False) (hs : s.live.Sound)
    (id : String) : ∃ t new, edit behaviour (level + 1) (.removeNode id) s = (.returned none, t) ∧
      t.journal = new ++ .edit level (.removeNode id) s.live :: s.journal ∧
      (s.live.find? id = none → t.live = s.live ∧ new = []) ∧
      ∀ n, s.live.find? id = some n →
        t.live.contents = s.live.contents.without id ∧
        heard level steady new = deliveries s.live steady
          ((s.live.contents.groups id).flatten.map (.removeEdge, ·) ++ [(.removeNode, .node n)]) ∧
        (s.live.contents.groups id).flatten.Nodup ∧
        ∀ x, x ∈ (s.live.contents.groups id).flatten ↔ x ∈ s.live.entities ∧ x.joins id = true := by
  cases hn : s.live.find? id with
  | none =>
    refine ⟨_, [], edit_removeNode_of_none behaviour level hn, rfl, fun _ => ⟨rfl, rfl⟩, ?_⟩
    intro n h
    cases h
  | some n =>
    obtain ⟨outcome, t, new, hedit, hj, hreply, h⟩ := edit_removeNode_unwiring hw hs.distinct hn
    have hreturned := h.ending_eq
    obtain ⟨hcontents, hheard⟩ := h.returned hreturned
    refine ⟨t, new, hreply hreturned ▸ hedit, hj, fun h => (by cases h), fun m hm => ?_⟩
    obtain rfl := Option.some.inj hm
    refine ⟨hcontents, hheard, hs.distinct.nodup_flatten_groups id, fun x => ?_⟩
    rw [Contents.mem_flatten_groups, LiveGraph.mem_connections_iff, and_assoc]
    exact and_congr_right fun _ => and_iff_right_of_imp Entity.isNode_of_joins

/-- One of two listeners keeps count, the other one leaves when it is first told of a removal. -/
def comeAndGo : Behaviour Bool Nat Empty := fun stays _ _ calls =>
  if stays then .done (calls + 1) ()
  else .edit calls (.unsubscribe .removeEdge false) fun _ _ calls => .done calls ()

theorem comeAndGo_watches : comeAndGo.Watches 1 (fun l => l) False := by
  refine ⟨fun l x s => ?_, fun l x s event => ?_, fun l x s => ?_⟩
  · cases l <;> rfl
  · cases l with
    | true => rfl
    | false =>
      have hlive : (comeAndGo.answer 1 false x s).2.live =
          s.live.unsubscribe .removeEdge false := rfl
      rw [hlive, LiveGraph.listeners_unsubscribe, List.filter_filter]
      refine List.filter_congr fun l _ => ?_
      cases l <;> simp
  · cases l <;> exact .inl rfl

/-- Two nodes have the same id, an edge begins and ends at one node, one comes from a node that is
not there, and several connections share a port. -/
def crowded : State Bool Nat where
  live :=
    { nodes := [⟨0, "B", .null, .null⟩, ⟨1, "A", .null, .null⟩, ⟨2, "A", .null, .null⟩]
      edges := [⟨3, ⟨"A", "out"⟩, ⟨"B", "in"⟩⟩, ⟨4, ⟨"A", "in"⟩, ⟨"A", "out"⟩⟩,
        ⟨5, ⟨"X", "out"⟩, ⟨"A", "in"⟩⟩, ⟨6, ⟨"B", "out"⟩, ⟨"B", "in"⟩⟩]
      initializers := [⟨7, .null, ⟨"A", "options"⟩⟩, ⟨8, .null, ⟨"A", "in"⟩⟩,
        ⟨9, .null, ⟨"B", "in"⟩⟩]
      subscriptions := [(.removeEdge, false), (.removeEdge, true), (.removeNode, true)]
      fresh := 10 }
  memory := 0

theorem crowded_sound : crowded.live.Sound :=
  ⟨by decide, by decide, by decide, by decide⟩

theorem crowded_removal : ∃ t new, edit comeAndGo 2 (.removeNode "A") crowded =
      (.returned none, t) ∧
    t.live.nodes = [⟨0, "B", .null, .null⟩, ⟨2, "A", .null, .null⟩] ∧
    t.live.edges = [⟨6, ⟨"B", "out"⟩, ⟨"B", "in"⟩⟩] ∧
    t.live.initializers = [⟨9, .null, ⟨"B", "in"⟩⟩] ∧
    t.journal = new ++ [.edit 1 (.removeNode "A") crowded.live] ∧
    heard 1 (fun l => l) new = [
      (.removeEdge, true, .edge ⟨3, ⟨"A", "out"⟩, ⟨"B", "in"⟩⟩),
      (.removeEdge, true, .edge ⟨4, ⟨"A", "in"⟩, ⟨"A", "out"⟩⟩),
      (.removeEdge, true, .edge ⟨5, ⟨"X", "out"⟩, ⟨"A", "in"⟩⟩),
      (.removeEdge, true, .initializer ⟨8, .null, ⟨"A", "in"⟩⟩),
      (.removeEdge, true, .initializer ⟨7, .null, ⟨"A", "options"⟩⟩),
      (.removeNode, true, .node ⟨1, "A", .null, .null⟩)] := by
  obtain ⟨t, new, hedit, hj, -, h⟩ := removeNode_watched comeAndGo_watches crowded_sound "A"
  obtain ⟨hcontents, hheard, -, -⟩ := h ⟨1, "A", .null, .null⟩ (by decide)
  refine ⟨t, new, hedit, ?_, ?_, ?_, hj, hheard.trans (by decide)⟩
  · exact (congrArg Contents.nodes hcontents).trans (by decide)
  · exact (congrArg Contents.edges hcontents).trans (by decide)
  · exact (congrArg Contents.initializers hcontents).trans (by decide)

/-- A removal that is not interrupted comes to the same whatever had gone before. -/
theorem edit_removeNode_contents (hw : behaviour.Watches level steady False) {c : Contents}
    (hd : c.Distinct) (hn : c.nodes.find? (·.value.id == id) = some n) {ps : List Endpoint}
    (hps : ∀ p ∈ ps, p.node = id) (hs : s.live.contents = c.vacated ps) :
    ∃ t, edit behaviour (level + 1) (.removeNode id) s = (.returned none, t) ∧
      t.live.contents = c.without id := by
  have hdistinct : s.live.contents.Distinct := hs ▸ hd.vacated ps
  have hfind : s.live.find? id = some n := by
    have hnodes : s.live.nodes = c.nodes := congrArg Contents.nodes hs
    rw [LiveGraph.find?, hnodes]
    exact hn
  obtain ⟨outcome, t, new, hedit, -, hreply, h⟩ := edit_removeNode_unwiring hw hdistinct hfind
  have hreturned := h.ending_eq
  refine ⟨t, hreply hreturned ▸ hedit, ?_⟩
  rw [(h.returned hreturned).1, hs, Contents.without_vacated hps]

/-- Listeners that only watch may raise. The removal of a node stops there, between two groups: the
groups before have gone, and the one that was being announced and those after it are all there, or
all have gone and the node is there. To remove the node again has the effect that the removal would
have had at first. -/
theorem removeNode_interrupted (hw : behaviour.Watches level steady True) (hs : s.live.Sound)
    (hn : s.live.find? id = some n) {error : ε} {t : State L σ}
    (h : edit behaviour (level + 1) (.removeNode id) s = (.raised error, t)) :
    (∃ new, t.journal = new ++ .edit level (.removeNode id) s.live :: s.journal ∧
      heard level steady new <+: deliveries s.live steady
        ((s.live.contents.groups id).flatten.map (.removeEdge, ·) ++ [(.removeNode, .node n)]) ∧
      t.live.nodes = s.live.nodes ∧
      ((∃ before group after x, s.live.contents.groups id = before ++ group :: after ∧
        x ∈ group ∧ Interrupted level .removeEdge x new ∧
        t.live.edges = s.live.edges.filter (.edge · ∉ before.flatten) ∧
        t.live.initializers = s.live.initializers.filter (.initializer · ∉ before.flatten) ∧
        ∀ y ∈ (group :: after).flatten, y ∈ t.live.entities) ∨
      Interrupted level .removeNode (.node n) new ∧
        t.live.edges = s.live.edges.filter (fun e => !(Entity.edge e).joins id) ∧
        t.live.initializers =
          s.live.initializers.filter (fun i => !(Entity.initializer i).joins id))) ∧
    ∀ (calm : Behaviour L σ ε) level' steady', calm.Watches level' steady' False →
      ∀ u v, u.live.contents = t.live.contents → v.live.contents = s.live.contents →
        ∃ u' v', edit calm (level' + 1) (.removeNode id) u = (.returned none, u') ∧
          edit calm (level' + 1) (.removeNode id) v = (.returned none, v') ∧
          u'.live.contents = v'.live.contents := by
  obtain ⟨outcome, t', new, hedit, hj, -, hunwiring⟩ := edit_removeNode_unwiring hw hs.distinct hn
  obtain ⟨rfl, rfl⟩ := Prod.mk.inj (hedit.symm.trans h)
  obtain ⟨-, hheard, hstop⟩ := hunwiring.raised rfl
  have hd := hs.distinct
  -- Whatever the listener was being told of, some ports of the node are vacant then.
  have hvacated : ∃ ps, (∀ p ∈ ps, p.node = id) ∧
      t'.live.contents = s.live.contents.vacated ps := by
    rcases hstop with ⟨before, p, after, x, hports, hcontents, -⟩ | ⟨hcontents, -⟩
    · refine ⟨before, fun q hq => ?_, hcontents⟩
      have hm : q ∈ (s.live.contents.ends id).eraseDups := hports ▸ List.mem_append_left _ hq
      exact Contents.node_of_mem_ends (List.mem_eraseDups.mp hm)
    · exact ⟨_, fun q hq => Contents.node_of_mem_ends hq, hcontents⟩
  obtain ⟨ps, hps, hcontents⟩ := hvacated
  have hnodes : t'.live.nodes = s.live.nodes := congrArg Contents.nodes hcontents
  refine ⟨⟨new, hj, hheard, hnodes, ?_⟩, ?_⟩
  · rcases hstop with ⟨before, p, after, x, hports, hcontents, hx, hi⟩ | ⟨hcontents, hi⟩
    · left
      have hgroups : s.live.contents.groups id = s.live.contents.removals before ++
          t'.live.contents.connectionsAt p :: (t'.live.contents.vacated [p]).removals after := by
        rw [Contents.groups_eq_removals, hports, Contents.removals_append, hcontents]
        rfl
      rw [Contents.vacated_eq] at hcontents
      refine ⟨_, _, _, x, hgroups, hx, hi, congrArg Contents.edges hcontents,
        congrArg Contents.initializers hcontents, fun y hy => ?_⟩
      have hlater := (Contents.mem_flatten_removals t'.live.contents (p :: after) y).mp hy
      exact (LiveGraph.mem_connections_iff.mp hlater.1).1
    · right
      rw [Contents.vacated_ends] at hcontents
      exact ⟨hi, congrArg Contents.edges hcontents, congrArg Contents.initializers hcontents⟩
  · intro calm level' steady' hcalm u v hu hv
    have hnone : s.live.contents = s.live.contents.vacated [] := (Contents.vacated_nil _).symm
    obtain ⟨u', hu', hagain⟩ := edit_removeNode_contents hcalm hd hn hps (hu.trans hcontents)
    obtain ⟨v', hv', hfirst⟩ := edit_removeNode_contents hcalm hd hn (by simp) (hv.trans hnone)
    exact ⟨u', v', hu', hv', hagain.trans hfirst.symm⟩

/-- Raises once it has been called as often as the memory says. -/
def brittle : Behaviour Bool Nat String := fun _ _ _ left =>
  match left with
  | 0 => .raise 0 "enough"
  | left + 1 => .done left ()

def patient : Behaviour Bool Nat String := fun _ _ _ left => .done left ()

theorem brittle_watches : brittle.Watches 0 (fun _ => true) True := by
  refine ⟨fun l x s => ?_, fun l x s event => ?_, fun l x s => ?_⟩
  all_goals
    obtain ⟨live, memory, journal⟩ := s
    cases memory
  · rfl
  · rfl
  · rfl
  · rfl
  · exact .inr ⟨trivial, rfl⟩
  · exact .inl rfl

theorem patient_watches : patient.Watches 0 (fun _ => true) False :=
  ⟨fun _ _ _ => rfl, fun _ _ _ _ => rfl, fun _ _ _ => .inl rfl⟩

/-- The second group is being announced when a listener has had enough. -/
def strained : State Bool Nat :=
  { crowded with memory := 4 }

theorem strained_removal : ∃ error t, edit brittle 1 (.removeNode "A") strained =
      (.raised error, t) ∧
    t.live.nodes = strained.live.nodes ∧
    t.live.edges.map (·.tag) = [5, 6] ∧ t.live.initializers.map (·.tag) = [7, 8, 9] ∧
    ∃ u v, edit patient 1 (.removeNode "A") t = (.returned none, u) ∧
      edit patient 1 (.removeNode "A") strained = (.returned none, v) ∧
      u.live.contents = v.live.contents := by
  obtain ⟨hending, hedges, hinitializers⟩ :
      (edit brittle 1 (.removeNode "A") strained).1.ending = .raised ∧
      (edit brittle 1 (.removeNode "A") strained).2.live.edges.map (·.tag) = [5, 6] ∧
      (edit brittle 1 (.removeNode "A") strained).2.live.initializers.map (·.tag) = [7, 8, 9] := by
    decide +kernel
  rcases hrun : edit brittle 1 (.removeNode "A") strained with ⟨outcome, t⟩
  rw [hrun] at hending hedges hinitializers
  cases outcome with
  | raised error =>
    have hn : strained.live.find? "A" = some ⟨1, "A", .null, .null⟩ := by decide
    obtain ⟨⟨new, -, -, hnodes, -⟩, hagain⟩ :=
      removeNode_interrupted brittle_watches (s := strained) crowded_sound hn hrun
    exact ⟨error, t, rfl, hnodes, hedges, hinitializers,
      hagain patient 0 _ patient_watches t strained rfl rfl⟩
  | returned _ => cases hending
  | unfinished => cases hending

end FlowGraph.Live
