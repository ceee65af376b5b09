import FlowGraph.Proofs.Live.Course

/-! Why an entity is missing. What was in the graph or came into it is still there unless the
journal says that it has gone, and whatever has gone was matched by an edit that asks for a
removal. No late removal takes what came in meanwhile. -/

namespace FlowGraph.Live

variable {L σ ε : Type}

/-- Connections do not change; nodes are known by their tags, for their display data may. -/
def Entity.Same : Entity → Entity → Prop
  | .node m, .node n => m.tag = n.tag
  | x, y => x = y

def Entity.touches (p : Endpoint) : Entity → Bool
  | .node _ => false
  | .edge e => e.value.touches p
  | .initializer i => i.value.target == p

/-- Whether a connection has an end at a node. -/
def Entity.joins (id : String) : Entity → Bool
  | .node _ => false
  | .edge e => e.value.source.node == id || e.value.target.node == id
  | .initializer i => i.value.target.node == id

/-- Whether a command is out to remove an entity from a graph. -/
def Command.Matches (g : LiveGraph L) (x : Entity) : Command L → Prop
  | .removeEdge p => x.touches p = true
  | .removeNode id => x.joins id = true ∨ ∃ n, g.find? id = some n ∧ (Entity.node n).is x = true
  | _ => False

/-- Whatever the edits of a journal were to add. -/
def additions (entries : List (Entry L)) : List Entity :=
  entries.filterMap fun
    | .edit _ c g => c.addition g
    | _ => none

theorem additions_append (new old : List (Entry L)) :
    additions (new ++ old) = additions new ++ additions old := by
  simp [additions]

theorem Entity.same_refl (x : Entity) : x.Same x := by
  cases x <;> rfl

/-- Entities that are the same are two nodes with one tag, or one entity. -/
theorem Entity.same_cases {x y : Entity} (h : x.Same y) :
    (∃ m n, x = .node m ∧ y = .node n ∧ m.tag = n.tag) ∨ x = y := by
  cases x with
  | node m =>
    cases y with
    | node n => exact .inl ⟨m, n, rfl, rfl, h⟩
    | _ => exact .inr h
  | _ => exact .inr h

theorem Entity.same_trans {x y z : Entity} (hxy : x.Same y) (hyz : y.Same z) : x.Same z := by
  rcases Entity.same_cases hxy with ⟨m, n, rfl, rfl, hmn⟩ | rfl
  · rcases Entity.same_cases hyz with ⟨n', l, hn, rfl, hnl⟩ | rfl
    · obtain rfl := Entity.node.inj hn
      exact hmn.trans hnl
    · exact hxy
  · exact hyz

theorem Entity.is_of_same {x y : Entity} (h : x.Same y) : x.is y = true := by
  rcases Entity.same_cases h with ⟨m, n, rfl, rfl, hmn⟩ | rfl
  · exact beq_iff_eq.mpr hmn
  · exact x.is_self

theorem Entity.same_of_is {x y : Entity} (h : x.is y = true) (hx : x.isNode = true) :
    x.Same y := by
  cases x with
  | node m =>
    cases y with
    | node n => exact Entity.tag_eq_of_is h
    | _ => cases h
  | _ => cases hx

theorem Entity.eq_of_same {x y : Entity} (h : x.Same y) (hx : x.isNode = false) : x = y := by
  rcases Entity.same_cases h with ⟨m, n, rfl, rfl, -⟩ | he
  · cases hx
  · exact he

theorem Entity.isNode_of_joins {id : String} {x : Entity} (h : x.joins id = true) :
    x.isNode = false := by
  cases x with
  | node n => cases h
  | _ => rfl

theorem Entity.joins_of_touches {p : Endpoint} {x : Entity} (h : x.touches p = true) :
    x.joins p.node = true := by
  cases x with
  | node n => exact h
  | edge e =>
    simp only [Entity.touches, Edge.touches, Bool.or_eq_true, beq_iff_eq] at h
    simp only [Entity.joins, Bool.or_eq_true, beq_iff_eq]
    exact h.imp (congrArg Endpoint.node) (congrArg Endpoint.node)
  | initializer i =>
    simp only [Entity.touches, beq_iff_eq] at h
    simp [Entity.joins, h]

theorem Command.Matches.same {g : LiveGraph L} {c : Command L} {x y : Entity}
    (h : c.Matches g x) (hxy : x.Same y) : c.Matches g y := by
  have his := Entity.is_of_same hxy
  cases c with
  | removeEdge p =>
    rcases Entity.same_cases hxy with ⟨m, n, rfl, rfl, -⟩ | rfl
    · cases h
    · exact h
  | removeNode id =>
    rcases h with h | ⟨n, hn, hx⟩
    · rcases Entity.same_cases hxy with ⟨m, n, rfl, rfl, -⟩ | rfl
      · cases h
      · exact .inl h
    · exact .inr ⟨n, hn, Entity.is_trans hx his⟩
  | _ => exact h

end FlowGraph.Live

namespace FlowGraph.LiveGraph

open Live

variable {L : Type} {g g' : LiveGraph L}

/-- The graph has an entity, though a node may look different in it. -/
def Has (g : LiveGraph L) (x : Entity) : Prop :=
  ∃ y ∈ g.entities, y.Same x

theorem has_of_mem {x : Entity} (h : x ∈ g.entities) : g.Has x :=
  ⟨x, h, x.same_refl⟩

theorem holds_of_has {x : Entity} (h : g.Has x) : g.holds x = true := by
  obtain ⟨y, hy, hyx⟩ := h
  exact holds_iff.mpr ⟨y, hy, Entity.is_of_same hyx⟩

theorem Enters.has {event : Event} {x y : Entity} (h : g.Enters event x g') (hy : g.Has y) :
    g'.Has y := by
  obtain ⟨z, hz, hzy⟩ := hy
  exact ⟨z, h.mem_iff.mpr (.inl hz), hzy⟩

theorem Adjusts.has {c : Command L} {x : Entity} (h : g.Adjusts c g') (hx : g.Has x) :
    g'.Has x := by
  obtain ⟨y, hy, hyx⟩ := hx
  cases hn : y.isNode with
  | true =>
    obtain ⟨z, hz, hzy⟩ := holds_iff.mp (h.holds_eq y ▸ holds_of_mem hy)
    have hzn : z.isNode = true := Entity.isNode_eq_of_is hzy ▸ hn
    exact ⟨z, hz, Entity.same_trans (Entity.same_of_is hzy hzn) hyx⟩
  | false => exact ⟨y, (h.mem_iff hn).mpr hy, hyx⟩

theorem touches_of_mem_entitiesAt {p : Endpoint} {x : Entity} (h : x ∈ g.entitiesAt p) :
    x.touches p = true := by
  simp only [entitiesAt, List.mem_append, List.mem_map] at h
  rcases h with ⟨e, he, rfl⟩ | ⟨i, hi, rfl⟩
  · exact (List.mem_filter.mp he).2
  · exact (List.mem_filter.mp hi).2

theorem mem_entitiesAt {p : Endpoint} {x : Entity} (hx : x ∈ g.entities)
    (h : x.touches p = true) : x ∈ g.entitiesAt p := by
  simp only [entitiesAt, List.mem_append, List.mem_map]
  cases x with
  | node n => simp [Entity.touches] at h
  | edge e => exact .inl ⟨e, List.mem_filter.mpr ⟨mem_entities_edge.mp hx, h⟩, rfl⟩
  | initializer i => exact .inr ⟨i, List.mem_filter.mpr ⟨mem_entities_initializer.mp hx, h⟩, rfl⟩

end FlowGraph.LiveGraph

namespace FlowGraph.Live

variable {L σ ε : Type}

/-- What was there or was added is there, unless the journal says that it has gone. -/
def keeping (n : Nat) : Law L := fun g new _ g' =>
  Course n g new g' ∧ (g.Sound → ∀ x, g.Has x ∨ x ∈ additions new →
    g'.Has x ∨ ∃ y ∈ taken new, y.Same x)

/-- Keeping all that and what an edit itself adds. -/
def keepingWith (n : Nat) (added : Option Entity) : Law L := fun g new _ g' =>
  Course n g new g' ∧ (g.Sound → ∀ x, (g.Has x ∨ x ∈ additions new) ∨ added = some x →
    g'.Has x ∨ ∃ y ∈ taken new, y.Same x)

/-- Every entity that has gone was chosen in an entry of some kind. -/
def accounting (chosen : Entry L → Entity → Prop) : Law L := fun _ new _ _ =>
  ∀ x ∈ taken new, ∃ entry ∈ new, chosen entry x

/-- Edits of levels below `n` that ask for the removal of an entity. -/
def Entry.Asks (n : Nat) : Entry L → Entity → Prop
  | .edit l c g, x => l < n ∧ c.Matches g x
  | _, _ => False

/-- Removals of one level at some endpoints that find an entity there. -/
def Entry.Finds (level : Nat) (at? : Endpoint → Prop) : Entry L → Entity → Prop
  | .removal l p g, x => l = level ∧ at? p ∧ x ∈ g.entitiesAt p
  | _, _ => False

theorem Entry.Asks.succ {n : Nat} {entry : Entry L} {x : Entity} (h : entry.Asks n x) :
    entry.Asks (n + 1) x := by
  cases entry with
  | edit l c g => exact ⟨Nat.lt_succ_of_lt h.1, h.2⟩
  | _ => exact h

theorem Entry.Finds.touches {level : Nat} {at? : Endpoint → Prop} {entry : Entry L} {x : Entity}
    (h : entry.Finds level at? x) : ∃ p, at? p ∧ x.touches p = true := by
  cases entry with
  | removal l p g => exact ⟨p, h.2.1, LiveGraph.touches_of_mem_entitiesAt h.2.2⟩
  | _ => exact h.elim

theorem keeping_endures (n : Nat) : (keeping n : Law L).Endures where
  still _ _ := ⟨.still, fun _ x h => by simpa [additions, taken] using h⟩
  trans := by
    rintro g g' g'' new new' e e' - ⟨hc, hk⟩ ⟨hc', hk'⟩
    refine ⟨hc.trans hc', fun hs x hx => ?_⟩
    rw [additions_append, List.mem_append] at hx
    simp only [taken_append, List.mem_append, or_and_right, exists_or]
    have hlater (h : g'.Has x ∨ x ∈ additions new') := hk' (hc.sound hs) x h
    rcases hx with hx | hx | hx
    · rcases hk hs x (.inl hx) with h | h
      · exact (hlater (.inl h)).imp id .inl
      · exact .inr (.inr h)
    · exact (hlater (.inr hx)).imp id .inl
    · rcases hk hs x (.inr hx) with h | h
      · exact (hlater (.inl h)).imp id .inl
      · exact .inr (.inr h)

theorem keepingWith_none {n : Nat} {g g' : LiveGraph L} {new : List (Entry L)} {e : Ending}
    (h : keeping n g new e g') : keepingWith n none g new e g' := by
  refine ⟨h.1, fun hs x hx => h.2 hs x ?_⟩
  simpa using hx

theorem accounting_endures (chosen : Entry L → Entity → Prop) :
    (accounting chosen).Endures where
  still _ _ x hx := by simp [taken] at hx
  trans := by
    intro g g' g'' new new' e e' _ h h' x hx
    rw [taken_append, List.mem_append] at hx
    rcases hx with hx | hx
    · obtain ⟨entry, hm, hc⟩ := h' x hx
      exact ⟨entry, List.mem_append_left _ hm, hc⟩
    · obtain ⟨entry, hm, hc⟩ := h x hx
      exact ⟨entry, List.mem_append_right _ hm, hc⟩

section

variable {behaviour : Behaviour L σ ε} {level : Nat} {inner : Command L → Action L σ ε Reply}

theorem emit_keeping (hi : ∀ c s, (inner c).Obeys (keeping level) s) {event : Event} {x : Entity}
    (s : State L σ) : (emit behaviour level inner event x).Obeys (keeping (level + 1)) s := by
  refine emit_obeys (keeping_endures (level + 1)) ?_ ?_ ?_ s
  · exact fun c s => (hi c s).imp fun h => ⟨h.1.mono (by omega), h.2⟩
  · refine fun g l => ⟨.note .still (Nat.lt_succ_self level) rfl, fun _ y hy => ?_⟩
    simpa [additions, taken, Entry.taken] using hy
  · refine fun g l => ⟨.note .still (Nat.lt_succ_self level) trivial, fun _ y hy => ?_⟩
    simpa [additions, taken, Entry.taken] using hy

theorem dismiss_keeping (hi : ∀ c s, (inner c).Obeys (keeping level) s) {event : Event}
    {xs : List Entity} {s : State L σ}
    (hx : ∀ x ∈ xs, x.isNode = false → x ∈ s.live.entities) :
    (dismiss behaviour level inner event xs).Obeys (keeping (level + 1)) s := by
  refine dismiss_obeys (Action.Obeys.forM (keeping_endures (level + 1)).chains xs
    (fun x _ s => emit_keeping hi s) s) (fun _ h => h) ?_
  rintro new g ⟨hc, hk⟩
  refine ⟨hc.remove (Nat.lt_succ_self level), fun hs y hy => ?_⟩
  have ht : taken (.removed level xs :: new) = xs ++ taken new := rfl
  rw [ht]
  simp only [List.mem_append, or_and_right, exists_or]
  rcases hk hs y hy with ⟨z, hz, hzy⟩ | h
  · cases ha : z.among xs with
    | false => exact .inl ⟨z, LiveGraph.mem_entities_drop.mpr ⟨hz, ha⟩, hzy⟩
    | true =>
      obtain ⟨w, hw, hwz⟩ := Entity.among_iff.mp ha
      refine .inr (.inl ⟨w, hw, ?_⟩)
      cases hn : w.isNode with
      | true => exact Entity.same_trans (Entity.same_of_is hwz hn) hzy
      | false =>
        -- A connection with the tag of one that was there at first is that one.
        have hws := hx w hw hn
        have htag : z.tag < s.live.fresh := Entity.tag_eq_of_is hwz ▸ hs.tag_lt w hws
        have hzn : z.isNode = false := Entity.isNode_eq_of_is hwz ▸ hn
        have hzs := ((hc.mem_iff htag hzn).mp hz).1
        rw [hs.eq_of_is hws hzs hwz]
        exact hzy
  · exact .inr (.inr h)

theorem removeEdge_keeping (hi : ∀ c s, (inner c).Obeys (keeping level) s) {p : Endpoint}
    (s : State L σ) : (removeEdge behaviour level inner p).Obeys (keeping (level + 1)) s := by
  refine Action.Obeys.live (Action.Obeys.record_bind ?_)
  refine Action.Obeys.imp (dismiss_keeping hi ?_) ?_
  · exact fun x hx _ => LiveGraph.mem_entities_of_entitiesAt hx
  · intro new e g h
    refine (keeping_endures (level + 1)).chains.trans ⟨.note .still ?_ rfl, fun _ y hy => ?_⟩ h
    · exact Nat.lt_succ_self level
    · simpa [additions, taken, Entry.taken] using hy

theorem removeNode_keeping (hi : ∀ c s, (inner c).Obeys (keeping level) s) {id : String}
    (s : State L σ) : (removeNode behaviour level inner id).Obeys (keeping (level + 1)) s := by
  have hl := keeping_endures (L := L) (level + 1)
  refine removeNode_obeys hl.chains (fun _ t _ => removeEdge_keeping hi t) (fun _ h => h)
    (fun _ => hl.still _ _) fun n t new _ h => ?_
  refine Action.Obeys.imp (dismiss_keeping hi ?_) (hl.chains.trans h)
  simp [Entity.isNode]

theorem emit_accounting {chosen : Entry L → Entity → Prop}
    (hi : ∀ c s, (inner c).Obeys (accounting chosen) s) {event : Event} {x : Entity}
    (s : State L σ) : (emit behaviour level inner event x).Obeys (accounting chosen) s :=
  emit_obeys (accounting_endures chosen) hi (fun _ _ _ h => by simp [taken, Entry.taken] at h)
    (fun _ _ _ h => by simp [taken, Entry.taken] at h) s

theorem dismiss_accounting {chosen : Entry L → Entity → Prop}
    (hi : ∀ c s, (inner c).Obeys (accounting chosen) s) {event : Event} {xs : List Entity}
    (s : State L σ) : (dismiss behaviour level inner event xs).Obeys (fun _ new _ _ =>
      ∀ x ∈ taken new, (∃ entry ∈ new, chosen entry x) ∨ x ∈ xs) s := by
  have hannounce : (xs.forM (emit behaviour level inner event)).Obeys (accounting chosen) s :=
    Action.Obeys.forM (accounting_endures chosen).chains xs (fun _ _ s => emit_accounting hi s) s
  refine dismiss_obeys hannounce (fun _ h x hx => .inl (h x hx)) ?_
  intro new g h x hx
  have ht : taken (.removed level xs :: new) = xs ++ taken new := rfl
  rw [ht, List.mem_append] at hx
  rcases hx with hx | hx
  · exact .inr hx
  · obtain ⟨entry, hm, hc⟩ := h x hx
    exact .inl ⟨entry, List.mem_cons_of_mem _ hm, hc⟩

/-- A removal at an endpoint takes what it finds there. The rest was asked for by listeners. -/
theorem removeEdge_accounting (hi : ∀ c s, (inner c).Obeys (accounting (Entry.Asks level)) s)
    {at? : Endpoint → Prop} {p : Endpoint} (hp : at? p) (s : State L σ) :
    (removeEdge behaviour level inner p).Obeys
      (accounting fun entry x => entry.Asks level x ∨ entry.Finds level at? x) s := by
  refine Action.Obeys.live (Action.Obeys.record_bind ((dismiss_accounting hi _).imp ?_))
  intro new e g h x hx
  rw [taken_append, List.mem_append] at hx
  rcases hx with hx | hx
  · rcases h x hx with ⟨entry, hm, hc⟩ | hx
    · exact ⟨entry, List.mem_append_left _ hm, .inl hc⟩
    · exact ⟨.removal level p s.live, by simp, .inr ⟨rfl, hp, hx⟩⟩
  · simp [taken, Entry.taken] at hx

/-- The removal of a node takes it, and what its removals at the ends of connections find. -/
theorem removeNode_accounting (hi : ∀ c s, (inner c).Obeys (accounting (Entry.Asks level)) s)
    {id : String} (s : State L σ) :
    (removeNode behaviour level inner id).Obeys (fun g new _ _ => ∀ x ∈ taken new,
      (∃ entry ∈ new, entry.Asks level x ∨ entry.Finds level (·.node = id) x) ∨
        ∃ n, g.find? id = some n ∧ x = .node n) s := by
  have hl := accounting_endures fun (entry : Entry L) x =>
    entry.Asks level x ∨ entry.Finds level (·.node = id) x
  refine removeNode_obeys hl.chains (fun p t hp => removeEdge_accounting hi hp t)
    (fun _ h x hx => .inl (h x hx)) (fun _ x hx => by simp [taken] at hx) ?_
  intro n t new hn h
  refine (dismiss_accounting hi t).imp fun {new' e g} h' x hx => ?_
  rw [taken_append, List.mem_append] at hx
  rcases hx with hx | hx
  · rcases h' x hx with ⟨entry, hm, hc⟩ | hx
    · exact .inl ⟨entry, List.mem_append_left _ hm, .inl hc⟩
    · exact .inr ⟨n, hn, List.mem_singleton.mp hx⟩
  · obtain ⟨entry, hm, hc⟩ := h x hx
    exact .inl ⟨entry, List.mem_append_right _ hm, hc⟩

variable [DecidableEq L]

theorem perform_keeping (hi : ∀ c s, (inner c).Obeys (keeping level) s) {c : Command L}
    (s : State L σ) : (perform behaviour level inner c).Obeys
      (keepingWith (level + 1) (c.addition s.live)) s := by
  refine perform_obeys (keepingWith (level + 1) (c.addition s.live)) ?_ ?_ ?_ ?_ ?_ ?_
  · rintro n rfl
    have hkeeping : keeping (level + 1) s.live [.notice n] .returned s.live :=
      ⟨.note .still trivial trivial, fun _ x hx => by simpa [additions, taken, Entry.taken] using hx⟩
    exact keepingWith_none hkeeping
  · rintro n new e g ⟨hc, hk⟩
    refine ⟨Course.trans (.note .still trivial trivial) hc, fun hs x hx => ?_⟩
    rw [additions_append] at hx
    simpa [taken_append, taken, Entry.taken] using hk hs x (by simpa [additions] using hx)
  · intro event x t he hx
    refine (emit_keeping hi t).imp ?_
    rintro new e g ⟨hc, hk⟩
    refine ⟨?_, fun hs y hy => ?_⟩
    · simpa only [List.append_nil] using Course.trans (.enter .still he) hc
    · refine hk (he.sound hs) y ?_
      rcases hy with (hy | hy) | hy
      · exact .inl (he.has hy)
      · exact .inr hy
      · rw [hx] at hy
        obtain rfl := Option.some.inj hy
        exact .inl (LiveGraph.has_of_mem (he.mem_iff.mpr (.inr rfl)))
  · rintro p rfl
    exact (removeEdge_keeping hi s).imp keepingWith_none
  · rintro id rfl
    exact (removeNode_keeping hi s).imp keepingWith_none
  · intro g ha
    have hkeeping : keeping (level + 1) s.live [] .returned g :=
      ⟨.adjust .still ha, fun _ x hx => by simpa [additions, taken] using hx.imp ha.has id⟩
    rw [ha.addition]
    exact keepingWith_none hkeeping

/-- Nothing is missing after an edit that the journal does not say has gone. -/
theorem edit_keeping (levels : Nat) (c : Command L) (s : State L σ) :
    (edit behaviour levels c).Obeys (keeping levels) s := by
  refine edit_obeys ?_ (fun level hi c s => ?_) levels c s
  · exact fun g => (keeping_endures 0).still g .unfinished
  refine (perform_keeping hi s).imp ?_
  rintro new e g ⟨hc, hk⟩
  refine ⟨Course.trans (.note .still (Nat.lt_succ_self level) rfl) hc, fun hs x hx => ?_⟩
  rw [additions_append, List.mem_append] at hx
  have hx : (s.live.Has x ∨ x ∈ additions new) ∨ c.addition s.live = some x := by
    simpa [additions, or_assoc] using hx
  simpa [taken_append, taken, Entry.taken] using hk hs x hx

/-- Whatever a command takes, it matches, or an edit of a listener asked for it. -/
theorem perform_accounting (hi : ∀ c s, (inner c).Obeys (accounting (Entry.Asks level)) s)
    {c : Command L} (s : State L σ) : (perform behaviour level inner c).Obeys (fun g new _ _ =>
      ∀ x ∈ taken new, (∃ entry ∈ new, entry.Asks (level + 1) x) ∨ c.Matches g x) s := by
  refine perform_obeys _ ?_ ?_ ?_ ?_ ?_ ?_
  · intro n _ x hx
    simp [taken, Entry.taken] at hx
  · intro n new e g h x hx
    rw [taken_append, List.mem_append] at hx
    rcases hx with hx | hx
    · rcases h x hx with ⟨entry, hm, hc⟩ | hc
      · exact .inl ⟨entry, List.mem_append_left _ hm, hc⟩
      · exact .inr hc
    · simp [taken, Entry.taken] at hx
  · intro event x t _ _
    refine (emit_accounting hi t).imp fun {new e g} h y hy => .inl ?_
    obtain ⟨entry, hm, hc⟩ := h y hy
    exact ⟨entry, hm, hc.succ⟩
  · rintro p rfl
    have hp : (· = p) p := rfl
    refine (removeEdge_accounting hi hp s).imp fun {new e g} h x hx => ?_
    obtain ⟨entry, hm, hc | hc⟩ := h x hx
    · exact .inl ⟨entry, hm, hc.succ⟩
    · obtain ⟨q, rfl, ht⟩ := hc.touches
      exact .inr ht
  · rintro id rfl
    refine (removeNode_accounting hi s).imp fun {new e g} h x hx => ?_
    rcases h x hx with ⟨entry, hm, hc | hc⟩ | ⟨n, hn, rfl⟩
    · exact .inl ⟨entry, hm, hc.succ⟩
    · obtain ⟨q, rfl, ht⟩ := hc.touches
      exact .inr (.inl (Entity.joins_of_touches ht))
    · exact .inr (.inr ⟨n, hn, Entity.is_self _⟩)
  · intro g _ x hx
    simp [taken] at hx

/-- Whatever an edit takes was asked for by it or by an edit of a listener. -/
theorem edit_accounting (levels : Nat) (c : Command L) (s : State L σ) :
    (edit behaviour levels c).Obeys (accounting (Entry.Asks levels)) s := by
  let law : Nat → Law L := fun n => accounting (Entry.Asks n)
  change Action.Obeys _ (law levels) s
  refine edit_obeys ?_ (fun level hi c s => ?_) levels c s
  · intro g x hx
    simp [taken] at hx
  refine (perform_accounting hi s).imp fun {new e g} h x hx => ?_
  rw [taken_append, List.mem_append] at hx
  rcases hx with hx | hx
  · rcases h x hx with ⟨entry, hm, hc⟩ | hc
    · exact ⟨entry, List.mem_append_left _ hm, hc⟩
    · exact ⟨.edit level c s.live, by simp, Nat.lt_succ_self level, hc⟩
  · simp [taken, Entry.taken] at hx

end

end FlowGraph.Live
