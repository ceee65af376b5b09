import FlowGraph.Proofs.Live.Course

/-! What a listener is told, and the lists that it can keep by it. A recorder only looks on, and
is subscribed to all events before all others. The lists that it keeps are those of the graph
without what it has been told is to go. -/

namespace FlowGraph.Live

structure Contents where
  nodes : List (Tagged Node)
  edges : List (Tagged Edge)
  initializers : List (Tagged Initializer)

namespace Contents

def put (c : Contents) : Entity → Contents
  | .node n => { c with nodes := c.nodes ++ [n] }
  | .edge e => { c with edges := c.edges ++ [e] }
  | .initializer i => { c with initializers := c.initializers ++ [i] }

def drop (c : Contents) (xs : List Entity) : Contents where
  nodes := c.nodes.filter fun n => !(Entity.node n).among xs
  edges := c.edges.filter fun e => !(Entity.edge e).among xs
  initializers := c.initializers.filter fun i => !(Entity.initializer i).among xs

def follow (c : Contents) (told : Event × Entity) : Contents :=
  if told.1.isRemoval then c.drop [told.2] else c.put told.2

def replay (c : Contents) (told : List (Event × Entity)) : Contents :=
  told.foldl follow c

theorem drop_nil (c : Contents) : c.drop [] = c := by
  simp [drop, Entity.among]

theorem drop_drop (c : Contents) (xs ys : List Entity) :
    (c.drop xs).drop ys = c.drop (xs ++ ys) := by
  simp only [drop, List.filter_filter, Entity.among_append, Bool.not_or, Bool.and_comm]

theorem put_drop (c : Contents) {x : Entity} {xs : List Entity} (h : x.among xs = false) :
    (c.put x).drop xs = (c.drop xs).put x := by
  cases x <;> simp [put, drop, h]

theorem replay_concat (c : Contents) (told : List (Event × Entity)) (event : Event) (x : Entity) :
    c.replay (told ++ [(event, x)]) =
      if event.isRemoval then (c.replay told).drop [x] else (c.replay told).put x := by
  simp [replay, follow]

end Contents

end FlowGraph.Live

namespace FlowGraph.LiveGraph

open Live

variable {L : Type} {g g' : LiveGraph L}

def contents (g : LiveGraph L) : Contents where
  nodes := g.nodes
  edges := g.edges
  initializers := g.initializers

theorem contents_drop (g : LiveGraph L) (xs : List Entity) :
    (g.drop xs).contents = g.contents.drop xs := rfl

theorem Enters.contents {event : Event} {x : Entity} (h : g.Enters event x g') :
    g'.contents = g.contents.put x := by
  cases h <;> rfl

/-- One listener comes before all others, and is called only once for each event. -/
def Attended (g : LiveGraph L) (r : L) : Prop :=
  ∀ event, ∃ others, g.listeners event = r :: others ∧ r ∉ others

theorem listeners_eq_of_subscriptions (h : g'.subscriptions = g.subscriptions) (event : Event) :
    g'.listeners event = g.listeners event := by
  simp only [listeners, h]

theorem listeners_subscribe (g : LiveGraph L) (event e : Event) (l : L) :
    (g.subscribe event l).listeners e =
      g.listeners e ++ if event = e then [l] else [] := by
  by_cases h : event = e <;> simp [listeners, subscribe, h]

theorem listeners_unsubscribe [DecidableEq L] (g : LiveGraph L) (event e : Event) (l : L) :
    (g.unsubscribe event l).listeners e =
      (g.listeners e).filter fun other => (e, other) ≠ (event, l) := by
  simp only [listeners, unsubscribe, List.filter_map, List.filter_filter]
  congr 1
  apply List.filter_congr
  rintro ⟨event', l'⟩ -
  by_cases he : event' = e
  · simp [he]
  · simp [beq_eq_false_iff_ne.mpr he]

theorem Attended.subscribe {r l : L} (h : g.Attended r) (hl : l ≠ r) (event : Event) :
    (g.subscribe event l).Attended r := by
  intro e
  obtain ⟨others, he, hr⟩ := h e
  refine ⟨others ++ if event = e then [l] else [], ?_, ?_⟩
  · rw [listeners_subscribe, he, List.cons_append]
  · have hne : r ≠ l := fun h => hl h.symm
    split <;> simp [hr, hne]

theorem Attended.unsubscribe [DecidableEq L] {r l : L} (h : g.Attended r) (hl : l ≠ r)
    (event : Event) : (g.unsubscribe event l).Attended r := by
  intro e
  obtain ⟨others, he, hr⟩ := h e
  have hne : r ≠ l := fun h => hl h.symm
  refine ⟨others.filter fun other => (e, other) ≠ (event, l), ?_, ?_⟩
  · rw [listeners_unsubscribe, he, List.filter_cons_of_pos (by simp [hne])]
  · exact fun hm => hr (List.mem_filter.mp hm).1

end FlowGraph.LiveGraph

namespace FlowGraph.Live

variable {L σ ε : Type}

/-- A listener that only looks on, though it may keep what it sees. -/
def Behaviour.Observes (behaviour : Behaviour L σ ε) (r : L) : Prop :=
  ∀ x g memory, ∃ memory', behaviour r x g memory = .done memory' ()

/-- Commands that leave a listener's subscriptions alone, and what it knows of the entities. -/
def Command.Spares (r : L) : Command L → Prop
  | .subscribe _ l => l ≠ r
  | .unsubscribe _ l => l ≠ r
  | .setDisplay _ _ => False
  | _ => True

def Entry.Spares (r : L) : Entry L → Prop
  | .edit _ c _ => c.Spares r
  | _ => True

instance [DecidableEq L] (r : L) : (c : Command L) → Decidable (c.Spares r)
  | .subscribe _ l => inferInstanceAs (Decidable (l ≠ r))
  | .unsubscribe _ l => inferInstanceAs (Decidable (l ≠ r))
  | .setDisplay _ _ => .isFalse id
  | .addNode _ | .removeNode _ | .addEdge _ | .removeEdge _ | .addInitial _ | .rename _
  | .report _ => .isTrue trivial

instance [DecidableEq L] (r : L) : (entry : Entry L) → Decidable (entry.Spares r)
  | .edit _ c _ => inferInstanceAs (Decidable (c.Spares r))
  | .notice _ | .removal _ _ _ | .removed _ _ | .call _ _ | .failed _ _ => .isTrue trivial

def Entry.announcement [DecidableEq L] (r : L) : Entry L → Option (Event × Entity)
  | .call _ c => if c.listener = r then some (c.event, c.entity) else none
  | _ => none

/-- What a listener has been told, the oldest first. -/
def announcements [DecidableEq L] (r : L) (entries : List (Entry L)) : List (Event × Entity) :=
  entries.reverse.filterMap (Entry.announcement r)

/-- Whatever has been announced to go. -/
def departures (told : List (Event × Entity)) : List Entity :=
  (told.filter (·.1.isRemoval)).map (·.2)

theorem announcements_append [DecidableEq L] (r : L) (new old : List (Entry L)) :
    announcements r (new ++ old) = announcements r old ++ announcements r new := by
  simp [announcements]

theorem announcements_call_of_ne [DecidableEq L] {r l : L} (h : l ≠ r) (level : Nat)
    (event : Event) (x : Entity) (g : LiveGraph L) :
    announcements r [.call level ⟨event, l, x, g⟩] = [] := by
  simp [announcements, Entry.announcement, h]

theorem announcements_call_self [DecidableEq L] {r : L} (level : Nat) (event : Event)
    (x : Entity) (g : LiveGraph L) :
    announcements r [.call level ⟨event, r, x, g⟩] = [(event, x)] := by
  simp [announcements, Entry.announcement]

theorem departures_append (told told' : List (Event × Entity)) :
    departures (told ++ told') = departures told ++ departures told' := by
  simp [departures]

/-- A recorder has seen to it that its lists are those of the graph without what is to go. -/
structure Tracks (r : L) (c : Contents) (told : List (Event × Entity)) (g : LiveGraph L) :
    Prop where
  sound : g.Sound
  attended : g.Attended r
  tag_lt : ∀ x ∈ departures told, x.tag < g.fresh
  replay_eq : c.replay told = g.contents.drop (departures told)

namespace Tracks

variable {r : L} {c : Contents} {told : List (Event × Entity)} {g g' : LiveGraph L}

theorem start (hs : g.Sound) (ha : g.Attended r) : Tracks r g.contents [] g where
  sound := hs
  attended := ha
  tag_lt := by simp [departures]
  replay_eq := (Contents.drop_nil _).symm

theorem enter (h : Tracks r c told g) {event : Event} {x : Entity} (he : g.Enters event x g') :
    Tracks r c (told ++ [(event, x)]) g' := by
  have hd : departures (told ++ [(event, x)]) = departures told := by
    simp [departures, he.isRemoval]
  -- The tag of a new entity is unlike those of all that was to go.
  have hx : x.among (departures told) = false := by
    apply Bool.eq_false_iff.mpr
    rw [ne_eq, Entity.among_iff]
    rintro ⟨y, hy, hyx⟩
    have hlt := h.tag_lt y hy
    rw [Entity.tag_eq_of_is hyx, he.tag] at hlt
    omega
  refine ⟨he.sound h.sound, ?_, ?_, ?_⟩
  · intro e
    rw [LiveGraph.listeners_eq_of_subscriptions he.subscriptions]
    exact h.attended e
  · intro y hy
    rw [hd] at hy
    have := h.tag_lt y hy
    rw [he.fresh]
    omega
  · rw [Contents.replay_concat, he.isRemoval, hd, he.contents, Contents.put_drop _ hx, h.replay_eq]
    rfl

theorem announce (h : Tracks r c told g) {event : Event} (he : event.isRemoval = true)
    {x : Entity} (hx : x.tag < g.fresh) : Tracks r c (told ++ [(event, x)]) g := by
  have hd : departures (told ++ [(event, x)]) = departures told ++ [x] := by
    simp [departures, he]
  refine ⟨h.sound, h.attended, ?_, ?_⟩
  · intro y hy
    rw [hd, List.mem_append, List.mem_singleton] at hy
    rcases hy with hy | rfl
    · exact h.tag_lt y hy
    · exact hx
  · rw [Contents.replay_concat, he, hd, ← Contents.drop_drop, h.replay_eq]
    rfl

theorem adjust (h : Tracks r c told g) {command : Command L} (ha : g.Adjusts command g')
    (hc : command.Spares r) : Tracks r c told g' := by
  refine ⟨ha.sound h.sound, ?_, ?_, ?_⟩
  · cases ha with
    | subscribe event l => exact h.attended.subscribe hc event
    | unsubscribe event l => exact h.attended.unsubscribe hc event
    | rename name => exact h.attended
    | setDisplay id display => exact hc.elim
  · rw [ha.fresh]
    exact h.tag_lt
  · rw [h.replay_eq]
    cases ha with
    | setDisplay id display => exact hc.elim
    | _ => rfl

theorem drop (h : Tracks r c told g) {xs : List Entity} (hx : ∀ x ∈ xs, x ∈ departures told) :
    Tracks r c told (g.drop xs) := by
  refine ⟨h.sound.drop xs, h.attended, h.tag_lt, ?_⟩
  have hsub (y : Entity) : y.among (xs ++ departures told) = y.among (departures told) := by
    rw [Entity.among_append, Bool.or_eq_right_iff_imp]
    intro hy
    obtain ⟨z, hz, hzy⟩ := Entity.among_iff.mp hy
    exact Entity.among_iff.mpr ⟨z, hx z hz, hzy⟩
  rw [h.replay_eq, LiveGraph.contents_drop, Contents.drop_drop]
  simp only [Contents.drop, hsub]

end Tracks

end FlowGraph.Live
