import FlowGraph.Proofs.Live.Watching

/-! Removing a node while listeners only watch. The connections of the node are announced group by
group, each group goes when it has been announced, and the node is announced last. -/

namespace FlowGraph.Live

variable {L σ ε : Type}

/-- The announcements of some groups. -/
def departing (groups : List (List Entity)) : List (Event × Entity) :=
  groups.flatten.map (.removeEdge, ·)

theorem departing_append (groups groups' : List (List Entity)) :
    departing (groups ++ groups') = departing groups ++ departing groups' := by
  simp [departing]

/-- The connections at some ports go, port by port. If a listener raises, those at the ports before
have gone, and the listener was being told of a connection at the next one. -/
structure Vacating (level : Nat) (steady : L → Bool) (raising : Prop) (ps : List Endpoint)
    (g : LiveGraph L) (new : List (Entry L)) (e : Ending) (g' : LiveGraph L) : Prop where
  listeners : ∀ event, (g'.listeners event).filter steady = (g.listeners event).filter steady
  finished : e ≠ .unfinished
  returned : e = .returned → g'.contents = g.contents.vacated ps ∧
    heard level steady new = deliveries g steady (departing (g.contents.removals ps))
  raised : e = .raised → raising ∧
    heard level steady new <+: deliveries g steady (departing (g.contents.removals ps)) ∧
    ∃ before p after x, ps = before ++ p :: after ∧ g'.contents = g.contents.vacated before ∧
      x ∈ g'.contents.connectionsAt p ∧ Interrupted level .removeEdge x new

section

variable {level : Nat} {steady : L → Bool} {raising : Prop} {new new' : List (Entry L)}
  {g g' g'' : LiveGraph L} {e : Ending} {ps qs : List Endpoint}

theorem Vacating.still (g : LiveGraph L) : Vacating level steady raising [] g [] .returned g where
  listeners _ := rfl
  finished := by decide
  returned _ := ⟨g.contents.vacated_nil.symm, rfl⟩
  raised he := by cases he

theorem Vacating.trans (h : Vacating level steady raising ps g new .returned g')
    (h' : Vacating level steady raising qs g' new' e g'') :
    Vacating level steady raising (ps ++ qs) g (new' ++ new) e g'' := by
  obtain ⟨hcontents, hheard⟩ := h.returned rfl
  have hplan : deliveries g steady (departing (g.contents.removals (ps ++ qs))) =
      deliveries g steady (departing (g.contents.removals ps)) ++
        deliveries g' steady (departing (g'.contents.removals qs)) := by
    rw [Contents.removals_append, departing_append, deliveries_append, hcontents,
      deliveries_congr h.listeners]
  refine ⟨fun event => (h'.listeners event).trans (h.listeners event), h'.finished, fun he => ?_,
    fun he => ?_⟩
  · obtain ⟨hcontents', hheard'⟩ := h'.returned he
    rw [heard_append, hheard, hheard', hplan, hcontents', hcontents, Contents.vacated_vacated]
    exact ⟨rfl, rfl⟩
  · obtain ⟨hr, hp, before, p, after, x, rfl, hcontents', hx, hi⟩ := h'.raised he
    rw [heard_append, hheard, hplan]
    refine ⟨hr, (List.prefix_append_right_inj _).mpr hp, ps ++ before, p, after, x, ?_, ?_, hx,
      hi.append new⟩
    · rw [List.append_assoc]
    · rw [hcontents', hcontents, Contents.vacated_vacated]

theorem Vacating.stop (he : e ≠ .returned) (h : Vacating level steady raising ps g new e g')
    (qs : List Endpoint) : Vacating level steady raising (ps ++ qs) g new e g' := by
  refine ⟨h.listeners, h.finished, fun he' => absurd he' he, fun he' => ?_⟩
  obtain ⟨hr, hp, before, p, after, x, rfl, hcontents, hx, hi⟩ := h.raised he'
  rw [Contents.removals_append, departing_append, deliveries_append]
  refine ⟨hr, hp.trans (List.prefix_append _ _), before, p, after ++ qs, x, ?_, hcontents, hx, hi⟩
  rw [List.append_assoc, List.cons_append]

end

section

variable [DecidableEq L] {behaviour : Behaviour L σ ε} {level : Nat} {steady : L → Bool}
  {raising : Prop}

theorem removeEdge_vacating {s : State L σ}
    (hls : ∀ g : LiveGraph L,
      (∀ event, (g.listeners event).filter steady = (s.live.listeners event).filter steady) →
        ∀ l ∈ g.listeners .removeEdge, behaviour.WatchesAs level steady raising l)
    (p : Endpoint) (hd : s.live.contents.Distinct) :
    (removeEdge behaviour level (edit behaviour level) p).Obeys
      (Vacating level steady raising [p]) s := by
  have hplan : departing (s.live.contents.removals [p]) =
      (s.live.entitiesAt p).map (.removeEdge, ·) := by
    rw [s.live.entitiesAt_eq, departing, Contents.removals, Contents.removals, List.flatten_cons,
      List.flatten_nil, List.append_nil]
  have hheard (new : List (Entry L)) :
      heard level steady (new ++ [.removal level p s.live]) = heard level steady new := by
    rw [heard_append]
    rfl
  let t : State L σ := { s with journal := .removal level p s.live :: s.journal }
  refine Action.Obeys.live (Action.Obeys.record_bind
    (dismiss_obeys (announce_telling (s := t) hls _) ?_ ?_))
  · intro new e g he h
    refine ⟨h.listeners, h.finished, fun he' => absurd he' he, fun he' => ?_⟩
    obtain ⟨hr, hp, event, x, ⟨rfl, hx⟩, hi⟩ := h.raised he'
    rw [hheard, hplan]
    refine ⟨hr, hp, [], p, [], x, rfl, ?_, ?_, hi.append _⟩
    · rw [h.contents, Contents.vacated_nil]
    · rw [h.contents, ← LiveGraph.entitiesAt_eq]
      exact hx
  · intro new g h
    refine ⟨h.listeners, by decide, fun _ => ⟨?_, ?_⟩, fun he => by cases he⟩
    · rw [LiveGraph.contents_drop, h.contents, LiveGraph.entitiesAt_eq]
      exact hd.drop_connectionsAt p
    · rw [hheard, hplan, heard_removed, h.told rfl]

theorem removeEdges_vacating (hw : behaviour.Watches level steady raising) (ps : List Endpoint)
    {s : State L σ} (hd : s.live.contents.Distinct) :
    (ps.forM (removeEdge behaviour level (edit behaviour level))).Obeys
      (Vacating level steady raising ps) s := by
  induction ps generalizing s with
  | nil => exact ⟨[], rfl, .still _⟩
  | cons p ps ih =>
    refine (removeEdge_vacating (fun _ _ l _ => hw.as l) p hd).seq (fun _ t new ht => ?_) fun he h => h.stop he ps
    have hdistinct : t.live.contents.Distinct := (ht.returned rfl).1 ▸ hd.vacated [p]
    exact (ih hdistinct).imp ht.trans

end

/-! The loops over the connections of a node are loops over its ports. -/

section

variable {behaviour : Behaviour L σ ε} {level : Nat} {inner : Command L → Action L σ ε Reply}

theorem detachEdge_eq (id : String) (e : Tagged Edge) :
    detachEdge behaviour level inner id e =
      ([e.value.source, e.value.target].filter (·.node = id)).forM
        (removeEdge behaviour level inner) := by
  unfold detachEdge
  by_cases hs : e.value.source.node = id
  · by_cases ht : e.value.target.node = id
    · simp [hs, ht]
    · simp [hs, ht]
  · by_cases ht : e.value.target.node = id
    · simp [hs, ht]
    · simp [hs, ht]

theorem forM_append {γ : Type} (f : γ → Action L σ ε PUnit) (xs ys : List γ) :
    (xs ++ ys).forM f = xs.forM f >>= fun _ => ys.forM f :=
  List.forM_append

theorem forM_detachEdge (id : String) (es : List (Tagged Edge)) :
    es.forM (detachEdge behaviour level inner id) =
      ((es.flatMap fun e => [e.value.source, e.value.target]).filter (·.node = id)).forM
        (removeEdge behaviour level inner) := by
  induction es with
  | nil => rfl
  | cons e es ih =>
    rw [List.flatMap_cons, List.filter_append, forM_append, ← detachEdge_eq, ← ih]
    rfl

theorem forM_detachInitializer (id : String) (is : List (Tagged Initializer)) :
    is.forM (detachInitializer behaviour level inner id) =
      ((is.map (·.value.target)).filter (·.node = id)).forM (removeEdge behaviour level inner) := by
  induction is with
  | nil => rfl
  | cons i is ih =>
    have hone : detachInitializer behaviour level inner id i =
        ([i.value.target].filter (·.node = id)).forM (removeEdge behaviour level inner) := by
      unfold detachInitializer
      by_cases h : i.value.target.node = id
      · simp [h]
      · simp [h]
    have hsplit : ((i :: is).map (·.value.target)).filter (·.node = id) =
        [i.value.target].filter (·.node = id) ++ (is.map (·.value.target)).filter (·.node = id) :=
      List.filter_append [i.value.target] _
    rw [hsplit, forM_append, ← hone, ← ih]
    rfl

end

/-! The removal of a node. -/

/-- What is announced when a node is removed: its connections, group by group, and then the node. -/
def dismissals (c : Contents) (id : String) (n : Tagged Node) : List (Event × Entity) :=
  departing (c.groups id) ++ [(.removeNode, .node n)]

/-- A node goes with its connections. If a listener raises, the connections at the ports before have
gone, or all of them if the listener was being told of the node. -/
structure Unwiring (level : Nat) (steady : L → Bool) (raising : Prop) (id : String)
    (n : Tagged Node) (g : LiveGraph L) (new : List (Entry L)) (e : Ending) (g' : LiveGraph L) : Prop where
  finished : e ≠ .unfinished
  returned : e = .returned → g'.contents = g.contents.without id ∧
    heard level steady new = deliveries g steady (dismissals g.contents id n)
  raised : e = .raised → raising ∧
    heard level steady new <+: deliveries g steady (dismissals g.contents id n) ∧
    ((∃ before p after x, (g.contents.ends id).eraseDups = before ++ p :: after ∧
      g'.contents = g.contents.vacated before ∧ x ∈ g'.contents.connectionsAt p ∧
      Interrupted level .removeEdge x new) ∨
    g'.contents = g.contents.vacated (g.contents.ends id) ∧
      Interrupted level .removeNode (.node n) new)

section

variable {level : Nat} {steady : L → Bool} {raising : Prop} {new new' : List (Entry L)}
  {g g' g'' : LiveGraph L} {e : Ending} {ps : List Endpoint} {id : String} {n : Tagged Node}

/-- If no listener may raise, the removal returns. -/
theorem Unwiring.ending_eq (h : Unwiring level steady False id n g new e g') : e = .returned := by
  cases e with
  | returned => rfl
  | raised => exact (h.raised rfl).1.elim
  | unfinished => exact absurd rfl h.finished

theorem departing_removals {c : Contents} (h : ps.eraseDups = (c.ends id).eraseDups) :
    departing (c.removals ps) = departing (c.groups id) := by
  rw [departing, departing, Contents.groups_eq_removals, ← h,
    ← Contents.flatten_removals_eraseDups]

/-- A port that comes up for the first time stays where it is when repetitions are left out. -/
theorem exists_eraseDups {before : List Endpoint} {p : Endpoint} (h : p ∉ before)
    (after : List Endpoint) :
    ∃ rest, (before ++ p :: after).eraseDups = before.eraseDups ++ p :: rest := by
  have hkeep : (p :: after).removeAll before = p :: after.removeAll before :=
    List.filter_cons_of_pos (by simpa using h)
  rw [List.eraseDups_append, hkeep, List.eraseDups_cons]
  exact ⟨_, rfl⟩

theorem Vacating.unwiring (h : Vacating level steady raising ps g new e g') (he : e ≠ .returned)
    (hps : ps.eraseDups = (g.contents.ends id).eraseDups) (n : Tagged Node) :
    Unwiring level steady raising id n g new e g' := by
  refine ⟨h.finished, fun he' => absurd he' he, fun he' => ?_⟩
  obtain ⟨hr, hp, before, p, after, x, rfl, hcontents, hx, hi⟩ := h.raised he'
  rw [departing_removals hps] at hp
  have hfirst : p ∉ before := by
    intro hm
    rw [hcontents, Contents.connectionsAt_vacated_of_mem hm] at hx
    cases hx
  obtain ⟨rest, hrest⟩ := exists_eraseDups hfirst after
  refine ⟨hr, ?_, .inl ⟨before.eraseDups, p, rest, x, hps ▸ hrest, ?_, hx, hi⟩⟩
  · rw [dismissals, deliveries_append]
    exact hp.trans (List.prefix_append _ _)
  · rw [hcontents, Contents.vacated_eraseDups]

end

section

variable [DecidableEq L] {behaviour : Behaviour L σ ε} {level : Nat} {steady : L → Bool}
  {raising : Prop}

theorem removeNode_unwiring (hw : behaviour.Watches level steady raising) {id : String}
    {n : Tagged Node} {s : State L σ} (hd : s.live.contents.Distinct)
    (hn : s.live.find? id = some n) :
    (removeNode behaviour level (edit behaviour level) id).Obeys
      (Unwiring level steady raising id n) s := by
  have hedges := removeEdges_vacating hw (s.live.contents.edgeEnds id) hd
  have hends := s.live.contents.eraseDups_ends id
  refine Action.Obeys.live ?_
  rw [hn]
  refine Action.Obeys.live ?_
  rw [forM_detachEdge]
  refine hedges.seq (fun _ t new ht => Action.Obeys.live ?_) fun he h =>
    (h.stop he _).unwiring he hends n
  have hcontents := (ht.returned rfl).1
  have hdistinct : t.live.contents.Distinct := hcontents ▸ hd.vacated _
  rw [← hcontents] at hends
  rw [forM_detachInitializer]
  refine (removeEdges_vacating hw (t.live.contents.packetEnds id) hdistinct).seq
    (fun _ u new' hu => ?_) fun he h => (ht.trans h).unwiring he hends n
  have hall := ht.trans hu
  obtain ⟨hvacated, hheard⟩ := hall.returned rfl
  rw [departing_removals hends] at hheard
  have hgone : u.live.contents = s.live.contents.vacated (s.live.contents.ends id) := by
    rw [hvacated, ← Contents.vacated_eraseDups, hends, Contents.vacated_eraseDups]
  have hlast := deliveries_congr hall.listeners ([.node n].map (.removeNode, ·))
  have hplan : deliveries s.live steady (dismissals s.live.contents id n) =
      heard level steady (new' ++ new) ++
        deliveries u.live steady ([.node n].map (.removeNode, ·)) := by
    rw [dismissals, deliveries_append, hheard, hlast]
    rfl
  refine dismiss_obeys (announce_telling (fun _ _ l _ => hw.as l) [.node n]) ?_ ?_
  · intro new'' e g he h
    refine ⟨h.finished, fun he' => absurd he' he, fun he' => ?_⟩
    obtain ⟨hr, hp, event, x, ⟨rfl, hx⟩, hi⟩ := h.raised he'
    obtain rfl := List.mem_singleton.mp hx
    rw [List.append_assoc, heard_append, hplan]
    exact ⟨hr, (List.prefix_append_right_inj _).mpr hp, .inr ⟨h.contents.trans hgone, hi.append _⟩⟩
  · intro new'' g h
    refine ⟨by decide, fun _ => ⟨?_, ?_⟩, fun he => by cases he⟩
    · rw [LiveGraph.contents_drop, h.contents, hgone]
      exact hd.drop_node hn
    · rw [hplan, ← h.told rfl, List.append_assoc, heard_append, heard_removed]

end

end FlowGraph.Live
