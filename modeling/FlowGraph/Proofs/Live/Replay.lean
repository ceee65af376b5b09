import FlowGraph.Proofs.Live.Failure
import FlowGraph.Proofs.Live.Reachability
import FlowGraph.Proofs.Live.Tracking

/-! Replaying what a recorder was told gives the graph again. While no listener fails, whatever
was announced to go has gone when the edit from outside ends; when one fails, something that was
announced may stay, and the lists of the recorder lack it. -/

namespace FlowGraph.Live

variable {L σ ε : Type}

/-- What a listener was told is to go has gone, unless it is one of those still pending. -/
def settling [DecidableEq L] (r : L) (pending : List Entity) (n : Nat) : Law L :=
  fun g new e g' => Course n g new g' ∧ (g.Sound → Untroubled new → e ≠ .unfinished →
    ∀ x ∈ departures (announcements r new), x ∈ pending ∨ x.tag < g'.fresh ∧ g'.holds x = false)

theorem settling_endures [DecidableEq L] (r : L) (pending : List Entity) (n : Nat) :
    (settling r pending n).Endures where
  still _ _ := ⟨.still, fun _ _ _ x hx => by simp [departures, announcements] at hx⟩
  trans := by
    rintro g g' g'' new new' e e' he ⟨hc, hx⟩ ⟨hc', hx'⟩
    refine ⟨hc.trans hc', fun hs hu he' x hm => ?_⟩
    obtain ⟨hu', hu⟩ := untroubled_append.mp hu
    rw [announcements_append, departures_append, List.mem_append] at hm
    rcases hm with hm | hm
    · rcases hx hs hu he x hm with hp | ⟨ht, hg⟩
      · exact .inl hp
      · have hle := hc'.fresh_le
        exact .inr ⟨by omega, by rw [hc'.holds_eq ht, hg, Bool.false_and]⟩
    · exact hx' (hc.sound hs) hu' he' x hm

section

variable {behaviour : Behaviour L σ ε} {level : Nat} {inner : Command L → Action L σ ε Reply}
  {r : L} [DecidableEq L]

theorem emit_settling (hi : ∀ c s, (inner c).Obeys (settling r [] level) s) {event : Event}
    {x : Entity} {pending : List Entity} (hx : event.isRemoval = true → x ∈ pending)
    (s : State L σ) :
    (emit behaviour level inner event x).Obeys (settling r pending (level + 1)) s := by
  refine emit_obeys (settling_endures r pending (level + 1)) ?_ ?_ ?_ s
  · refine fun c s => (hi c s).imp fun h => ⟨h.1.mono (by omega), fun hs hu he y hy => ?_⟩
    exact (h.2 hs hu he y hy).imp (by simp) id
  · refine fun g l => ⟨.note .still (Nat.lt_succ_self level) rfl, fun _ _ _ y hy => .inl ?_⟩
    by_cases hl : l = r
    · subst hl
      rw [announcements_call_self] at hy
      obtain ⟨⟨event', y'⟩, hm, rfl⟩ := List.mem_map.mp hy
      obtain ⟨hm, hr⟩ := List.mem_filter.mp hm
      obtain ⟨rfl, rfl⟩ := Prod.mk.inj (List.mem_singleton.mp hm)
      exact hx hr
    · simp [announcements_call_of_ne hl, departures] at hy
  · refine fun g l => ⟨.note .still (Nat.lt_succ_self level) trivial, fun _ hu => ?_⟩
    exact absurd (hu _ (List.mem_singleton_self _)) (by simp [Entry.isFailed])

theorem dismiss_settling (hi : ∀ c s, (inner c).Obeys (settling r [] level) s)
    (hb : ∀ c s, (inner c).Obeys blaming s) {event : Event} {xs : List Entity} {s : State L σ}
    (hx : ∀ x ∈ xs, x.tag < s.live.fresh) :
    (dismiss behaviour level inner event xs).Obeys (settling r [] (level + 1)) s := by
  have hannounce : (xs.forM (emit behaviour level inner event)).Obeys
      (settling r xs (level + 1)) s :=
    Action.Obeys.forM (settling_endures r xs (level + 1)).chains xs
      (fun x hm s => emit_settling hi (fun _ => hm) s) s
  refine dismiss_obeys (hannounce.and (announce_blames hb xs s)) ?_ ?_
  · rintro new e g hne ⟨⟨hc, -⟩, hb⟩
    refine ⟨hc, fun _ hu he => ?_⟩
    cases e with
    | returned => exact absurd rfl hne
    | raised => exact absurd hu (hb rfl)
    | unfinished => exact absurd rfl he
  · rintro new g ⟨⟨hc, h⟩, -⟩
    refine ⟨hc.remove (Nat.lt_succ_self level), fun hs hu _ x hm => .inr ?_⟩
    have hle := hc.fresh_le
    have ha : announcements r (.removed level xs :: new) = announcements r new := by
      simp [announcements, Entry.announcement]
    rw [ha] at hm
    rw [LiveGraph.holds_drop]
    rcases h hs (fun entry hm => hu entry (by simp [hm])) (by simp) x hm with hp | ⟨ht, hg⟩
    · have hlt := hx x hp
      exact ⟨Nat.lt_of_lt_of_le hlt hle, by simp [Entity.among_of_mem hp]⟩
    · exact ⟨ht, by simp [hg]⟩

theorem removeEdge_settling (hi : ∀ c s, (inner c).Obeys (settling r [] level) s)
    (hb : ∀ c s, (inner c).Obeys blaming s) {p : Endpoint} (s : State L σ) :
    (removeEdge behaviour level inner p).Obeys (settling r [] (level + 1)) s := by
  have hcourse : Course (level + 1) s.live [.removal level p s.live] s.live :=
    .note .still (Nat.lt_succ_self level) rfl
  by_cases hs : s.live.Sound
  · have hx : ∀ x ∈ s.live.entitiesAt p, x.tag < s.live.fresh :=
      fun x hm => hs.tag_lt x (LiveGraph.mem_entities_of_entitiesAt hm)
    refine Action.Obeys.live (Action.Obeys.record_bind ?_)
    refine Action.Obeys.imp (dismiss_settling hi hb ?_) ?_
    · exact hx
    rintro new e g ⟨hc, h⟩
    refine ⟨hcourse.trans hc, fun _ hu he x hm => ?_⟩
    rw [announcements_append] at hm
    exact h hs (untroubled_append.mp hu).1 he x hm
  · refine (removeEdge_course (fun c s => (hi c s).imp And.left) s).imp fun {new e g} hc => ?_
    exact ⟨hc, fun h => absurd h hs⟩

theorem removeNode_settling (hi : ∀ c s, (inner c).Obeys (settling r [] level) s)
    (hb : ∀ c s, (inner c).Obeys blaming s) {id : String} (s : State L σ) :
    (removeNode behaviour level inner id).Obeys (settling r [] (level + 1)) s := by
  have hl := settling_endures r [] (level + 1)
  by_cases hs : s.live.Sound
  · refine removeNode_obeys hl.chains (fun _ t _ => removeEdge_settling hi hb t) (fun _ h => h)
      (fun _ => hl.still _ _) ?_
    intro n t new hn ht
    have hmem := LiveGraph.mem_entities_node.mpr (List.mem_of_find?_eq_some hn)
    have hx : ∀ x ∈ [Entity.node n], x.tag < t.live.fresh := by
      intro x hm
      rw [List.mem_singleton.mp hm]
      exact Nat.lt_of_lt_of_le (hs.tag_lt _ hmem) ht.1.fresh_le
    exact (dismiss_settling hi hb hx).imp (hl.trans (by simp) ht)
  · refine (removeNode_course (fun c s => (hi c s).imp And.left) s).imp fun {new e g} hc => ?_
    exact ⟨hc, fun h => absurd h hs⟩

theorem edit_settling (levels : Nat) (c : Command L) (s : State L σ) :
    (edit behaviour levels c).Obeys (settling r [] levels) s := by
  refine edit_obeys ?_ (fun level hi c s => ?_) levels c s
  · exact fun g => (settling_endures r [] 0).still g .unfinished
  have hb : ∀ c s, (edit behaviour level c).Obeys blaming s := edit_blames level
  have hnotice (n : Notice) : settling r [] (level + 1) s.live [.notice n] .returned s.live :=
    ⟨.note .still trivial trivial, fun _ _ _ x hx => by
      simp [announcements, Entry.announcement, departures] at hx⟩
  refine (perform_obeys (settling r [] (level + 1)) ?_ ?_ ?_ ?_ ?_ ?_).imp ?_
  · exact fun n _ => hnotice n
  · exact fun n => (settling_endures r [] (level + 1)).chains.trans (hnotice n)
  · rintro event x t he -
    have hx : event.isRemoval = true → x ∈ [] := by simp [he.isRemoval]
    refine (emit_settling hi hx t).imp ?_
    rintro new e g ⟨hc, h⟩
    refine ⟨by simpa only [List.append_nil] using Course.trans (.enter .still he) hc, ?_⟩
    exact fun hs => h (he.sound hs)
  · exact fun p _ => removeEdge_settling hi hb s
  · exact fun id _ => removeNode_settling hi hb s
  · exact fun ha => ⟨.adjust .still ha, fun _ _ _ x hx => by
      simp [announcements, departures] at hx⟩
  · rintro new e g ⟨hc, h⟩
    refine ⟨Course.trans (.note .still (Nat.lt_succ_self level) rfl) hc, fun hs hu he x hm => ?_⟩
    rw [announcements_append] at hm
    exact h hs (untroubled_append.mp hu).1 he x hm

end

theorem Contents.drop_of_absent {g : LiveGraph L} {xs : List Entity}
    (h : ∀ x ∈ xs, g.holds x = false) : g.contents.drop xs = g.contents := by
  have hkeep : ∀ x ∈ g.entities, (!x.among xs) = true := by
    intro x hx
    rw [Bool.not_eq_true', Bool.eq_false_iff, ne_eq, Entity.among_iff]
    rintro ⟨y, hy, hyx⟩
    have hy := h y hy
    rw [Bool.eq_false_iff, ne_eq, LiveGraph.holds_iff] at hy
    exact hy ⟨x, hx, by rw [Entity.is_comm]; exact hyx⟩
  simp only [drop, LiveGraph.contents, Contents.mk.injEq, List.filter_eq_self]
  refine ⟨fun n hn => hkeep _ ?_, fun e he => hkeep _ ?_, fun i hi => hkeep _ ?_⟩
  · exact LiveGraph.mem_entities_node.mpr hn
  · exact LiveGraph.mem_entities_edge.mpr he
  · exact LiveGraph.mem_entities_initializer.mpr hi

/-- The announcements to a recorder give the graph again, in its order, as long as no listener has
raised. If some have, the lists that they give are still sublists of those of the graph. -/
theorem replay_announcements [DecidableEq L] {behaviour : Behaviour L σ ε} {r : L}
    {g : LiveGraph L} {memory : σ} {t : State L σ} (hs : g.Sound) (ha : g.Attended r)
    (hr : behaviour.Observes r) (h : EditReachable behaviour { live := g, memory } t)
    (hspares : ∀ entry ∈ t.journal, entry.Spares r) :
    (Untroubled t.journal → g.contents.replay (announcements r t.journal) = t.live.contents) ∧
      (g.contents.replay (announcements r t.journal)).nodes.Sublist t.live.nodes ∧
      (g.contents.replay (announcements r t.journal)).edges.Sublist t.live.edges ∧
      (g.contents.replay (announcements r t.journal)).initializers.Sublist
        t.live.initializers := by
  have hl : Law.Endures (fun g new e g' => ∃ n, tracking r n g new e g' ∧
      settling r [] n g new e g' : Law L) := by
    refine ⟨fun g e => ⟨0, (tracking_endures r 0).still g e, (settling_endures r [] 0).still g e⟩,
      ?_⟩
    rintro g g' g'' new new' e e' he ⟨m, ⟨hc, ht⟩, -, hx⟩ ⟨n, ⟨hc', ht'⟩, -, hx'⟩
    have hm := hc.mono (Nat.le_add_right m n)
    have hn := hc'.mono (Nat.le_add_left n m)
    exact ⟨m + n, (tracking_endures r _).trans he ⟨hm, ht⟩ ⟨hn, ht'⟩,
      (settling_endures r [] _).trans he ⟨hm, hx⟩ ⟨hn, hx'⟩⟩
  obtain ⟨new, e, hj, he, n, ⟨-, ht⟩, -, hx⟩ := h.obeys hl fun levels c s =>
    ((edit_tracking hr levels c s).and (edit_settling levels c s)).imp fun h => ⟨levels, h⟩
  rw [List.append_nil] at hj
  subst hj
  have htracks := ht hspares g.contents [] (Tracks.start hs ha)
  rw [List.nil_append] at htracks
  rw [htracks.replay_eq]
  refine ⟨fun hu => Contents.drop_of_absent fun x hm => ?_, List.filter_sublist,
    List.filter_sublist, List.filter_sublist⟩
  exact (hx hs hu he x hm).elim (by simp) And.right

/-- One of two listeners, when it is first called, removes a node and adds another. -/
def restless : Behaviour Bool Nat Empty := fun listener _ _ calls =>
  if listener = false ∧ calls = 0 then
    .edit 1 (.removeNode "A") fun _ _ calls =>
      .edit calls (.addNode ⟨"C", .null, .null⟩) fun _ _ calls => .done calls ()
  else .done calls ()

def restlessStart : State Bool Nat where
  live :=
    { nodes := [⟨0, "A", .null, .null⟩, ⟨1, "B", .null, .null⟩]
      edges := [⟨2, ⟨"A", "out"⟩, ⟨"B", "in"⟩⟩]
      subscriptions := Event.all.map (·, true) ++ [(.removeEdge, false)]
      fresh := 3 }
  memory := 0

def restlessEnd : State Bool Nat :=
  (edit restless 3 (.removeEdge ⟨"B", "in"⟩) restlessStart).2

/-- The recorder's announcements of such a run give the graph again. -/
theorem restless_replay :
    Untroubled restlessEnd.journal ∧
      restlessStart.live.contents.replay (announcements true restlessEnd.journal) =
        restlessEnd.live.contents := by
  have hs : restlessStart.live.Sound := ⟨by decide, by decide, by decide, by decide⟩
  have ha : restlessStart.live.Attended true := by
    intro event
    cases event with
    | removeEdge => exact ⟨[false], rfl, by decide⟩
    | _ => exact ⟨[], rfl, by decide⟩
  have hr : restless.Observes true := fun x g memory => ⟨memory, by simp [restless]⟩
  have hreach : EditReachable restless restlessStart restlessEnd :=
    .single (EditStep.of_finished (by decide +kernel))
  have hspares : ∀ entry ∈ restlessEnd.journal, entry.Spares true := by decide +kernel
  have hu : Untroubled restlessEnd.journal := by
    unfold Untroubled
    decide +kernel
  exact ⟨hu, (replay_announcements hs ha hr hreach hspares).1 hu⟩

end FlowGraph.Live
