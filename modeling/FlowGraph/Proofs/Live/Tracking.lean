import FlowGraph.Proofs.Live.Recorder

/-! A recorder keeps track of the graph through every run, whatever the other listeners do and
however they fail. It is told of each change before anyone else is. -/

namespace FlowGraph.Live

variable {L σ ε : Type}

/-- The law of a recorder that is told of `xs`, all of which are to go. -/
def hearing [DecidableEq L] (n : Nat) (r : L) (xs : List Entity) : Law L := fun g new e g' =>
  Course n g new g' ∧ ((∀ entry ∈ new, entry.Spares r) → (∀ x ∈ xs, x.tag < g.fresh) →
    ∀ c told, Tracks r c told g → Tracks r c (told ++ announcements r new) g' ∧
      (e = .returned → ∀ x ∈ xs, x ∈ departures (announcements r new)))

def tracking [DecidableEq L] (r : L) (n : Nat) : Law L := fun g new _ g' =>
  Course n g new g' ∧ ((∀ entry ∈ new, entry.Spares r) →
    ∀ c told, Tracks r c told g → Tracks r c (told ++ announcements r new) g')

theorem spares_append {r : L} {new new' : List (Entry L)} :
    (∀ entry ∈ new' ++ new, entry.Spares r) ↔
      (∀ entry ∈ new', entry.Spares r) ∧ ∀ entry ∈ new, entry.Spares r := by
  simp only [List.mem_append, or_imp, forall_and]

theorem tracking_endures [DecidableEq L] (r : L) (n : Nat) : (tracking r n).Endures where
  still _ _ := ⟨.still, fun _ _ _ h => by simpa [announcements] using h⟩
  trans := by
    rintro g g' g'' new new' e e' - ⟨hc, ht⟩ ⟨hc', ht'⟩
    refine ⟨hc.trans hc', fun hs c told h => ?_⟩
    obtain ⟨hs', hs⟩ := spares_append.mp hs
    rw [announcements_append, ← List.append_assoc]
    exact ht' hs' c _ (ht hs c told h)

section

variable {behaviour : Behaviour L σ ε} {level : Nat} {inner : Command L → Action L σ ε Reply}
  {r : L}

theorem call_observes (hr : behaviour.Observes r) (event : Event) (x : Entity) (s : State L σ) :
    ∃ memory, call behaviour level inner event x r s =
      (.returned (), ⟨s.live, memory, .call level ⟨event, r, x, s.live⟩ :: s.journal⟩) := by
  obtain ⟨memory, hm⟩ := hr x s.live s.memory
  refine ⟨memory, ?_⟩
  simp only [call, Action.live, Action.record, Bind.bind, Action.bind, hm, Script.run]

/-- The recorder is told first, and then the others. -/
theorem emit_told {law : Law L} (hl : law.Endures) (hi : ∀ c s, (inner c).Obeys law s)
    (hr : behaviour.Observes r) {event : Event} {x : Entity} {s : State L σ}
    (ha : s.live.Attended r)
    (hc : ∀ g l, l ≠ r → law g [.call level ⟨event, l, x, g⟩] .returned g)
    (hf : ∀ g l, law g [.failed level l] .raised g) :
    (emit behaviour level inner event x).Obeys (fun g new e g' =>
      ∃ later, new = later ++ [.call level ⟨event, r, x, g⟩] ∧ law g later e g') s := by
  obtain ⟨others, ho, hn⟩ := ha event
  obtain ⟨memory, hm⟩ : ∃ memory, call behaviour level inner event x r s = _ :=
    call_observes hr event x s
  let t : State L σ := ⟨s.live, memory, .call level ⟨event, r, x, s.live⟩ :: s.journal⟩
  have hrest : (others.forM (call behaviour level inner event x)).Obeys law t :=
    calls_obeys hl hi others (fun g l h => hc g l fun hlr => hn (hlr ▸ h)) hf t
  have hemit : emit behaviour level inner event x s =
      (others.forM (call behaviour level inner event x)) t := by
    change ((s.live.listeners event).forM (call behaviour level inner event x) :
      Action L σ ε PUnit) s = _
    rw [ho]
    exact Action.bind_of_returned hm
  obtain ⟨later, hj, he⟩ := hrest
  refine ⟨later ++ [.call level ⟨event, r, x, s.live⟩], ?_, later, rfl, ?_⟩ <;> rw [hemit]
  · rw [hj, List.append_assoc]
    rfl
  · exact he

variable [DecidableEq L]

theorem inner_tracking (hi : ∀ c s, (inner c).Obeys (tracking r level) s) (c : Command L)
    (s : State L σ) : (inner c).Obeys (tracking r (level + 1)) s :=
  (hi c s).imp fun h => ⟨h.1.mono (by omega), h.2⟩

theorem note_tracking (entry : Entry L) {e : Ending} {g : LiveGraph L}
    (hn : entry.Within (level + 1)) (hg : entry.NotedOf g) (ha : announcements r [entry] = []) :
    tracking r (level + 1) g [entry] e g :=
  ⟨.note .still hn hg, fun _ _ _ h => by rwa [ha, List.append_nil]⟩

theorem call_tracking {event : Event} {x : Entity} (g : LiveGraph L) (l : L) (hl : l ≠ r) :
    tracking r (level + 1) g [.call level ⟨event, l, x, g⟩] .returned g :=
  note_tracking (.call level _) (Nat.lt_succ_self level) rfl (announcements_call_of_ne hl ..)

theorem failed_tracking (g : LiveGraph L) (l : L) :
    tracking r (level + 1) g [.failed level l] .raised g :=
  note_tracking (.failed level l) (Nat.lt_succ_self level) trivial rfl

/-- An entity that has just come in is in the lists of the recorder when the others are told. -/
theorem emit_enter_tracking (hi : ∀ c s, (inner c).Obeys (tracking r level) s)
    (hr : behaviour.Observes r) {g : LiveGraph L} {event : Event} {x : Entity} {t : State L σ}
    (he : g.Enters event x t.live) :
    (emit behaviour level inner event x).Obeys (fun _ => tracking r (level + 1) g) t := by
  have hcourse : Course (level + 1) g [] t.live := .enter .still he
  have hlisteners := LiveGraph.listeners_eq_of_subscriptions he.subscriptions
  by_cases ha : t.live.Attended r
  · refine (emit_told (tracking_endures r (level + 1)) (inner_tracking hi) hr ha call_tracking
      failed_tracking).imp ?_
    rintro new e g' ⟨later, rfl, hc, ht⟩
    refine ⟨?_, fun hs c told h => ?_⟩
    · have hcall : Course (level + 1) t.live [.call level ⟨event, r, x, t.live⟩] t.live :=
        .note .still (Nat.lt_succ_self level) rfl
      simpa only [List.append_nil] using hcourse.trans (hcall.trans hc)
    · have := ht (spares_append.mp hs).1 c _ (h.enter he)
      rwa [announcements_append, announcements_call_self, ← List.append_assoc]
  · refine (emit_course (fun c s => (hi c s).imp And.left) t).imp fun {new e g'} hc => ?_
    refine ⟨by simpa only [List.append_nil] using hcourse.trans hc, fun _ c told h => ?_⟩
    refine absurd (fun event => ?_) ha
    rw [hlisteners]
    exact h.attended event

theorem emit_hearing (hi : ∀ c s, (inner c).Obeys (tracking r level) s)
    (hr : behaviour.Observes r) {event : Event} (he : event.isRemoval = true) (x : Entity)
    (s : State L σ) :
    (emit behaviour level inner event x).Obeys (hearing (level + 1) r [x]) s := by
  by_cases ha : s.live.Attended r
  · refine (emit_told (tracking_endures r (level + 1)) (inner_tracking hi) hr ha call_tracking
      failed_tracking).imp ?_
    rintro new e g' ⟨later, rfl, hc, ht⟩
    have hcall : Course (level + 1) s.live [.call level ⟨event, r, x, s.live⟩] s.live :=
      .note .still (Nat.lt_succ_self level) rfl
    refine ⟨hcall.trans hc, fun hs hx c told h => ?_⟩
    have := ht (spares_append.mp hs).1 c _ (h.announce he (hx x (by simp)))
    rw [announcements_append, announcements_call_self, ← List.append_assoc]
    refine ⟨this, fun _ y hy => ?_⟩
    rw [List.mem_singleton.mp hy, departures_append]
    simp [departures, he]
  · refine (emit_course (fun c s => (hi c s).imp And.left) s).imp fun {new e g'} hc => ?_
    exact ⟨hc, fun _ _ _ _ h => absurd h.attended ha⟩

theorem announce_hearing (hi : ∀ c s, (inner c).Obeys (tracking r level) s)
    (hr : behaviour.Observes r) {event : Event} (he : event.isRemoval = true) (xs : List Entity)
    (s : State L σ) :
    (xs.forM (emit behaviour level inner event)).Obeys (hearing (level + 1) r xs) s := by
  induction xs generalizing s with
  | nil =>
    exact ⟨[], rfl, .still, fun _ _ c told h => ⟨by rwa [announcements, List.reverse_nil,
      List.filterMap_nil, List.append_nil], by simp⟩⟩
  | cons x xs ih =>
    refine (emit_hearing hi hr he x s).seq ?_ ?_
    · rintro _ t new ⟨hc, ht⟩
      refine (ih t).imp ?_
      rintro new' e g' ⟨hc', ht'⟩
      refine ⟨hc.trans hc', fun hs hx c told h => ?_⟩
      obtain ⟨hs', hs⟩ := spares_append.mp hs
      obtain ⟨h₁, hd₁⟩ := ht hs (fun y hy => hx y (by simp_all)) c told h
      have hle := hc.fresh_le
      obtain ⟨h₂, hd₂⟩ := ht' hs' (fun y hy => by have := hx y (by simp [hy]); omega) c _ h₁
      rw [announcements_append, ← List.append_assoc, departures_append]
      refine ⟨h₂, fun hret y hy => ?_⟩
      rcases List.mem_cons.mp hy with rfl | hy
      · exact List.mem_append_left _ (hd₁ rfl y (by simp))
      · exact List.mem_append_right _ (hd₂ hret y hy)
    · rintro new e g' hne ⟨hc, ht⟩
      refine ⟨hc, fun hs hx c told h => ⟨?_, fun hret => absurd hret hne⟩⟩
      exact (ht hs (fun y hy => hx y (by simp_all)) c told h).1

theorem dismiss_hearing (hi : ∀ c s, (inner c).Obeys (tracking r level) s)
    (hr : behaviour.Observes r) {event : Event} (he : event.isRemoval = true) (xs : List Entity)
    (s : State L σ) :
    (dismiss behaviour level inner event xs).Obeys (hearing (level + 1) r xs) s := by
  refine dismiss_obeys (announce_hearing hi hr he xs s) (fun _ h => h) ?_
  rintro new g' ⟨hc, ht⟩
  refine ⟨hc.remove (Nat.lt_succ_self level), fun hs hx c told h => ?_⟩
  obtain ⟨h₁, hd⟩ := ht (fun entry hm => hs entry (by simp [hm])) hx c told h
  have ha : announcements r (.removed level xs :: new) = announcements r new := by
    simp [announcements, Entry.announcement]
  rw [ha]
  refine ⟨h₁.drop fun x hm => ?_, fun _ => hd rfl⟩
  rw [departures_append]
  exact List.mem_append_right _ (hd rfl x hm)

theorem removeEdge_tracking (hi : ∀ c s, (inner c).Obeys (tracking r level) s)
    (hr : behaviour.Observes r) {p : Endpoint} (s : State L σ) :
    (removeEdge behaviour level inner p).Obeys (tracking r (level + 1)) s := by
  refine Action.Obeys.live (Action.Obeys.record_bind ((dismiss_hearing hi hr rfl _ _).imp ?_))
  rintro new e g' ⟨hc, ht⟩
  refine ⟨Course.trans (.note .still (Nat.lt_succ_self level) rfl) hc, fun hs c told h => ?_⟩
  rw [announcements_append]
  refine (ht (spares_append.mp hs).1 (fun x hx => ?_) c told h).1
  exact h.sound.tag_lt x (LiveGraph.mem_entities_of_entitiesAt hx)

theorem removeNode_tracking (hi : ∀ c s, (inner c).Obeys (tracking r level) s)
    (hr : behaviour.Observes r) {id : String} (s : State L σ) :
    (removeNode behaviour level inner id).Obeys (tracking r (level + 1)) s := by
  refine removeNode_obeys (tracking_endures r (level + 1)).chains
    (fun _ t _ => removeEdge_tracking hi hr t) (fun _ h => h)
    (fun _ => (tracking_endures r (level + 1)).still _ _) ?_
  rintro n t new hn ⟨hc, ht⟩
  refine (dismiss_hearing hi hr rfl _ t).imp ?_
  rintro new' e g' ⟨hc', ht'⟩
  refine ⟨hc.trans hc', fun hs c told h => ?_⟩
  obtain ⟨hs', hs⟩ := spares_append.mp hs
  rw [announcements_append, ← List.append_assoc]
  refine (ht' hs' (fun x hx => ?_) c _ (ht hs c told h)).1
  have hlt := h.sound.tag_lt _ (LiveGraph.mem_entities_node.mpr (List.mem_of_find?_eq_some hn))
  have hle := hc.fresh_le
  rw [List.mem_singleton.mp hx]
  omega

/-- A recorder keeps track through every edit that leaves its subscriptions alone. -/
theorem edit_tracking (hr : behaviour.Observes r) (levels : Nat) (c : Command L) (s : State L σ) :
    (edit behaviour levels c).Obeys (tracking r levels) s := by
  refine edit_obeys ?_ (fun level hi c s => ?_) levels c s
  · exact fun g => (tracking_endures r 0).still g _
  have hedit (g : LiveGraph L) : Course (level + 1) g [.edit level c g] g :=
    .note .still (Nat.lt_succ_self level) rfl
  by_cases hc : c.Spares r
  · have hnotice (n : Notice) : tracking r (level + 1) s.live [.notice n] .returned s.live :=
      note_tracking (.notice n) trivial trivial rfl
    refine (perform_obeys (tracking r (level + 1)) ?_ ?_ ?_ ?_ ?_ ?_).imp ?_
    · exact fun n _ => hnotice n
    · exact fun n => (tracking_endures r (level + 1)).chains.trans (hnotice n)
    · exact fun he _ => emit_enter_tracking hi hr he
    · exact fun p _ => removeEdge_tracking hi hr s
    · exact fun id _ => removeNode_tracking hi hr s
    · exact fun ha => ⟨.adjust .still ha, fun _ _ _ h => by
        simpa [announcements] using h.adjust ha hc⟩
    · rintro new e g' ⟨hc', ht⟩
      refine ⟨(hedit _).trans hc', fun hs c' told h => ?_⟩
      rw [announcements_append]
      exact ht (spares_append.mp hs).1 c' told h
  · refine (perform_course (fun c s => (hi c s).imp And.left) c s).imp fun {new e g'} hc' => ?_
    refine ⟨(hedit _).trans hc', fun hs => ?_⟩
    exact absurd (hs (.edit level c s.live) (by simp)) hc

end

end FlowGraph.Live
