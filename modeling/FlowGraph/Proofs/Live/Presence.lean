import FlowGraph.Proofs.Live.Reachability

/-! What listeners of removals find. A removal chooses what is to go and then announces it. An
entity is still in the graph when it is announced unless another removal of it, which a listener
asked for meanwhile, has been completed since it was chosen. -/

namespace FlowGraph.Live

variable {L σ ε : Type}

/-- Whether an entry of a level chooses an entity for a removal. -/
def Entry.chooses (level : Nat) (x : Entity) : Entry L → Bool
  | .removal l p g => l == level && x.among (g.entitiesAt p)
  | .edit l (.removeNode id) g => l == level && x.among ((g.find? id).toList.map .node)
  | _ => false

/-- The entries since the newest one that chose an entity. -/
def sinceChosen (level : Nat) (x : Entity) (before : List (Entry L)) : List (Entry L) :=
  before.takeWhile fun entry => !entry.chooses level x

/-- How the entries before a call of a removal's listener tell whether it finds its entity. -/
structure Call.Presence (level : Nat) (c : Call L) (before : List (Entry L)) : Prop where
  chosen : ∃ entry ∈ before, entry.chooses level c.entity = true
  holds_eq : c.live.holds c.entity = !c.entity.among (taken (sinceChosen level c.entity before))
  below : ∀ entry ∈ sinceChosen level c.entity before,
    c.entity.among entry.taken = true → entry.Within level

def Entry.Presence (before : List (Entry L)) : Entry L → Prop
  | .call level c => c.event.isRemoval = true → c.Presence level before
  | _ => True

/-- All new calls of removals' listeners find what the entries before them tell. -/
def Presence (old : List (Entry L)) : List (Entry L) → Prop
  | [] => True
  | entry :: new => entry.Presence (new ++ old) ∧ Presence old new

theorem takeWhile_append_of_any {α : Type} {p : α → Bool} {l : List α} (h : ∃ a ∈ l, p a = false)
    (l' : List α) : (l ++ l').takeWhile p = l.takeWhile p := by
  induction l with
  | nil => simp at h
  | cons a l ih =>
    cases hp : p a with
    | false => simp [hp]
    | true =>
      obtain ⟨b, hb, hpb⟩ := h
      rcases List.mem_cons.mp hb with rfl | hb
      · simp [hp] at hpb
      · simp [hp, ih ⟨b, hb, hpb⟩]

theorem Call.Presence.older {level : Nat} {c : Call L} {before : List (Entry L)}
    (h : c.Presence level before) (older : List (Entry L)) :
    c.Presence level (before ++ older) := by
  have hs : sinceChosen level c.entity (before ++ older) = sinceChosen level c.entity before :=
    takeWhile_append_of_any (by simpa using h.chosen) older
  obtain ⟨entry, hm, hc⟩ := h.chosen
  exact ⟨⟨entry, List.mem_append_left _ hm, hc⟩, by rw [hs]; exact h.holds_eq,
    by rw [hs]; exact h.below⟩

theorem Entry.Presence.older {entry : Entry L} {before : List (Entry L)}
    (h : entry.Presence before) (older : List (Entry L)) : entry.Presence (before ++ older) := by
  cases entry with
  | call level c => exact fun hc => (h hc).older older
  | _ => trivial

theorem Presence.older {old new : List (Entry L)} (h : Presence old new)
    (older : List (Entry L)) : Presence (old ++ older) new := by
  induction new with
  | nil => trivial
  | cons entry new ih =>
    exact ⟨by rw [← List.append_assoc]; exact h.1.older older, ih h.2⟩

theorem presence_append {old new new' : List (Entry L)} :
    Presence old (new' ++ new) ↔ Presence (new ++ old) new' ∧ Presence old new := by
  induction new' with
  | nil => simp [Presence]
  | cons entry new' ih => simp [Presence, ih, and_assoc]

/-- Entries that come between a choice and the announcement of what was chosen. -/
def Entry.Calm (level : Nat) (x : Entity) (entry : Entry L) : Prop :=
  entry.chooses level x = false ∧ (x.among entry.taken = true → entry.Within level)

theorem Entry.Within.calm {level : Nat} {entry : Entry L} (h : entry.Within level) (x : Entity) :
    entry.Calm level x := by
  refine ⟨?_, fun _ => h⟩
  cases entry with
  | edit l c g =>
    have hne : l ≠ level := Nat.ne_of_lt h
    cases c <;> simp [chooses, hne]
  | removal l p g =>
    have hne : l ≠ level := Nat.ne_of_lt h
    simp [chooses, hne]
  | _ => rfl

theorem sinceChosen_of_calm {level : Nat} {x : Entity} {old : List (Entry L)} {entry : Entry L}
    (h : ∀ entry ∈ old, entry.Calm level x) (hc : entry.chooses level x = true) :
    sinceChosen level x (old ++ [entry]) = old := by
  have ho : ∀ entry ∈ old, (!entry.chooses level x) = true := by
    intro entry hm
    rw [(h entry hm).1]
    rfl
  rw [sinceChosen, List.takeWhile_append_of_pos ho]
  simp [hc]

/-- The law of announcing what entry `k` chose from graph `h`. -/
def announcing (level : Nat) (h : LiveGraph L) (k : Entry L) (xs : List Entity) : Law L :=
  fun g new _ g' => Course (level + 1) g new g' ∧ (∀ x, ∀ entry ∈ new, entry.Calm level x) ∧
    (h.Sound → ∀ old, Course (level + 1) h old g →
      (∀ x ∈ xs, ∀ entry ∈ old, entry.Calm level x) → Presence (old ++ [k]) new)

theorem announcing_endures (level : Nat) (h : LiveGraph L) (k : Entry L) (xs : List Entity) :
    (announcing level h k xs).Endures where
  still _ _ := ⟨.still, by simp, fun _ _ _ _ => trivial⟩
  trans := by
    rintro g g' g'' new new' e e' - ⟨hc, hn, hp⟩ ⟨hc', hn', hp'⟩
    refine ⟨hc.trans hc', ?_, ?_⟩
    · intro x entry hm
      rcases List.mem_append.mp hm with hm | hm
      · exact hn' x entry hm
      · exact hn x entry hm
    · intro hs old ho hcalm
      refine presence_append.mpr ⟨?_, hp hs old ho hcalm⟩
      rw [← List.append_assoc]
      refine hp' hs (new ++ old) (ho.trans hc) fun x hx entry hm => ?_
      rcases List.mem_append.mp hm with hm | hm
      · exact hn x entry hm
      · exact hcalm x hx entry hm

/-- The law of edits: calls in them find what the entries of the same edit tell. -/
def presence (level : Nat) : Law L := fun g new _ g' =>
  Course level g new g' ∧ (g.Sound → Presence [] new)

theorem presence.mono {m n : Nat} {g g' : LiveGraph L} {new : List (Entry L)} {e : Ending}
    (h : presence m g new e g') (hmn : m ≤ n) : presence n g new e g' :=
  ⟨h.1.mono hmn, h.2⟩

theorem presence_endures (level : Nat) : (presence level : Law L).Endures where
  still _ _ := ⟨.still, fun _ => trivial⟩
  trans := by
    rintro g g' g'' new new' e e' - ⟨hc, hp⟩ ⟨hc', hp'⟩
    refine ⟨hc.trans hc', fun hs => presence_append.mpr ⟨?_, hp hs⟩⟩
    exact (hp' (hc.sound hs)).older _

/-- The law of the removals that come before that of a node. -/
def detaching (level : Nat) : Law L := fun g new _ g' =>
  Course (level + 1) g new g' ∧ (g.Sound → Presence [] new) ∧
    ∀ n, ∀ entry ∈ new, entry.Calm level (.node n)

theorem detaching_chains (level : Nat) : (detaching level : Law L).Chains where
  still _ := ⟨.still, fun _ => trivial, by simp⟩
  trans := by
    rintro g g' g'' new new' e ⟨hc, hp, hn⟩ ⟨hc', hp', hn'⟩
    refine ⟨hc.trans hc', fun hs => presence_append.mpr ⟨?_, hp hs⟩, fun n entry hm => ?_⟩
    · exact (hp' (hc.sound hs)).older _
    · rcases List.mem_append.mp hm with hm | hm
      · exact hn' n entry hm
      · exact hn n entry hm

theorem node_not_among_entitiesAt (g : LiveGraph L) (p : Endpoint) (n : Tagged Node) :
    (Entity.node n).among (g.entitiesAt p) = false := by
  apply Bool.eq_false_iff.mpr
  rw [ne_eq, Entity.among_iff]
  rintro ⟨y, hy, hyn⟩
  simp only [LiveGraph.entitiesAt, List.mem_append, List.mem_map] at hy
  rcases hy with ⟨e, _, rfl⟩ | ⟨i, _, rfl⟩ <;> simp [Entity.is] at hyn

section

variable {behaviour : Behaviour L σ ε} {level : Nat} {inner : Command L → Action L σ ε Reply}

theorem announce_presence (hi : ∀ c s, (inner c).Obeys (presence level) s) {event : Event}
    {h : LiveGraph L} {k : Entry L} {xs : List Entity}
    (hx : ∀ x ∈ xs, x ∈ h.entities ∧ k.chooses level x = true) (s : State L σ) :
    (xs.forM (emit behaviour level inner event)).Obeys (announcing level h k xs) s := by
  refine Action.Obeys.forM (announcing_endures ..).chains xs (fun x hm s => ?_) s
  refine emit_obeys (announcing_endures ..) (fun c s => (hi c s).imp ?_) ?_ ?_ s
  · rintro new e g ⟨hc, hp⟩
    refine ⟨hc.mono (by omega), fun x entry hm => (hc.within entry hm).calm x, ?_⟩
    exact fun hs old ho _ => (hp (ho.sound hs)).older (old ++ [k])
  · intro g l
    refine ⟨.note .still (Nat.lt_succ_self level) rfl, ?_, fun hs old ho hcalm => ⟨?_, trivial⟩⟩
    · simp [Entry.Calm, Entry.chooses, Entry.taken, Entity.among]
    · intro _
      obtain ⟨hxh, hk⟩ := hx x hm
      have hsince := sinceChosen_of_calm (hcalm x hm) hk
      refine ⟨⟨k, by simp, hk⟩, ?_, ?_⟩
      · change g.holds x = !x.among (taken (sinceChosen level x (old ++ [k])))
        rw [hsince, ho.holds_eq (hs.tag_lt x hxh), LiveGraph.holds_of_mem hxh, Bool.true_and]
      · change ∀ entry ∈ sinceChosen level x (old ++ [k]), _
        rw [hsince]
        exact fun entry hm' => (hcalm x hm entry hm').2
  · intro g l
    refine ⟨.note .still (Nat.lt_succ_self level) trivial, ?_, fun _ _ _ _ => ⟨trivial, trivial⟩⟩
    simp [Entry.Calm, Entry.chooses, Entry.taken, Entity.among]

theorem removeEdge_presence (hi : ∀ c s, (inner c).Obeys (presence level) s) {p : Endpoint}
    (s : State L σ) : (removeEdge behaviour level inner p).Obeys (detaching level) s := by
  have hx : ∀ x ∈ s.live.entitiesAt p, x ∈ s.live.entities ∧
      (Entry.removal level p s.live).chooses level x = true := by
    intro x hm
    exact ⟨LiveGraph.mem_entities_of_entitiesAt hm, by simp [Entry.chooses, Entity.among_of_mem hm]⟩
  have hk (n : Tagged Node) : (Entry.removal level p s.live).Calm level (.node n) :=
    ⟨by simp [Entry.chooses, node_not_among_entitiesAt], by simp [Entry.taken, Entity.among]⟩
  have hr (n : Tagged Node) :
      (Entry.removed level (s.live.entitiesAt p) : Entry L).Calm level (.node n) :=
    ⟨rfl, by simp [Entry.taken, node_not_among_entitiesAt]⟩
  have hcourse : Course (level + 1) s.live [.removal level p s.live] s.live :=
    .note .still (Nat.lt_succ_self level) rfl
  refine Action.Obeys.live (Action.Obeys.record_bind (dismiss_obeys (announce_presence hi hx _)
    ?_ ?_))
  · rintro new e g - ⟨hc, hn, hp⟩
    refine ⟨hcourse.trans hc, fun hs => presence_append.mpr ⟨?_, trivial, trivial⟩, ?_⟩
    · exact hp hs [] .still (by simp)
    · intro n entry hm
      rcases List.mem_append.mp hm with hm | hm
      · exact hn _ entry hm
      · rw [List.mem_singleton.mp hm]
        exact hk n
  · rintro new g ⟨hc, hn, hp⟩
    refine ⟨(hcourse.trans hc).remove (Nat.lt_succ_self level), fun hs => ⟨trivial, ?_⟩, ?_⟩
    · exact presence_append.mpr ⟨hp hs [] .still (by simp), trivial, trivial⟩
    · intro n entry hm
      rcases List.mem_cons.mp hm with rfl | hm
      · exact hr n
      rcases List.mem_append.mp hm with hm | hm
      · exact hn _ entry hm
      · rw [List.mem_singleton.mp hm]
        exact hk n

/-- The removal of a node, after the entry of the edit that asks for it. -/
theorem removeNode_presence (hi : ∀ c s, (inner c).Obeys (presence level) s) {id : String}
    (s : State L σ) : (removeNode behaviour level inner id).Obeys (fun g new e g' =>
      presence (level + 1) g (new ++ [.edit level (.removeNode id) g]) e g') s := by
  have hcourse : Course (level + 1) s.live [.edit level (.removeNode id) s.live] s.live :=
    .note .still (Nat.lt_succ_self level) rfl
  refine removeNode_obeys (detaching_chains level) (fun _ t _ => removeEdge_presence hi t) ?_ ?_ ?_
  · rintro new e g - ⟨hc, hp, -⟩
    refine ⟨hcourse.trans hc, fun hs => presence_append.mpr ⟨(hp hs).older _, trivial, trivial⟩⟩
  · exact fun _ => ⟨hcourse, fun _ => ⟨trivial, trivial⟩⟩
  · rintro n t new hn ⟨hc, hp, hcalm⟩
    have hx : ∀ x ∈ [Entity.node n], x ∈ s.live.entities ∧
        (Entry.edit level (.removeNode id) s.live).chooses level x = true := by
      intro x hm
      rw [List.mem_singleton.mp hm]
      refine ⟨LiveGraph.mem_entities_node.mpr (List.mem_of_find?_eq_some hn), ?_⟩
      simp [Entry.chooses, hn, Entity.among, Entity.is]
    refine dismiss_obeys (announce_presence hi hx t) ?_ ?_
    · rintro new' e g - ⟨hc', -, hp'⟩
      refine ⟨?_, fun hs => presence_append.mpr ⟨presence_append.mpr ?_, trivial, trivial⟩⟩
      · exact hcourse.trans (hc.trans hc')
      · exact ⟨hp' hs new hc (by simpa using hcalm n), (hp hs).older _⟩
    · rintro new' g ⟨hc', -, hp'⟩
      refine ⟨?_, fun hs => ⟨trivial, presence_append.mpr ⟨presence_append.mpr ?_, trivial,
        trivial⟩⟩⟩
      · exact (hcourse.trans (hc.trans hc')).remove (Nat.lt_succ_self level)
      · exact ⟨hp' hs new hc (by simpa using hcalm n), (hp hs).older _⟩

theorem emit_presence (hi : ∀ c s, (inner c).Obeys (presence level) s) {event : Event}
    (he : event.isRemoval = false) {x : Entity} (s : State L σ) :
    (emit behaviour level inner event x).Obeys (presence (level + 1)) s := by
  refine emit_obeys (presence_endures _) (fun c s => (hi c s).imp ?_) ?_ ?_ s
  · exact fun h => h.mono (by omega)
  · intro g l
    refine ⟨.note .still (Nat.lt_succ_self level) rfl, fun _ => ⟨fun hr => ?_, trivial⟩⟩
    simp [he] at hr
  · exact fun g l => ⟨.note .still (Nat.lt_succ_self level) trivial, fun _ => ⟨trivial, trivial⟩⟩

variable [DecidableEq L]

theorem edit_presence (levels : Nat) (c : Command L) (s : State L σ) :
    (edit behaviour levels c).Obeys (presence levels) s := by
  refine edit_obeys (fun _ => ⟨.still, fun _ => trivial⟩) (fun level hi c s => ?_) levels c s
  by_cases hc : ∃ id, c = .removeNode id
  · obtain ⟨id, rfl⟩ := hc
    exact (removeNode_presence hi s).map
  · have hnotice (n : Notice) : presence (level + 1) s.live [.notice n] .returned s.live :=
      ⟨.note .still trivial trivial, fun _ => ⟨trivial, trivial⟩⟩
    refine (perform_obeys (presence (level + 1)) ?_ ?_ ?_ ?_ ?_ ?_).imp ?_
    · exact fun n _ => hnotice n
    · exact fun n => (presence_endures (level + 1)).chains.trans (hnotice n)
    · rintro event x t he -
      refine (emit_presence hi he.isRemoval t).imp ?_
      rintro new e g ⟨hc, hp⟩
      refine ⟨?_, ?_⟩
      · simpa only [List.append_nil] using Course.trans (.enter .still he) hc
      · exact fun hs => hp (he.sound hs)
    · exact fun p _ => (removeEdge_presence hi s).imp fun h => ⟨h.1, h.2.1⟩
    · exact fun id h => absurd ⟨id, h⟩ hc
    · exact fun h => ⟨.adjust .still h, fun _ => trivial⟩
    · rintro new e g ⟨hc, hp⟩
      refine ⟨Course.trans (.note .still (Nat.lt_succ_self level) rfl) hc, fun hs => ?_⟩
      exact presence_append.mpr ⟨(hp hs).older _, trivial, trivial⟩

end

theorem Presence.of_append {new : List (Entry L)} {later before : List (Entry L)} {level : Nat}
    {c : Call L} (h : Presence [] new) (hn : new = later ++ .call level c :: before)
    (hc : c.event.isRemoval = true) : c.Presence level before := by
  subst hn
  have := (presence_append.mp h).2.1 hc
  rwa [List.append_nil] at this

/-- In every run, a listener that is told of a removal finds the entity in the graph just if no
removal that took it was completed since it was chosen. Such a removal belongs to an edit of a
level below, so a listener asked for it. -/
theorem removal_call_holds_iff [DecidableEq L] {behaviour : Behaviour L σ ε} {g : LiveGraph L}
    {memory : σ} {t : State L σ} (hs : g.Sound)
    (h : EditReachable behaviour { live := g, memory } t) {later before : List (Entry L)}
    {level : Nat} {c : Call L} (hj : t.journal = later ++ .call level c :: before)
    (hc : c.event.isRemoval = true) :
    (∃ entry ∈ before, entry.chooses level c.entity = true) ∧
      (c.live.holds c.entity = true ↔
        c.entity.among (taken (sinceChosen level c.entity before)) = false) ∧
      ∀ entry ∈ sinceChosen level c.entity before,
        c.entity.among entry.taken = true → entry.Within level := by
  have hl : Law.Endures (fun g new e g' => ∃ n, presence n g new e g' : Law L) := by
    refine ⟨fun _ _ => ⟨0, .still, fun _ => trivial⟩, ?_⟩
    rintro g g' g'' new new' e e' he ⟨m, hm⟩ ⟨n, hn⟩
    exact ⟨m + n, (presence_endures _).trans he (hm.mono (by omega)) (hn.mono (by omega))⟩
  obtain ⟨new, e, hn, -, n, -, hp⟩ :=
    h.obeys hl fun levels c s => (edit_presence levels c s).imp fun h => ⟨levels, h⟩
  rw [List.append_nil] at hn
  obtain ⟨hx, hh, hb⟩ := (hp hs).of_append (hn ▸ hj) hc
  exact ⟨hx, by simp [hh], hb⟩

/-- The first of two listeners asks for the same removal again the first time it is called. -/
def eager : Behaviour Bool Nat Empty := fun listener _ _ calls =>
  if listener = false ∧ calls = 0 then
    .edit 1 (.removeEdge ⟨"B", "in"⟩) fun _ _ calls => .done calls ()
  else .done calls ()

def eagerStart : State Bool Nat where
  live :=
    { edges := [⟨0, ⟨⟨"A", "out"⟩, ⟨"B", "in"⟩⟩⟩]
      subscriptions := [(.removeEdge, false), (.removeEdge, true)]
      fresh := 1 }
  memory := 0

def eagerEnd : State Bool Nat :=
  (edit eager 3 (.removeEdge ⟨"B", "in"⟩) eagerStart).2

/-- The call of the second listener by the removal that began first. -/
def lateCall : Call Bool where
  event := .removeEdge
  listener := true
  entity := .edge ⟨0, ⟨⟨"A", "out"⟩, ⟨"B", "in"⟩⟩⟩
  live := { eagerStart.live with edges := [] }

theorem eagerStart_sound : eagerStart.live.Sound :=
  ⟨by decide, by decide, by decide, by decide⟩

theorem eager_reachable : EditReachable eager eagerStart eagerEnd :=
  .single (EditStep.of_finished (by decide +kernel))

theorem eagerEnd_journal : eagerEnd.journal =
    eagerEnd.journal.take 1 ++ .call 2 lateCall :: eagerEnd.journal.drop 2 := by
  decide +kernel

/-- The removal that the first listener asked for took the edge before the second one was told. -/
theorem late_call_chosen_and_taken :
    lateCall.live.holds lateCall.entity = true ↔
      lateCall.entity.among (taken (sinceChosen 2 lateCall.entity (eagerEnd.journal.drop 2))) =
        false :=
  (removal_call_holds_iff eagerStart_sound eager_reachable eagerEnd_journal rfl).2.1

/-- Listeners of removals are not always told of entities that are in the graph. -/
theorem removal_call_not_always_holds :
    ¬ ∀ (behaviour : Behaviour Bool Nat Empty) (g : LiveGraph Bool) (memory : Nat)
      (t : State Bool Nat), g.Sound → EditReachable behaviour { live := g, memory } t →
      ∀ later before level c, t.journal = later ++ .call level c :: before →
        c.event.isRemoval = true → c.live.holds c.entity = true := by
  intro h
  have := h eager _ 0 eagerEnd eagerStart_sound eager_reachable _ _ _ _ eagerEnd_journal rfl
  revert this
  decide

end FlowGraph.Live
