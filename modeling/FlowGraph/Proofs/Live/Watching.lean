import FlowGraph.Proofs.Live.Groups

/-! Listeners that watch. They leave the nodes and connections of the graph as they are, whatever
else they do, and so what they are told is settled before the first of them is called. One that
raises ends the telling. -/

namespace FlowGraph.Live

variable {L σ ε : Type}

/-- What a listener does when it is called. -/
def Behaviour.answer [DecidableEq L] (behaviour : Behaviour L σ ε) (level : Nat) (l : L)
    (x : Entity) : Action L σ ε Unit :=
  fun s => (behaviour l x s.live s.memory).run (edit behaviour level) s

/-- All listeners leave the contents of the graph as they are, and the subscriptions of the steady
ones. Whether they may raise is told apart. -/
structure Behaviour.Watches [DecidableEq L] (behaviour : Behaviour L σ ε) (level : Nat)
    (steady : L → Bool) (raising : Prop) : Prop where
  contents : ∀ l x s, (behaviour.answer level l x s).2.live.contents = s.live.contents
  listeners : ∀ l x s event, ((behaviour.answer level l x s).2.live.listeners event).filter steady =
    (s.live.listeners event).filter steady
  ending : ∀ l x s, (behaviour.answer level l x s).1.ending = .returned ∨
    raising ∧ (behaviour.answer level l x s).1.ending = .raised

/-- The same of one listener. -/
structure Behaviour.WatchesAs [DecidableEq L] (behaviour : Behaviour L σ ε) (level : Nat)
    (steady : L → Bool) (raising : Prop) (l : L) : Prop where
  contents : ∀ x s, (behaviour.answer level l x s).2.live.contents = s.live.contents
  listeners : ∀ x s event, ((behaviour.answer level l x s).2.live.listeners event).filter steady =
    (s.live.listeners event).filter steady
  ending : ∀ x s, (behaviour.answer level l x s).1.ending = .returned ∨
    raising ∧ (behaviour.answer level l x s).1.ending = .raised

theorem Behaviour.Watches.as [DecidableEq L] {behaviour : Behaviour L σ ε} {level : Nat}
    {steady : L → Bool} {raising : Prop} (hw : behaviour.Watches level steady raising) (l : L) :
    behaviour.WatchesAs level steady raising l where
  contents := hw.contents l
  listeners := hw.listeners l
  ending := hw.ending l

def Entry.heard (level : Nat) (steady : L → Bool) : Entry L → Option (Event × L × Entity)
  | .call l c =>
    if l = level ∧ steady c.listener then some (c.event, c.listener, c.entity) else none
  | _ => none

/-- What the steady listeners were told at one level, the oldest first. -/
def heard (level : Nat) (steady : L → Bool) (entries : List (Entry L)) :
    List (Event × L × Entity) :=
  entries.reverse.filterMap (Entry.heard level steady)

/-- What the steady listeners are told if some events happen: each of them is told of each event,
in the order of the subscriptions. -/
def deliveries (g : LiveGraph L) (steady : L → Bool) (told : List (Event × Entity)) :
    List (Event × L × Entity) :=
  told.flatMap fun (event, x) => ((g.listeners event).filter steady).map fun l => (event, l, x)

/-- The last thing that happened is that a listener raised that was told of an entity. Since it was
called, nothing happened but its own edits. -/
def Interrupted (level : Nat) (event : Event) (x : Entity) (entries : List (Entry L)) : Prop :=
  ∃ l g inner before,
    entries = .failed level l :: (inner ++ .call level ⟨event, l, x, g⟩ :: before) ∧
    ∀ entry ∈ inner, entry.Within level

section

variable {level : Nat} {steady : L → Bool} {raising : Prop} {new new' : List (Entry L)}
  {g g' g'' : LiveGraph L} {e : Ending}

theorem heard_append (level : Nat) (steady : L → Bool) (new old : List (Entry L)) :
    heard level steady (new ++ old) = heard level steady old ++ heard level steady new := by
  simp [heard]

theorem heard_removed (level : Nat) (steady : L → Bool) (xs : List Entity) (new : List (Entry L)) :
    heard level steady (.removed level xs :: new) = heard level steady new := by
  rw [← List.singleton_append, heard_append]
  exact List.append_nil _

theorem heard_of_within (h : ∀ entry ∈ new, entry.Within level) :
    heard level steady new = [] := by
  apply List.filterMap_eq_nil_iff.mpr
  intro entry hm
  have hw := h entry (List.mem_reverse.mp hm)
  cases entry with
  | call l c => exact if_neg fun he => Nat.ne_of_lt hw he.1
  | _ => rfl

theorem heard_call (level : Nat) (steady : L → Bool) (event : Event) (l : L) (x : Entity)
    (g : LiveGraph L) : heard level steady [.call level ⟨event, l, x, g⟩] =
      ([l].filter steady).map (event, ·, x) := by
  cases h : steady l <;> simp [heard, Entry.heard, h]

theorem deliveries_append (g : LiveGraph L) (steady : L → Bool)
    (told told' : List (Event × Entity)) :
    deliveries g steady (told ++ told') = deliveries g steady told ++ deliveries g steady told' :=
  List.flatMap_append

theorem deliveries_congr
    (h : ∀ event, (g'.listeners event).filter steady = (g.listeners event).filter steady)
    (told : List (Event × Entity)) : deliveries g' steady told = deliveries g steady told := by
  simp only [deliveries, h]

theorem Interrupted.append {event : Event} {x : Entity} (h : Interrupted level event x new)
    (old : List (Entry L)) : Interrupted level event x (new ++ old) := by
  obtain ⟨l, g, inner, before, rfl, hi⟩ := h
  exact ⟨l, g, inner, before ++ old, by simp, hi⟩

/-- The steady listeners are told what is expected, or one that may raise does so meanwhile. -/
structure Telling (level : Nat) (steady : L → Bool) (raising : Prop) (about : Event → Entity → Prop)
    (expected : List (Event × L × Entity)) (g : LiveGraph L) (new : List (Entry L)) (e : Ending)
    (g' : LiveGraph L) : Prop where
  contents : g'.contents = g.contents
  listeners : ∀ event, (g'.listeners event).filter steady = (g.listeners event).filter steady
  finished : e ≠ .unfinished
  told : e = .returned → heard level steady new = expected
  raised : e = .raised → raising ∧ heard level steady new <+: expected ∧
    ∃ event x, about event x ∧ Interrupted level event x new

variable {about about' : Event → Entity → Prop} {expected expected' : List (Event × L × Entity)}

theorem Telling.mono (h : Telling level steady raising about expected g new e g')
    (ha : ∀ event x, about event x → about' event x) :
    Telling level steady raising about' expected g new e g' where
  contents := h.contents
  listeners := h.listeners
  finished := h.finished
  told := h.told
  raised he := by
    obtain ⟨hr, hp, event, x, hx, hi⟩ := h.raised he
    exact ⟨hr, hp, event, x, ha event x hx, hi⟩

theorem Telling.still (g : LiveGraph L) :
    Telling level steady raising about [] g [] .returned g where
  contents := rfl
  listeners _ := rfl
  finished := by decide
  told _ := rfl
  raised he := by cases he

theorem Telling.trans (h : Telling level steady raising about expected g new .returned g')
    (h' : Telling level steady raising about expected' g' new' e g'') :
    Telling level steady raising about (expected ++ expected') g (new' ++ new) e g'' where
  contents := h'.contents.trans h.contents
  listeners event := (h'.listeners event).trans (h.listeners event)
  finished := h'.finished
  told he := by rw [heard_append, h.told rfl, h'.told he]
  raised he := by
    obtain ⟨hr, hp, event, x, hx, hi⟩ := h'.raised he
    rw [heard_append, h.told rfl]
    exact ⟨hr, (List.prefix_append_right_inj _).mpr hp, event, x, hx, hi.append new⟩

theorem Telling.stop (he : e ≠ .returned)
    (h : Telling level steady raising about expected g new e g') (expected' : List (Event × L × Entity)) :
    Telling level steady raising about (expected ++ expected') g new e g' where
  contents := h.contents
  listeners := h.listeners
  finished := h.finished
  told he' := absurd he' he
  raised he' := by
    obtain ⟨hr, hp, hi⟩ := h.raised he'
    exact ⟨hr, hp.trans (List.prefix_append _ _), hi⟩

end

section

variable [DecidableEq L] {behaviour : Behaviour L σ ε} {level : Nat} {steady : L → Bool}
  {raising : Prop}

theorem answer_within (behaviour : Behaviour L σ ε) (level : Nat) (l : L) (x : Entity)
    (s : State L σ) : (behaviour.answer level l x).Obeys
      (fun _ new _ _ => ∀ entry ∈ new, entry.Within level) s :=
  Action.Obeys.imp (Script.run_obeys (course_endures level) (edit_course level)
    (behaviour l x s.live s.memory) s) fun h => h.within

theorem call_of_returned {event : Event} {x : Entity} {l : L} {s t u : State L σ} {a : Unit}
    (ht : t = { s with journal := .call level ⟨event, l, x, s.live⟩ :: s.journal })
    (h : behaviour.answer level l x t = (.returned a, u)) :
    call behaviour level (edit behaviour level) event x l s = (.returned a, u) := by
  subst ht
  unfold Behaviour.answer at h
  simp only [call, Action.live, Action.record, Bind.bind, Action.bind, h]

theorem call_of_raised {event : Event} {x : Entity} {l : L} {s t u : State L σ} {error : ε}
    (ht : t = { s with journal := .call level ⟨event, l, x, s.live⟩ :: s.journal })
    (h : behaviour.answer level l x t = (.raised error, u)) :
    call behaviour level (edit behaviour level) event x l s =
      (.raised error, { u with journal := .failed level l :: u.journal }) := by
  subst ht
  unfold Behaviour.answer at h
  simp only [call, Action.live, Action.record, Bind.bind, Action.bind, h]

theorem call_telling {l : L} (hl : behaviour.WatchesAs level steady raising l) (event : Event)
    (x : Entity) (s : State L σ) :
    (call behaviour level (edit behaviour level) event x l).Obeys
      (Telling level steady raising (fun event' y => event' = event ∧ y = x)
        (([l].filter steady).map (event, ·, x))) s := by
  let t : State L σ := { s with journal := .call level ⟨event, l, x, s.live⟩ :: s.journal }
  obtain ⟨inner, hj, hwithin⟩ := answer_within behaviour level l x t
  have hcontents := hl.contents x t
  have hlisteners := hl.listeners x t
  have hending := hl.ending x t
  have hheard : heard level steady (inner ++ [.call level ⟨event, l, x, s.live⟩]) =
      ([l].filter steady).map (event, ·, x) := by
    rw [heard_append, heard_call, heard_of_within hwithin, List.append_nil]
  rcases hr : behaviour.answer level l x t with ⟨outcome, u⟩
  rw [hr] at hj hcontents hlisteners hending
  have hjournal : u.journal =
      (inner ++ [.call level ⟨event, l, x, s.live⟩]) ++ s.journal := by
    rw [hj, List.append_assoc]
    rfl
  cases outcome with
  | returned a =>
    have hrun := call_of_returned (s := s) rfl hr
    refine ⟨inner ++ [.call level ⟨event, l, x, s.live⟩], ?_, ?_⟩ <;> rw [hrun]
    · exact hjournal
    · exact ⟨hcontents, hlisteners, by simp [Outcome.ending], fun _ => hheard,
        fun he => by simp [Outcome.ending] at he⟩
  | raised error =>
    have hrun := call_of_raised (s := s) rfl hr
    have hraising : raising := (hending.resolve_left (by simp [Outcome.ending])).1
    have hraised : heard level steady
        (.failed level l :: (inner ++ [.call level ⟨event, l, x, s.live⟩])) =
          ([l].filter steady).map (event, ·, x) := by
      rw [← List.singleton_append, heard_append, hheard]
      exact List.append_nil _
    refine ⟨.failed level l :: (inner ++ [.call level ⟨event, l, x, s.live⟩]), ?_, ?_⟩ <;>
      rw [hrun]
    · exact congrArg (.failed level l :: ·) hjournal
    · refine ⟨hcontents, hlisteners, by simp [Outcome.ending], fun he => ?_, fun _ => ?_⟩
      · simp [Outcome.ending] at he
      · exact ⟨hraising, hraised ▸ List.prefix_rfl, event, x, ⟨rfl, rfl⟩, l, s.live, inner, [], rfl,
          hwithin⟩
  | unfinished =>
    exact absurd hending (by simp [Outcome.ending])

theorem calls_telling {ls : List L} (hls : ∀ l ∈ ls, behaviour.WatchesAs level steady raising l)
    (event : Event) (x : Entity) (s : State L σ) :
    (ls.forM (call behaviour level (edit behaviour level) event x)).Obeys
      (Telling level steady raising (fun event' y => event' = event ∧ y = x)
        (ls.filter steady |>.map (event, ·, x))) s := by
  induction ls generalizing s with
  | nil => exact ⟨[], rfl, .still _⟩
  | cons l ls ih =>
    have hsplit : ((l :: ls).filter steady).map (event, ·, x) =
        ([l].filter steady).map (event, ·, x) ++ (ls.filter steady).map (event, ·, x) := by
      rw [← List.map_append, ← List.filter_append]
      rfl
    rw [List.forall_mem_cons] at hls
    rw [hsplit]
    exact (call_telling hls.1 event x s).seq (fun _ t new ht => (ih hls.2 t).imp ht.trans)
      fun he h => h.stop he _

theorem emit_telling {event : Event} {s : State L σ}
    (hls : ∀ l ∈ s.live.listeners event, behaviour.WatchesAs level steady raising l) (x : Entity) :
    (emit behaviour level (edit behaviour level) event x).Obeys
      (Telling level steady raising (fun event' y => event' = event ∧ y = x)
        (deliveries s.live steady [(event, x)])) s := by
  have hone : deliveries s.live steady [(event, x)] =
      ((s.live.listeners event).filter steady).map (event, ·, x) := List.append_nil _
  rw [hone]
  exact Action.Obeys.live (calls_telling hls event x s)

/-- Whoever is subscribed has to watch, as long as the steady listeners are the same. -/
theorem announce_telling {event : Event} {s : State L σ}
    (hls : ∀ g : LiveGraph L,
      (∀ event, (g.listeners event).filter steady = (s.live.listeners event).filter steady) →
        ∀ l ∈ g.listeners event, behaviour.WatchesAs level steady raising l) (xs : List Entity) :
    (xs.forM (emit behaviour level (edit behaviour level) event)).Obeys
      (Telling level steady raising (fun event' y => event' = event ∧ y ∈ xs)
        (deliveries s.live steady (xs.map (event, ·)))) s := by
  induction xs generalizing s with
  | nil => exact ⟨[], rfl, .still _⟩
  | cons x xs ih =>
    have hsplit : deliveries s.live steady ((x :: xs).map (event, ·)) =
        deliveries s.live steady [(event, x)] ++ deliveries s.live steady (xs.map (event, ·)) :=
      deliveries_append s.live steady [(event, x)] _
    rw [hsplit]
    have hfirst := hls s.live fun _ => rfl
    refine ((emit_telling hfirst x).imp fun h => h.mono ?_).seq (fun _ t new ht => ?_)
      fun he h => h.stop he _
    · rintro event' y ⟨he, rfl⟩
      exact ⟨he, List.mem_cons_self⟩
    · have hlater := deliveries_congr ht.listeners (xs.map (event, ·))
      have hrest (g : LiveGraph L) (hg : ∀ event, (g.listeners event).filter steady =
          (t.live.listeners event).filter steady) :
          ∀ l ∈ g.listeners event, behaviour.WatchesAs level steady raising l :=
        hls g fun event => (hg event).trans (ht.listeners event)
      rw [← hlater]
      refine (ih hrest).imp fun h => ht.trans (h.mono ?_)
      exact fun event' y hy => ⟨hy.1, List.mem_cons_of_mem _ hy.2⟩

end

end FlowGraph.Live
