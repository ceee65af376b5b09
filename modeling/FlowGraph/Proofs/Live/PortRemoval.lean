import FlowGraph.Proofs.Live.Removal

/-! The removal of what ends at a port, all or nothing. Either every listener has been told of
everything there, and then it goes at once; or one of them raises, and then nothing has gone. -/

namespace FlowGraph.Live

variable {L σ ε : Type}

/-! Where an error comes from. -/

namespace Action

variable {α β : Type} {s t : State L σ} {error : ε}

theorem raised_of_bind {x : Action L σ ε α} {f : α → Action L σ ε β}
    (h : (x >>= f) s = (.raised error, t)) :
    x s = (.raised error, t) ∨ ∃ a u, x s = (.returned a, u) ∧ f a u = (.raised error, t) := by
  change bind x f s = _ at h
  unfold bind at h
  rcases hr : x s with ⟨outcome, u⟩
  rw [hr] at h
  cases outcome with
  | returned a => exact .inr ⟨a, u, rfl, h⟩
  | raised error' =>
    obtain ⟨he, rfl⟩ := Prod.mk.inj h
    obtain rfl := Outcome.raised.inj he
    exact .inl rfl
  | unfinished => cases h

theorem raised_of_forM {γ : Type} {f : γ → Action L σ ε PUnit} {xs : List γ}
    (h : xs.forM f s = (.raised error, t)) : ∃ a ∈ xs, ∃ u, f a u = (.raised error, t) := by
  induction xs generalizing s with
  | nil => cases h
  | cons a xs ih =>
    rcases raised_of_bind h with ha | ⟨-, u, -, hxs⟩
    · exact ⟨a, List.mem_cons_self, s, ha⟩
    · obtain ⟨b, hb, v, hv⟩ := ih hxs
      exact ⟨b, List.mem_cons_of_mem a hb, v, hv⟩

end Action

/-- While an action goes on, no listener that it calls has raised. -/
def unbroken (level : Nat) : Law L :=
  fun _ new e _ => e = .returned → ∀ l, .failed level l ∉ new

theorem unbroken_chains (level : Nat) : (unbroken level : Law L).Chains where
  still _ _ l h := by cases h
  trans h h' he l hm := by
    rcases List.mem_append.mp hm with hm | hm
    · exact h' he l hm
    · exact h rfl l hm

variable [DecidableEq L] {behaviour : Behaviour L σ ε} {level : Nat} {s t : State L σ}
  {event : Event} {l : L} {x : Entity} {p : Endpoint} {error : ε}

/-- The listener that was called last raised the error, and nothing has happened since. -/
def RaisedBy (behaviour : Behaviour L σ ε) (level : Nat) (event : Event) (l : L) (x : Entity)
    (error : ε) (t : State L σ) : Prop :=
  ∃ u v, u.journal.head? = some (.call level ⟨event, l, x, u.live⟩) ∧
    behaviour.answer level l x u = (.raised error, v) ∧
    t = { v with journal := .failed level l :: v.journal }

theorem raisedBy_of_call
    (h : call behaviour level (edit behaviour level) event x l s = (.raised error, t)) :
    RaisedBy behaviour level event l x error t := by
  let u : State L σ := { s with journal := .call level ⟨event, l, x, s.live⟩ :: s.journal }
  rcases hr : behaviour.answer level l x u with ⟨outcome, v⟩
  cases outcome with
  | returned a =>
    rw [call_of_returned rfl hr] at h
    cases h
  | raised error' =>
    rw [call_of_raised rfl hr] at h
    obtain ⟨he, rfl⟩ := Prod.mk.inj h
    obtain rfl := Outcome.raised.inj he
    exact ⟨u, v, rfl, hr, rfl⟩
  | unfinished =>
    unfold Behaviour.answer at hr
    simp only [call, Action.live, Action.record, Bind.bind, Action.bind, u] at h hr
    rw [hr] at h
    cases h

theorem raisedBy_of_removeEdge
    (h : removeEdge behaviour level (edit behaviour level) p s = (.raised error, t)) :
    ∃ l x, RaisedBy behaviour level .removeEdge l x error t := by
  -- Neither the note of the choice nor what comes after the announcements can raise.
  rcases Action.raised_of_bind h with hlive | ⟨g, u, -, h⟩
  · cases hlive
  rcases Action.raised_of_bind h with hrecord | ⟨-, v, -, h⟩
  · cases hrecord
  rcases Action.raised_of_bind h with hannounce | ⟨-, w, -, hafter⟩
  · obtain ⟨x, -, w, hemit⟩ := Action.raised_of_forM hannounce
    obtain ⟨l, -, r, hcall⟩ := Action.raised_of_forM hemit
    exact ⟨l, x, raisedBy_of_call hcall⟩
  · cases hafter

/-! Whether a listener has raised. -/

theorem call_unbroken (event : Event) (x : Entity) (l : L) (s : State L σ) :
    (call behaviour level (edit behaviour level) event x l).Obeys (unbroken level) s := by
  let t : State L σ := { s with journal := .call level ⟨event, l, x, s.live⟩ :: s.journal }
  obtain ⟨inner, hj, hwithin⟩ := answer_within behaviour level l x t
  have hcalm (l' : L) : .failed level l' ∉ inner ++ [.call level ⟨event, l, x, s.live⟩] := by
    intro hm
    rcases List.mem_append.mp hm with hm | hm
    · exact Nat.lt_irrefl level (hwithin _ hm)
    · cases List.mem_singleton.mp hm
  refine Action.Obeys.live (Action.Obeys.record_bind ?_)
  unfold Behaviour.answer at hj
  rcases hr : (behaviour l x t.live t.memory).run (edit behaviour level) t with ⟨outcome, u⟩
  rw [hr] at hj
  simp only [t] at hr hj
  cases outcome with
  | returned a => exact ⟨inner, by simp only [hr]; exact hj, fun _ => hcalm⟩
  | raised error =>
    refine ⟨.failed level l :: inner, ?_, ?_⟩ <;> simp only [hr]
    · rw [hj, List.cons_append]
    · intro he
      cases he
  | unfinished => exact ⟨inner, by simp only [hr]; exact hj, fun _ => hcalm⟩

theorem removeEdge_unbroken (p : Endpoint) (s : State L σ) :
    (removeEdge behaviour level (edit behaviour level) p).Obeys (unbroken level) s := by
  have hannounce (xs : List Entity) (t : State L σ) :
      (xs.forM (emit behaviour level (edit behaviour level) .removeEdge)).Obeys
        (unbroken level) t :=
    Action.Obeys.forM (unbroken_chains level) xs (fun x _ t => Action.Obeys.live
      (Action.Obeys.forM (unbroken_chains level) _ (fun l _ t => call_unbroken _ x l t) t)) t
  refine Action.Obeys.live (Action.Obeys.record_bind
    (dismiss_obeys (hannounce _ _) (fun he _ h => absurd h he) ?_))
  intro new g h he l hm
  rcases List.mem_append.mp hm with hm | hm
  · rcases List.mem_cons.mp hm with hm | hm
    · cases hm
    · exact h rfl l hm
  · cases List.mem_singleton.mp hm

/-! The removal. -/

/-- The removal at a port, and the entries that it makes. -/
theorem edit_removeEdge_vacating {steady : L → Bool} {raising : Prop}
    (hls : ∀ g : LiveGraph L,
      (∀ event, (g.listeners event).filter steady = (s.live.listeners event).filter steady) →
        ∀ l ∈ g.listeners .removeEdge, behaviour.WatchesAs level steady raising l)
    (p : Endpoint) (hd : s.live.contents.Distinct) :
    ∃ outcome t new, edit behaviour (level + 1) (.removeEdge p) s = (outcome, t) ∧
      t.journal = new ++ .edit level (.removeEdge p) s.live :: s.journal ∧
      (outcome.ending = .returned → outcome = .returned none) ∧
      Vacating level steady raising [p] s.live new outcome.ending t.live ∧
      unbroken level s.live new outcome.ending t.live := by
  let u : State L σ := { s with journal := .edit level (.removeEdge p) s.live :: s.journal }
  obtain ⟨outcome, t, new, hedit, hj, hreply, h⟩ :=
    ((removeEdge_vacating (s := u) hls p hd).and (removeEdge_unbroken p u)).replied
  exact ⟨outcome, t, new, hedit, hj, hreply, h⟩

theorem raisedBy_of_edit
    (h : edit behaviour (level + 1) (.removeEdge p) s = (.raised error, t)) :
    ∃ l x, RaisedBy behaviour level .removeEdge l x error t := by
  let u : State L σ := { s with journal := .edit level (.removeEdge p) s.live :: s.journal }
  have hedit : (removeEdge behaviour level (edit behaviour level) p >>= fun _ => pure none) u =
      (.raised error, t) := h
  rcases Action.raised_of_bind hedit with hremove | ⟨-, v, -, hreply⟩
  · exact raisedBy_of_removeEdge hremove
  · cases hreply

/-- The listeners of removals leave alone what the graph holds and who is subscribed, but they may
raise. Either none of them does: then just those connections have gone that end at the port, and
each listener has been told of each of them, as often as it is subscribed, the edges first. Or one
of them does: then its error comes out, nothing has gone, and what they have been told are the
first of those calls. -/
theorem removeEdge_all_or_nothing (hs : s.live.Sound) (p : Endpoint)
    (hw : ∀ l ∈ s.live.listeners .removeEdge, behaviour.WatchesAs level (fun _ => true) True l) :
    ∃ outcome t new, edit behaviour (level + 1) (.removeEdge p) s = (outcome, t) ∧
      t.journal = new ++ .edit level (.removeEdge p) s.live :: s.journal ∧
      ((outcome = .returned none ∧ (∀ l, .failed level l ∉ new) ∧
        t.live.nodes = s.live.nodes ∧
        t.live.edges = s.live.edges.filter (fun e => e.value.source ≠ p ∧ e.value.target ≠ p) ∧
        t.live.initializers = s.live.initializers.filter (·.value.target ≠ p) ∧
        heard level (fun _ => true) new = deliveries s.live (fun _ => true)
          ((s.live.contents.connectionsAt p).map (.removeEdge, ·))) ∨
      ∃ error l x, outcome = .raised error ∧ RaisedBy behaviour level .removeEdge l x error t ∧
        t.live.nodes = s.live.nodes ∧ t.live.edges = s.live.edges ∧
        t.live.initializers = s.live.initializers ∧
        heard level (fun _ => true) new <+: deliveries s.live (fun _ => true)
          ((s.live.contents.connectionsAt p).map (.removeEdge, ·))) := by
  have hls (g : LiveGraph L) (hg : ∀ event, (g.listeners event).filter (fun _ => true) =
      (s.live.listeners event).filter fun _ => true) :
      ∀ l ∈ g.listeners .removeEdge, behaviour.WatchesAs level (fun _ => true) True l := by
    have hsame := hg .removeEdge
    rw [List.filter_true, List.filter_true] at hsame
    rwa [hsame]
  have hplan : departing (s.live.contents.removals [p]) =
      (s.live.contents.connectionsAt p).map (.removeEdge, ·) := by
    simp [departing, Contents.removals]
  obtain ⟨outcome, t, new, hedit, hj, hreply, hvacating, hunbroken⟩ :=
    edit_removeEdge_vacating hls p hs.distinct
  refine ⟨outcome, t, new, hedit, hj, ?_⟩
  cases outcome with
  | returned reply =>
    obtain ⟨hcontents, hheard⟩ := hvacating.returned rfl
    rw [hplan] at hheard
    refine .inl ⟨hreply rfl, hunbroken rfl, congrArg Contents.nodes hcontents, ?_, ?_, hheard⟩
    · refine (congrArg Contents.edges hcontents).trans (List.filter_congr fun e _ => ?_)
      simp [Entity.avoids_singleton, Entity.touches, Edge.touches, Bool.beq_eq_decide_eq]
    · refine (congrArg Contents.initializers hcontents).trans (List.filter_congr fun i _ => ?_)
      simp [Entity.avoids_singleton, Entity.touches, Bool.beq_eq_decide_eq]
  | raised error =>
    obtain ⟨-, hheard, before, q, after, x, hsplit, hcontents, -⟩ := hvacating.raised rfl
    obtain rfl : before = [] := by
      cases before with
      | nil => rfl
      | cons b before => simp at hsplit
    rw [Contents.vacated_nil] at hcontents
    rw [hplan] at hheard
    obtain ⟨l, y, hraised⟩ := raisedBy_of_edit hedit
    exact .inr ⟨error, l, y, rfl, hraised, congrArg Contents.nodes hcontents,
      congrArg Contents.edges hcontents, congrArg Contents.initializers hcontents, hheard⟩
  | unfinished => exact absurd rfl hvacating.finished

/-- A listener that counts down its calls and raises at last, and one that takes a node out. -/
def mixed : Behaviour Bool Nat String := fun counts x g left =>
  if counts then brittle counts x g left
  else .edit left (.removeNode "A") fun _ _ left => .done left ()

theorem mixed_watchesAs : mixed.WatchesAs 0 (fun _ => true) True true := by
  refine ⟨fun x s => ?_, fun x s event => ?_, fun x s => ?_⟩
  all_goals
    obtain ⟨live, memory, journal⟩ := s
    cases memory
  · rfl
  · rfl
  · rfl
  · rfl
  · exact .inr ⟨trivial, rfl⟩
  · exact .inl rfl

/-- The one that counts is subscribed to removals twice, the other one to additions. -/
def counted (calls : Nat) : State Bool Nat where
  live := { crowded.live with
    subscriptions := [(.removeEdge, true), (.addEdge, false), (.removeEdge, true)] }
  memory := calls

theorem counted_cleared_or_kept :
    (∃ t, edit mixed 1 (.removeEdge ⟨"A", "in"⟩) (counted 6) = (.returned none, t) ∧
      t.live.nodes = crowded.live.nodes ∧ t.live.edges.map (·.tag) = [3, 6] ∧
      t.live.initializers.map (·.tag) = [7, 9]) ∧
    ∃ error t, edit mixed 1 (.removeEdge ⟨"A", "in"⟩) (counted 5) = (.raised error, t) ∧
      t.live.nodes = crowded.live.nodes ∧ t.live.edges = crowded.live.edges ∧
      t.live.initializers = crowded.live.initializers := by
  have hw (calls : Nat) : ∀ l ∈ (counted calls).live.listeners .removeEdge,
      mixed.WatchesAs 0 (fun _ => true) True l := by
    have hlisteners : (counted calls).live.listeners .removeEdge = [true, true] := rfl
    rw [hlisteners]
    simpa using mixed_watchesAs
  have hsound (calls : Nat) : (counted calls).live.Sound :=
    ⟨crowded_sound.tag_lt, crowded_sound.nodes, crowded_sound.edges, crowded_sound.initializers⟩
  have hsix : (edit mixed 1 (.removeEdge ⟨"A", "in"⟩) (counted 6)).1.ending = .returned := by
    decide +kernel
  have hfive : (edit mixed 1 (.removeEdge ⟨"A", "in"⟩) (counted 5)).1.ending = .raised := by
    decide
  constructor
  · obtain ⟨outcome, t, new, hedit, -, ⟨rfl, -, hnodes, hedges, hinitializers, -⟩ | hraised⟩ :=
      removeEdge_all_or_nothing (hsound 6) ⟨"A", "in"⟩ (hw 6)
    · refine ⟨t, hedit, hnodes, ?_, ?_⟩
      · rw [hedges]
        decide
      · rw [hinitializers]
        decide
    · obtain ⟨error, l, x, rfl, -⟩ := hraised
      rw [hedit] at hsix
      cases hsix
  · obtain ⟨outcome, t, new, hedit, -, ⟨rfl, -⟩ | hraised⟩ :=
      removeEdge_all_or_nothing (hsound 5) ⟨"A", "in"⟩ (hw 5)
    · rw [hedit] at hfive
      cases hfive
    · obtain ⟨error, l, x, rfl, -, hnodes, hedges, hinitializers, -⟩ := hraised
      exact ⟨error, t, hedit, hnodes, hedges, hinitializers⟩

end FlowGraph.Live
