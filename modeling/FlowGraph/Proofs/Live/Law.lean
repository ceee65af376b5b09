import FlowGraph.Live.Edit
import FlowGraph.Proofs.Live.Identity

/-! Laws of runs. A law relates the graph before an action, the entries that the action adds to
the journal, the way it ends, and the graph after it. What listeners do in between is bound by
the law as well, so it is proved once for all nestings. -/

namespace FlowGraph.Live

variable {L σ ε α β : Type}

inductive Ending where
  | returned
  | raised
  | unfinished
  deriving DecidableEq, Repr

def Outcome.ending : Outcome ε α → Ending
  | .returned _ => .returned
  | .raised _ => .raised
  | .unfinished => .unfinished

abbrev Law (L : Type) := LiveGraph L → List (Entry L) → Ending → LiveGraph L → Prop

def Action.Obeys (x : Action L σ ε α) (law : Law L) (s : State L σ) : Prop :=
  ∃ new, (x s).2.journal = new ++ s.journal ∧ law s.live new (x s).1.ending (x s).2.live

/-- Laws for one step after another, each of which has to return. -/
structure Law.Chains (law : Law L) : Prop where
  still (g : LiveGraph L) : law g [] .returned g
  trans {g g' g'' : LiveGraph L} {new new' : List (Entry L)} {e : Ending} :
    law g new .returned g' → law g' new' e g'' → law g (new' ++ new) e g''

/-- Laws for listeners, which may go on after an edit that raised. -/
structure Law.Endures (law : Law L) : Prop where
  still (g : LiveGraph L) (e : Ending) : law g [] e g
  trans {g g' g'' : LiveGraph L} {new new' : List (Entry L)} {e e' : Ending} :
    e ≠ .unfinished → law g new e g' → law g' new' e' g'' → law g (new' ++ new) e' g''

theorem Law.Endures.chains {law : Law L} (h : law.Endures) : law.Chains where
  still g := h.still g .returned
  trans := h.trans (by decide)

namespace Action

variable {law law₁ law₂ : Law L} {s : State L σ}

theorem Obeys.imp {x : Action L σ ε α} (hx : x.Obeys law₁ s)
    (h : ∀ {new e g}, law₁ s.live new e g → law s.live new e g) : x.Obeys law s := by
  obtain ⟨new, hj, hl⟩ := hx
  exact ⟨new, hj, h hl⟩

/-- An action adds the same entries by whichever law it is looked at. -/
theorem Obeys.and {x : Action L σ ε α} (h₁ : x.Obeys law₁ s) (h₂ : x.Obeys law₂ s) :
    x.Obeys (fun g new e g' => law₁ g new e g' ∧ law₂ g new e g') s := by
  obtain ⟨new, hj, hl⟩ := h₁
  obtain ⟨new', hj', hl'⟩ := h₂
  have : new' = new := List.append_cancel_right (hj'.symm.trans hj)
  subst this
  exact ⟨new', hj, hl, hl'⟩

theorem Obeys.pure (hl : law.Chains) (a : α) : (Pure.pure a : Action L σ ε α).Obeys law s :=
  ⟨[], rfl, hl.still s.live⟩

theorem bind_of_returned {x : Action L σ ε α} {f : α → Action L σ ε β} {a : α}
    {t : State L σ} (h : x s = (.returned a, t)) : (x >>= f) s = f a t := by
  change Action.bind x f s = f a t
  simp only [Action.bind, h]

/-- The general rule for two steps. The second one goes on from what the first one did. -/
theorem Obeys.seq {x : Action L σ ε α} {f : α → Action L σ ε β} (hx : x.Obeys law₁ s)
    (hf : ∀ a t new, law₁ s.live new .returned t.live →
      (f a).Obeys (fun _ new' e g => law s.live (new' ++ new) e g) t)
    (stop : ∀ {new e g}, e ≠ .returned → law₁ s.live new e g → law s.live new e g) :
    (x >>= f).Obeys law s := by
  obtain ⟨new, hj, hl⟩ := hx
  rcases hr : x s with ⟨outcome, t⟩
  rw [hr] at hj hl
  cases outcome with
  | returned a =>
    obtain ⟨new', hj', hl'⟩ := hf a t new hl
    refine ⟨new' ++ new, ?_, ?_⟩ <;> rw [bind_of_returned hr]
    · rw [hj', hj, List.append_assoc]
    · exact hl'
  | raised error =>
    have he : (x >>= f) s = (.raised error, t) := by
      change Action.bind x f s = _
      simp only [Action.bind, hr]
    refine ⟨new, ?_, ?_⟩ <;> rw [he]
    · exact hj
    · exact stop (by simp [Outcome.ending]) hl
  | unfinished =>
    have he : (x >>= f) s = (.unfinished, t) := by
      change Action.bind x f s = _
      simp only [Action.bind, hr]
    refine ⟨new, ?_, ?_⟩ <;> rw [he]
    · exact hj
    · exact stop (by simp [Outcome.ending]) hl

theorem Obeys.bind {x : Action L σ ε α} {f : α → Action L σ ε β} (hl : law.Chains)
    (hx : x.Obeys law s)
    (hf : ∀ a t new, law s.live new .returned t.live → (f a).Obeys law t) :
    (x >>= f).Obeys law s :=
  hx.seq (fun a t new ht => (hf a t new ht).imp (hl.trans ht)) fun _ h => h

theorem Obeys.forM {γ : Type} {f : γ → Action L σ ε PUnit} (hl : law.Chains) (xs : List γ)
    (hf : ∀ a ∈ xs, ∀ s, (f a).Obeys law s) (s : State L σ) : (xs.forM f).Obeys law s := by
  induction xs generalizing s with
  | nil => exact Obeys.pure hl _
  | cons a xs ih =>
    exact (hf a (by simp) s).bind hl fun _ t _ _ => ih (fun b hb => hf b (by simp [hb])) t

theorem Obeys.ite {c : Prop} [Decidable c] {x y : Action L σ ε α} (hx : c → x.Obeys law s)
    (hy : ¬ c → y.Obeys law s) : (if c then x else y).Obeys law s := by
  split
  · next h => exact hx h
  · next h => exact hy h

theorem Obeys.live {f : LiveGraph L → Action L σ ε α} (h : (f s.live).Obeys law s) :
    (Action.live >>= f).Obeys law s := h

theorem Obeys.modify {f : LiveGraph L → LiveGraph L} (h : law s.live [] .returned (f s.live)) :
    (Action.modify f : Action L σ ε Unit).Obeys law s := ⟨[], rfl, h⟩

theorem Obeys.record {entry : Entry L} (h : law s.live [entry] .returned s.live) :
    (Action.record entry : Action L σ ε Unit).Obeys law s := ⟨[entry], rfl, h⟩

/-- An action that only looks at the result of another one. -/
theorem Obeys.map {x : Action L σ ε α} {f : α → β} (hx : x.Obeys law s) :
    (x >>= fun a => Pure.pure (f a)).Obeys law s :=
  hx.seq (fun _ _ _ h => ⟨[], rfl, h⟩) fun _ h => h

/-- An action of which only the end is told, as edits tell of theirs. -/
theorem Obeys.replied {x : Action L σ ε Unit} (hx : x.Obeys law s) :
    ∃ outcome t new, (x >>= fun _ => Pure.pure (none : Reply)) s = (outcome, t) ∧
      t.journal = new ++ s.journal ∧ (outcome.ending = .returned → outcome = .returned none) ∧
      law s.live new outcome.ending t.live := by
  obtain ⟨new, hj, hl⟩ := hx.map (f := fun _ => (none : Reply))
  refine ⟨_, _, new, rfl, hj, fun he => ?_, hl⟩
  change (Action.bind x _ s).1.ending = _ at he
  change (Action.bind x _ s).1 = _
  unfold Action.bind at he ⊢
  rcases hr : x s with ⟨outcome, t⟩
  rw [hr] at he
  cases outcome with
  | returned a => rfl
  | raised error => cases he
  | unfinished => cases he

theorem Obeys.modify_bind {f : LiveGraph L → LiveGraph L} {k : Unit → Action L σ ε α}
    (h : (k ()).Obeys (fun _ => law s.live) { s with live := f s.live }) :
    (Action.modify f >>= k).Obeys law s := h

theorem Obeys.record_bind {entry : Entry L} {k : Unit → Action L σ ε α}
    (h : (k ()).Obeys (fun g new => law g (new ++ [entry]))
      { s with journal := entry :: s.journal }) : (Action.record entry >>= k).Obeys law s := by
  obtain ⟨new, hj, he⟩ := h
  exact ⟨new ++ [entry], by rw [List.append_assoc]; exact hj, he⟩

end Action

section

variable {behaviour : Behaviour L σ ε} {level : Nat}
  {inner : Command L → Action L σ ε Reply} {law : Law L}

theorem Script.run_obeys (hl : law.Endures) (hi : ∀ c s, (inner c).Obeys law s)
    (script : Script L σ ε α) (s : State L σ) : Action.Obeys (script.run inner) law s := by
  induction script generalizing s with
  | done memory result => exact ⟨[], rfl, hl.still _ _⟩
  | raise memory error => exact ⟨[], rfl, hl.still _ _⟩
  | edit memory command next ih =>
    obtain ⟨new, hj, he⟩ := hi command { s with memory }
    rcases hr : inner command { s with memory } with ⟨outcome, t⟩
    rw [hr] at hj he
    -- The listener goes on unless the edit is unfinished.
    cases outcome with
    | returned reply =>
      obtain ⟨new', hj', he'⟩ := ih (.ok reply) t.live t.memory t
      refine ⟨new' ++ new, ?_, ?_⟩ <;> simp only [Script.run, hr]
      · rw [hj', hj, List.append_assoc]
      · exact hl.trans (by simp [Outcome.ending]) he he'
    | raised error =>
      obtain ⟨new', hj', he'⟩ := ih (.error error) t.live t.memory t
      refine ⟨new' ++ new, ?_, ?_⟩ <;> simp only [Script.run, hr]
      · rw [hj', hj, List.append_assoc]
      · exact hl.trans (by simp [Outcome.ending]) he he'
    | unfinished =>
      refine ⟨new, ?_, ?_⟩ <;> simp only [Script.run, hr]
      · exact hj
      · exact he

theorem call_obeys (hl : law.Endures) (hi : ∀ c s, (inner c).Obeys law s) {event : Event}
    {x : Entity} {listener : L} {s : State L σ}
    (hc : law s.live [.call level ⟨event, listener, x, s.live⟩] .returned s.live)
    (hf : ∀ g, law g [.failed level listener] .raised g) :
    (call behaviour level inner event x listener).Obeys law s := by
  refine Action.Obeys.live ((Action.Obeys.record hc).bind hl.chains fun _ t _ _ => ?_)
  obtain ⟨new, hj, he⟩ := Script.run_obeys hl hi (behaviour listener x t.live t.memory) t
  rcases hr : (behaviour listener x t.live t.memory).run inner t with ⟨outcome, u⟩
  rw [hr] at hj he
  cases outcome with
  | raised error =>
    refine ⟨.failed level listener :: new, ?_, ?_⟩ <;> simp only [hr]
    · rw [hj, List.cons_append]
    · exact hl.trans (by simp [Outcome.ending]) he (hf u.live)
  | returned _ => exact ⟨new, by simp only [hr]; exact hj, by simp only [hr]; exact he⟩
  | unfinished => exact ⟨new, by simp only [hr]; exact hj, by simp only [hr]; exact he⟩

theorem calls_obeys (hl : law.Endures) (hi : ∀ c s, (inner c).Obeys law s) {event : Event}
    {x : Entity} (ls : List L)
    (hc : ∀ g, ∀ l ∈ ls, law g [.call level ⟨event, l, x, g⟩] .returned g)
    (hf : ∀ g l, law g [.failed level l] .raised g) (s : State L σ) :
    (ls.forM (call behaviour level inner event x)).Obeys law s :=
  Action.Obeys.forM hl.chains ls
    (fun l h s => call_obeys hl hi (hc s.live l h) fun g => hf g l) s

theorem emit_obeys (hl : law.Endures) (hi : ∀ c s, (inner c).Obeys law s) {event : Event}
    {x : Entity} (hc : ∀ g l, law g [.call level ⟨event, l, x, g⟩] .returned g)
    (hf : ∀ g l, law g [.failed level l] .raised g) (s : State L σ) :
    (emit behaviour level inner event x).Obeys law s :=
  Action.Obeys.live (calls_obeys hl hi _ (fun g l _ => hc g l) hf s)

/-- The law of a removal, from that of its announcements and that of what it does after them. -/
theorem dismiss_obeys {law₁ : Law L} {event : Event} {xs : List Entity} {s : State L σ}
    (h : (xs.forM (emit behaviour level inner event)).Obeys law₁ s)
    (stop : ∀ {new e g}, e ≠ .returned → law₁ s.live new e g → law s.live new e g)
    (go : ∀ {new g}, law₁ s.live new .returned g →
      law s.live (.removed level xs :: new) .returned (g.drop xs)) :
    (dismiss behaviour level inner event xs).Obeys law s :=
  h.seq (fun _ _ _ ht => ⟨[.removed level xs], rfl, go ht⟩) stop

theorem enter_obeys {event : Event} {x : Entity} {push : LiveGraph L → LiveGraph L}
    {s : State L σ} (h : (emit behaviour level inner event x).Obeys (fun _ => law s.live)
      { s with live := push s.live }) :
    (enter behaviour level inner event x push).Obeys law s :=
  Action.Obeys.modify_bind h.map

/-- The law of removing a node, from that of the removals before it. -/
theorem removeNode_obeys {law₁ : Law L} (hl : law₁.Chains) {id : String} {s : State L σ}
    (hedge : ∀ p t, p.node = id → (removeEdge behaviour level inner p).Obeys law₁ t)
    (stop : ∀ {new e g}, e ≠ .returned → law₁ s.live new e g → law s.live new e g)
    (hnone : s.live.find? id = none → law s.live [] .returned s.live)
    (hlast : ∀ n t new, s.live.find? id = some n → law₁ s.live new .returned t.live →
      (dismiss behaviour level inner .removeNode [.node n]).Obeys
        (fun _ new' e g => law s.live (new' ++ new) e g) t) :
    (removeNode behaviour level inner id).Obeys law s := by
  have hat (p : Endpoint) (t : State L σ) :
      Action.Obeys (if p.node = id then removeEdge behaviour level inner p else pure ()) law₁ t :=
    Action.Obeys.ite (fun h => hedge p t h) fun _ => Action.Obeys.pure hl _
  have hedges (t : State L σ) :
      (t.live.edges.forM (detachEdge behaviour level inner id)).Obeys law₁ t :=
    Action.Obeys.forM hl _ (fun e _ t => Action.Obeys.ite
      (fun h => (hedge _ t h).bind hl fun _ u _ _ => hat _ u) fun _ => hat _ t) t
  have hinitials (t : State L σ) :
      (t.live.initializers.forM (detachInitializer behaviour level inner id)).Obeys law₁ t :=
    Action.Obeys.forM hl _ (fun i _ t => hat _ t) t
  refine Action.Obeys.live ?_
  split
  · next hn => exact ⟨[], rfl, hnone hn⟩
  · next n hn =>
    refine Action.Obeys.live ((hedges s).seq (fun _ t new ht => ?_) stop)
    refine Action.Obeys.live ((hinitials t).seq (fun _ u new' hu => ?_) fun he h => ?_)
    · exact (hlast n u _ hn (hl.trans ht hu)).imp fun h => by rwa [List.append_assoc]
    · exact stop he (hl.trans ht h)

/-- What an edit has to show, command by command. -/
theorem perform_obeys [DecidableEq L] (law : Law L) {c : Command L} {s : State L σ}
    (hreport : ∀ n, c = .report n → law s.live [.notice n] .returned s.live)
    (hwarn : ∀ n {new e g}, law s.live new e g → law s.live (new ++ [.notice n]) e g)
    (henter : ∀ {event x t}, s.live.Enters event x t.live → c.addition s.live = some x →
      (emit behaviour level inner event x).Obeys (fun _ => law s.live) t)
    (hedge : ∀ p, c = .removeEdge p → (removeEdge behaviour level inner p).Obeys law s)
    (hnode : ∀ id, c = .removeNode id → (removeNode behaviour level inner id).Obeys law s)
    (hadjust : ∀ {g}, s.live.Adjusts c g → law s.live [] .returned g) :
    (perform behaviour level inner c).Obeys law s := by
  cases c with
  | addNode n =>
    refine Action.Obeys.live (Action.Obeys.ite (fun _ => ?_) fun _ => ?_)
    · have h : (enter behaviour level inner .addNode (.node ⟨s.live.fresh, n⟩)
          (·.pushNode n)).Obeys law
          { s with journal := .notice (.repeatedId s.live.name n.id) :: s.journal } :=
        enter_obeys (henter (.node n) rfl)
      exact Action.Obeys.record_bind (h.imp (hwarn _))
    · exact enter_obeys (henter (.node n) rfl)
  | removeNode id => exact (hnode id rfl).map
  | addEdge e => exact Action.Obeys.live (enter_obeys (henter (.edge e) rfl))
  | removeEdge p => exact (hedge p rfl).map
  | addInitial i => exact Action.Obeys.live (enter_obeys (henter (.initializer i) rfl))
  | subscribe event l => exact (Action.Obeys.modify (hadjust (.subscribe event l))).map
  | unsubscribe event l => exact (Action.Obeys.modify (hadjust (.unsubscribe event l))).map
  | rename name => exact (Action.Obeys.modify (hadjust (.rename name))).map
  | setDisplay id display => exact (Action.Obeys.modify (hadjust (.setDisplay id display))).map
  | report n => exact (Action.Obeys.record (hreport n rfl)).map

/-- A law that one level hands on to the next holds of all edits. -/
theorem edit_obeys [DecidableEq L] {law : Nat → Law L}
    (hzero : ∀ g, law 0 g [] .unfinished g)
    (hsucc : ∀ level, (∀ c s, (edit behaviour level c).Obeys (law level) s) → ∀ c s,
      (perform behaviour level (edit behaviour level) c).Obeys
        (fun g new => law (level + 1) g (new ++ [.edit level c g])) s) :
    ∀ levels c s, (edit behaviour levels c).Obeys (law levels) s := by
  intro levels
  induction levels with
  | zero => exact fun c s => ⟨[], rfl, hzero s.live⟩
  | succ level ih =>
    intro c s
    exact Action.Obeys.live (Action.Obeys.record_bind (hsucc level ih c _))

end

end FlowGraph.Live
