import FlowGraph.Proofs.Live.Attribution
import FlowGraph.Proofs.Live.Failure

/-! Removing a node. Listeners may change the graph while the connections of the node are looked
through, and still no connection that was there at first is missed, and nothing else is lost. -/

namespace FlowGraph.Live

variable {L σ ε : Type}

/-- When it returns, an action has taken all connections of some kind that were there at first. -/
def clearing (n : Nat) (wanted : Entity → Prop) : Law L := fun g new e g' =>
  Course n g new g' ∧ (g.Sound → e = .returned → ∀ x ∈ g.entities, x.isNode = false →
    wanted x → x.among (taken new) = true)

theorem clearing.mono {n : Nat} {wanted wanted' : Entity → Prop} {g g' : LiveGraph L}
    {new : List (Entry L)} {e : Ending} (h : clearing n wanted g new e g')
    (hw : ∀ x ∈ g.entities, wanted' x → wanted x) : clearing n wanted' g new e g' :=
  ⟨h.1, fun hs he x hx hn hx' => h.2 hs he x hx hn (hw x hx hx')⟩

section

variable {behaviour : Behaviour L σ ε} {level : Nat} {inner : Command L → Action L σ ε Reply}
  {n : Nat} {α β : Type} {wanted wanted' : Entity → Prop}

theorem clearing_still (hw : ∀ x, ¬ wanted x) (a : α) (s : State L σ) :
    (pure a : Action L σ ε α).Obeys (clearing n wanted) s :=
  ⟨[], rfl, .still, fun _ _ x _ _ hx => absurd hx (hw x)⟩

/-- The second of two actions need not look for what the first one has taken. -/
theorem clearing_seq {x : Action L σ ε α} {f : α → Action L σ ε β} {s : State L σ}
    (hx : x.Obeys (clearing n wanted) s) (hf : ∀ a t, (f a).Obeys (clearing n wanted') t) :
    (x >>= f).Obeys (clearing n fun y => wanted y ∨ wanted' y) s := by
  refine hx.seq ?_ ?_
  · rintro a t new ⟨hc, h⟩
    refine (hf a t).imp ?_
    rintro new' e g ⟨hc', h'⟩
    refine ⟨hc.trans hc', fun hs he y hy hn hw => ?_⟩
    rw [taken_append, Entity.among_append, Bool.or_eq_true]
    cases ha : y.among (taken new) with
    | true => exact .inr rfl
    | false =>
      rcases hw with hw | hw
      · rw [h hs rfl y hy hn hw] at ha
        cases ha
      · have hyt := (hc.mem_iff (hs.tag_lt y hy) hn).mpr ⟨hy, ha⟩
        exact .inl (h' (hc.sound hs) he y hyt hn hw)
  · exact fun hne h => ⟨h.1, fun _ he => absurd he hne⟩

theorem clearing_forM {γ : Type} {f : γ → Action L σ ε PUnit} {want : γ → Entity → Prop}
    (xs : List γ) (hf : ∀ a t, (f a).Obeys (clearing n (want a)) t) (s : State L σ) :
    (xs.forM f).Obeys (clearing n fun x => ∃ a ∈ xs, want a x) s := by
  induction xs generalizing s with
  | nil => exact clearing_still (by simp) _ s
  | cons a xs ih =>
    refine (clearing_seq (hf a s) fun _ t => ih t).imp fun h => h.mono ?_
    rintro x - ⟨b, hb, hx⟩
    rcases List.mem_cons.mp hb with rfl | hb
    · exact .inl hx
    · exact .inr ⟨b, hb, hx⟩

theorem removeEdge_clearing (hi : ∀ c s, (inner c).Obeys (course level) s) {p : Endpoint}
    (s : State L σ) :
    (removeEdge behaviour level inner p).Obeys (clearing (level + 1) (·.touches p = true)) s := by
  refine Action.Obeys.live (Action.Obeys.record_bind (dismiss_obeys (announce_course hi _ _)
    ?_ ?_))
  · intro new e g hne hc
    refine ⟨Course.trans (.note .still (Nat.lt_succ_self level) rfl) hc, fun _ he => ?_⟩
    exact absurd he hne
  · intro new g hc
    have hcourse : Course (level + 1) s.live (new ++ [.removal level p s.live]) g :=
      Course.trans (.note .still (Nat.lt_succ_self level) rfl) hc
    refine ⟨hcourse.remove (Nat.lt_succ_self level), fun _ _ x hx _ ht => ?_⟩
    apply Entity.among_of_mem
    exact List.mem_append_left _ (LiveGraph.mem_entitiesAt hx ht)

theorem detachEdge_clearing (hi : ∀ c s, (inner c).Obeys (course level) s) {id : String}
    (e : Tagged Edge) (s : State L σ) : (detachEdge behaviour level inner id e).Obeys
      (clearing (level + 1) fun x => x = .edge e ∧ x.joins id = true) s := by
  have htarget (t : State L σ) : Action.Obeys
      (if e.value.target.node = id then removeEdge behaviour level inner e.value.target
        else pure ())
      (clearing (level + 1) fun x => x = .edge e ∧ e.value.target.node = id) t := by
    refine Action.Obeys.ite (fun _ => ?_) fun h => clearing_still (fun x hx => h hx.2) _ t
    refine (removeEdge_clearing hi t).imp fun h => h.mono ?_
    rintro x - ⟨rfl, -⟩
    simp [Entity.touches, Edge.touches]
  refine Action.Obeys.ite (fun _ => ?_) fun hsource => ?_
  · refine (clearing_seq (removeEdge_clearing hi s) fun _ t => htarget t).imp fun h => h.mono ?_
    rintro x - ⟨rfl, -⟩
    exact .inl (by simp [Entity.touches, Edge.touches])
  · refine (htarget s).imp fun h => h.mono ?_
    rintro x - ⟨rfl, hx⟩
    simp only [Entity.joins, Bool.or_eq_true, beq_iff_eq] at hx
    exact ⟨rfl, hx.resolve_left hsource⟩

theorem detachInitializer_clearing (hi : ∀ c s, (inner c).Obeys (course level) s) {id : String}
    (i : Tagged Initializer) (s : State L σ) :
    (detachInitializer behaviour level inner id i).Obeys
      (clearing (level + 1) fun x => x = .initializer i ∧ x.joins id = true) s := by
  refine Action.Obeys.ite (fun _ => ?_) fun h => clearing_still ?_ _ s
  · refine (removeEdge_clearing hi s).imp fun h => h.mono ?_
    rintro x - ⟨rfl, -⟩
    simp [Entity.touches]
  · rintro x ⟨rfl, hx⟩
    exact h (by simpa [Entity.joins] using hx)

theorem dismiss_takes (hi : ∀ c s, (inner c).Obeys (course level) s) {event : Event}
    {xs : List Entity} (s : State L σ) :
    (dismiss behaviour level inner event xs).Obeys (fun _ new e _ =>
      e = .returned → ∀ x ∈ xs, x.among (taken new) = true) s :=
  dismiss_obeys (announce_course hi xs s) (fun hne _ he => absurd he hne) fun _ _ _ hx =>
    Entity.among_of_mem (List.mem_append_left _ hx)

/-- Packets are looked through after the edges: those that went with the edges need no more. -/
theorem removeNode_clearing (hi : ∀ c s, (inner c).Obeys (course level) s) {id : String}
    {n : Tagged Node} {s : State L σ} (hn : s.live.find? id = some n) :
    (removeNode behaviour level inner id).Obeys (clearing (level + 1) (·.joins id = true)) s := by
  have hedges (t : State L σ) : (t.live.edges.forM (detachEdge behaviour level inner id)).Obeys
      (clearing (level + 1) fun x => (∃ e, x = .edge e) ∧ x.joins id = true) t := by
    refine (clearing_forM _ (detachEdge_clearing hi) t).imp fun h => h.mono ?_
    rintro x hx ⟨⟨e, rfl⟩, hj⟩
    exact ⟨e, LiveGraph.mem_entities_edge.mp hx, rfl, hj⟩
  have hinitials (t : State L σ) :
      (t.live.initializers.forM (detachInitializer behaviour level inner id)).Obeys
        (clearing (level + 1) fun x => (∃ i, x = .initializer i) ∧ x.joins id = true) t := by
    refine (clearing_forM _ (detachInitializer_clearing hi) t).imp fun h => h.mono ?_
    rintro x hx ⟨⟨i, rfl⟩, hj⟩
    exact ⟨i, LiveGraph.mem_entities_initializer.mp hx, rfl, hj⟩
  have hlast (t : State L σ) : (dismiss behaviour level inner .removeNode [.node n]).Obeys
      (clearing (level + 1) fun _ => False) t :=
    (dismiss_course hi t).imp fun hc => ⟨hc, fun _ _ _ _ _ h => h.elim⟩
  refine Action.Obeys.live ?_
  rw [hn]
  refine Action.Obeys.live ((clearing_seq (hedges s) fun _ t => Action.Obeys.live
    (clearing_seq (hinitials t) fun _ u => hlast u)).imp fun h => h.mono ?_)
  intro x _ hx
  cases x with
  | node m => cases hx
  | edge e => exact .inl ⟨⟨e, rfl⟩, hx⟩
  | initializer i => exact .inr (.inl ⟨⟨i, rfl⟩, hx⟩)

theorem removeNode_takes (hi : ∀ c s, (inner c).Obeys (course level) s) {id : String}
    {n : Tagged Node} {s : State L σ} (hn : s.live.find? id = some n) :
    (removeNode behaviour level inner id).Obeys (fun _ new e _ =>
      e = .returned → (Entity.node n).among (taken new) = true) s := by
  refine removeNode_obeys (course_endures (level + 1)).chains
    (fun _ t _ => removeEdge_course hi t) (fun hne _ he => absurd he hne) ?_ ?_
  · intro hnone
    rw [hn] at hnone
    cases hnone
  · intro m t new hm _
    obtain rfl := Option.some.inj (hn.symm.trans hm)
    refine (dismiss_takes hi t).imp fun {new' e g} h he => ?_
    rw [taken_append, Entity.among_append, h he _ (by simp), Bool.true_or]

end

/-- The removal of a node that is found, from outside or by a listener. When it returns, the node
and all connections that had an end at it are gone. Whatever is missing then was the node, was
found at an end of the removal's own, or was matched by an edit that a listener asked for. It
raises only if a listener does. -/
theorem removeNode_complete_and_exact [DecidableEq L] {behaviour : Behaviour L σ ε} {level : Nat}
    {id : String} {s t : State L σ} {n : Tagged Node} {outcome : Outcome ε Reply}
    (hs : s.live.Sound) (hn : s.live.find? id = some n)
    (h : edit behaviour (level + 1) (.removeNode id) s = (outcome, t)) :
    ∃ new, t.journal = new ++ .edit level (.removeNode id) s.live :: s.journal ∧
      (outcome.ending = .returned → t.live.holds (.node n) = false ∧
        ∀ x ∈ s.live.entities, x.joins id = true → t.live.holds x = false) ∧
      (∀ x, x ∈ s.live.entities ∨ x ∈ additions new → t.live.holds x = false →
        x.is (.node n) = true ∨
        (∃ p g, .removal level p g ∈ new ∧ p.node = id ∧ x ∈ g.entitiesAt p) ∨
        ∃ l c g, l < level ∧ .edit l c g ∈ new ∧ c.Matches g x) ∧
      (Untroubled new → outcome.ending ≠ .raised) := by
  let u : State L σ := { s with journal := .edit level (.removeNode id) s.live :: s.journal }
  have hu : u.live.find? id = some n := hn
  let remove : Action L σ ε Unit := removeNode behaviour level (edit behaviour level) id
  have hkeeping : remove.Obeys (keeping (level + 1)) u := removeNode_keeping (edit_keeping level) u
  have haccounting : remove.Obeys _ u := removeNode_accounting (edit_accounting level) u
  have hclearing : remove.Obeys _ u := removeNode_clearing (edit_course level) hu
  have htaking : remove.Obeys _ u := removeNode_takes (edit_course level) hu
  have hblaming : remove.Obeys blaming u := removeNode_blames (edit_blames level) u
  have hrun : (remove >>= fun _ => pure none) u = (outcome, t) := h
  obtain ⟨new, hj, ⟨hc, hkeeps⟩, haccounts, ⟨-, hclears⟩, htakes, hblames⟩ :=
    (hkeeping.and (haccounting.and (hclearing.and (htaking.and hblaming)))).map
      (f := fun _ => (none : Reply))
  rw [hrun] at hj hc hkeeps hclears htakes hblames
  -- Whatever was there at first and was taken is there no more.
  have hgone {x : Entity} (hx : x.tag < s.live.fresh) (ht : x.among (taken new) = true) :
      t.live.holds x = false := by
    have heq : t.live.holds x = (s.live.holds x && !x.among (taken new)) := hc.holds_eq hx
    rw [heq, ht, Bool.not_true, Bool.and_false]
  refine ⟨new, hj, fun he => ⟨?_, fun x hx hjoins => ?_⟩, fun x hx hmissing => ?_, fun h he => ?_⟩
  · have hm := LiveGraph.mem_entities_node.mpr (List.mem_of_find?_eq_some hn)
    exact hgone (hs.tag_lt _ hm) (htakes he)
  · have hnode := Entity.isNode_of_joins hjoins
    exact hgone (hs.tag_lt x hx) (hclears hs he x hx hnode hjoins)
  · have hhas : s.live.Has x ∨ x ∈ additions new := hx.imp_left LiveGraph.has_of_mem
    rcases hkeeps hs x hhas with hhas | ⟨y, hy, hyx⟩
    · rw [LiveGraph.holds_of_has hhas] at hmissing
      cases hmissing
    · rcases haccounts y hy with ⟨entry, hm, hask | hfind⟩ | ⟨m, hm, rfl⟩
      · cases entry with
        | edit l c g => exact .inr (.inr ⟨l, c, g, hask.1, hm, hask.2.same hyx⟩)
        | _ => exact hask.elim
      · cases entry with
        | removal l p g =>
          obtain ⟨rfl, hp, hyg⟩ := hfind
          have hy := Entity.isNode_of_joins
            (Entity.joins_of_touches (LiveGraph.touches_of_mem_entitiesAt hyg))
          rw [Entity.eq_of_same hyx hy] at hyg
          exact .inr (.inl ⟨p, g, hm, hp, hyg⟩)
        | _ => exact hfind.elim
      · obtain rfl := Option.some.inj (hn.symm.trans hm)
        left
        rw [Entity.is_comm]
        exact Entity.is_of_same hyx
  · exact hblames he h

/-- When it is first told of a removal, a listener connects the node again. -/
def clinging : Behaviour Unit Nat Empty := fun _ _ _ calls =>
  if calls = 0 then
    .edit 1 (.addEdge ⟨⟨"B", "out"⟩, ⟨"A", "in"⟩⟩) fun _ _ calls => .done calls ()
  else .done calls ()

def clingingStart : State Unit Nat where
  live :=
    { nodes := [⟨0, "A", .null, .null⟩, ⟨1, "B", .null, .null⟩]
      edges := [⟨2, ⟨"A", "out"⟩, ⟨"B", "in"⟩⟩]
      initializers := [⟨3, .null, ⟨"A", "in"⟩⟩]
      subscriptions := [(.removeEdge, ())]
      fresh := 4 }
  memory := 0

def clingingEnd : State Unit Nat :=
  (edit clinging 3 (.removeNode "A") clingingStart).2

/-- The edge and the packet of the node go, whatever the listener adds meanwhile. -/
theorem clinging_cascade :
    clingingEnd.live.holds (.node ⟨0, "A", .null, .null⟩) = false ∧
      ∀ x ∈ clingingStart.live.entities, x.joins "A" = true → clingingEnd.live.holds x = false := by
  have hs : clingingStart.live.Sound := ⟨by decide, by decide, by decide, by decide⟩
  have hn : clingingStart.live.find? "A" = some ⟨0, "A", .null, .null⟩ := by decide
  have hrun : edit clinging 3 (.removeNode "A") clingingStart =
      ((edit clinging 3 (.removeNode "A") clingingStart).1, clingingEnd) := by
    rw [clingingEnd]
  obtain ⟨new, -, hgone, -, -⟩ := removeNode_complete_and_exact hs hn hrun
  exact hgone (by decide +kernel)

end FlowGraph.Live
