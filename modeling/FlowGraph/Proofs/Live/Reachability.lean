import FlowGraph.Proofs.Live.Course
import Mathlib.Logic.Relation

/-! Runs from outside: one finished edit after another, whether or not a listener raised. Between
two edits the memory may be set to anything. -/

namespace FlowGraph.Live

variable {L σ ε : Type} [DecidableEq L] {behaviour : Behaviour L σ ε} {s t : State L σ}

def EditStep (behaviour : Behaviour L σ ε) (s t : State L σ) : Prop :=
  ∃ levels c memory outcome,
    edit behaviour levels c { s with memory } = (outcome, t) ∧ outcome.ending ≠ .unfinished

abbrev EditReachable (behaviour : Behaviour L σ ε) :=
  Relation.ReflTransGen (EditStep behaviour)

theorem EditStep.of_finished {levels : Nat} {c : Command L}
    (h : (edit behaviour levels c s).1.ending ≠ .unfinished) :
    EditStep behaviour s (edit behaviour levels c s).2 :=
  ⟨levels, c, s.memory, _, rfl, h⟩

theorem EditStep.obeys {law : Law L}
    (hl : ∀ levels c s, (edit behaviour levels c).Obeys law s) (h : EditStep behaviour s t) :
    ∃ new e, t.journal = new ++ s.journal ∧ e ≠ .unfinished ∧ law s.live new e t.live := by
  obtain ⟨levels, c, memory, outcome, he, hf⟩ := h
  obtain ⟨new, hj, hw⟩ := hl levels c { s with memory }
  rw [he] at hj hw
  exact ⟨new, outcome.ending, hj, hf, hw⟩

/-- A law of every edit that listeners cannot break holds of whole runs. -/
theorem EditReachable.obeys {law : Law L} (hl : law.Endures)
    (he : ∀ levels c s, (edit behaviour levels c).Obeys law s) (h : EditReachable behaviour s t) :
    ∃ new e, t.journal = new ++ s.journal ∧ e ≠ .unfinished ∧ law s.live new e t.live := by
  induction h with
  | refl => exact ⟨[], .returned, rfl, by decide, hl.still _ _⟩
  | tail _ hstep ih =>
    obtain ⟨new, e, hj, hf, hw⟩ := ih
    obtain ⟨new', e', hj', hf', hw'⟩ := hstep.obeys he
    exact ⟨new' ++ new, e', by rw [hj', hj, List.append_assoc], hf', hl.trans hf hw hw'⟩

/-- Every edit of a run, also one that a listener asks for, begins with a sound graph. -/
theorem EditReachable.noted_sound (h : EditReachable behaviour s t) (hj : s.journal = [])
    (hs : s.live.Sound) : t.live.Sound ∧
      ∀ entry ∈ t.journal, ∀ g, entry.graph? = some g → g.Sound := by
  have hl : Law.Endures (fun g new _ g' => ∃ n, Course n g new g' : Law L) := by
    refine ⟨fun _ _ => ⟨0, .still⟩, ?_⟩
    rintro g g' g'' new new' e e' - ⟨m, hm⟩ ⟨n, hn⟩
    exact ⟨m + n, (hm.mono (Nat.le_add_right m n)).trans (hn.mono (Nat.le_add_left n m))⟩
  obtain ⟨new, e, hn, -, n, hc⟩ :=
    h.obeys hl fun levels c s => (edit_course levels c s).imp fun h => ⟨levels, h⟩
  rw [hj, List.append_nil] at hn
  subst hn
  exact ⟨hc.sound hs, fun entry hm g hg => hc.noted_sound hs hm hg⟩

end FlowGraph.Live

namespace FlowGraph.LiveGraph

variable {L : Type}

theorem map_tag_tagFrom {α : Type} (fresh : Nat) (values : List α) :
    (tagFrom fresh values).map (·.tag) = List.range' fresh values.length := by
  apply List.ext_getElem
  · simp [tagFrom]
  · intro i _ _
    simp [tagFrom]

theorem sound_ofGraph (g : Graph) (fresh : Nat) : (ofGraph g fresh : LiveGraph L).Sound where
  tag_lt x hx := by
    have hlt {α : Type} {k : Nat} {values : List α} {a : Live.Tagged α}
        (h : a ∈ tagFrom k values) : a.tag < k + values.length := by
      have ht := List.mem_map_of_mem (f := fun a : Live.Tagged α => a.tag) h
      rw [map_tag_tagFrom, List.mem_range'_1] at ht
      exact ht.2
    cases x with
    | node n =>
      have := hlt (mem_entities_node.mp hx)
      simp only [ofGraph, Live.Entity.tag] at this ⊢
      omega
    | edge e =>
      have := hlt (mem_entities_edge.mp hx)
      simp only [ofGraph, Live.Entity.tag] at this ⊢
      omega
    | initializer i => exact hlt (mem_entities_initializer.mp hx)
  nodes := by simp only [ofGraph, map_tag_tagFrom]; exact List.nodup_range'
  edges := by simp only [ofGraph, map_tag_tagFrom]; exact List.nodup_range'
  initializers := by simp only [ofGraph, map_tag_tagFrom]; exact List.nodup_range'

end FlowGraph.LiveGraph
