import FlowGraph.Proofs.Live.Law

/-! Edits do not raise of themselves: whenever one raises, the journal tells of a listener that
failed. -/

namespace FlowGraph.Live

variable {L σ ε : Type}

def Entry.isFailed : Entry L → Bool
  | .failed _ _ => true
  | _ => false

/-- No listener has raised. -/
def Untroubled (entries : List (Entry L)) : Prop :=
  ∀ entry ∈ entries, entry.isFailed = false

theorem untroubled_append {new old : List (Entry L)} :
    Untroubled (new ++ old) ↔ Untroubled new ∧ Untroubled old := by
  simp only [Untroubled, List.mem_append, or_imp, forall_and]

def blaming : Law L := fun _ new e _ => e = .raised → ¬ Untroubled new

theorem blaming_chains : (blaming : Law L).Chains where
  still _ h := by cases h
  trans _ h' he hu := h' he (untroubled_append.mp hu).1

section

variable {behaviour : Behaviour L σ ε} {level : Nat} {inner : Command L → Action L σ ε Reply}

theorem call_blames (hi : ∀ c s, (inner c).Obeys blaming s) {event : Event} {x : Entity}
    {listener : L} (s : State L σ) :
    (call behaviour level inner event x listener).Obeys blaming s := by
  have hl : Law.Endures (fun _ _ _ _ => True : Law L) := ⟨fun _ _ => trivial, fun _ _ _ => trivial⟩
  refine Action.Obeys.live (Action.Obeys.record_bind ?_)
  let t : State L σ := { s with journal := .call level ⟨event, listener, x, s.live⟩ :: s.journal }
  obtain ⟨new, hj, -⟩ := Script.run_obeys hl (fun c s => (hi c s).imp fun _ => trivial)
    (behaviour listener x t.live t.memory) t
  rcases hr : (behaviour listener x t.live t.memory).run inner t with ⟨outcome, u⟩
  rw [hr] at hj
  cases outcome with
  | raised error =>
    refine ⟨.failed level listener :: new, ?_, fun _ hu => ?_⟩
    · simp only [t] at hr
      simp only [hr]
      rw [hj, List.cons_append]
    · simpa [Entry.isFailed] using hu (.failed level listener) (by simp)
  | returned _ =>
    simp only [t] at hr
    exact ⟨new, by simp only [hr]; exact hj, fun h => by simp [hr, Outcome.ending] at h⟩
  | unfinished =>
    simp only [t] at hr
    exact ⟨new, by simp only [hr]; exact hj, fun h => by simp [hr, Outcome.ending] at h⟩

theorem emit_blames (hi : ∀ c s, (inner c).Obeys blaming s) {event : Event} {x : Entity}
    (s : State L σ) : (emit behaviour level inner event x).Obeys blaming s :=
  Action.Obeys.live (Action.Obeys.forM blaming_chains _ (fun _ _ s => call_blames hi s) s)

theorem announce_blames (hi : ∀ c s, (inner c).Obeys blaming s) {event : Event}
    (xs : List Entity) (s : State L σ) :
    (xs.forM (emit behaviour level inner event)).Obeys blaming s :=
  Action.Obeys.forM blaming_chains xs (fun _ _ s => emit_blames hi s) s

theorem dismiss_blames (hi : ∀ c s, (inner c).Obeys blaming s) {event : Event}
    {xs : List Entity} (s : State L σ) :
    (dismiss behaviour level inner event xs).Obeys blaming s :=
  dismiss_obeys (announce_blames hi xs s) (fun _ h => h) fun _ h => by cases h

theorem removeEdge_blames (hi : ∀ c s, (inner c).Obeys blaming s) {p : Endpoint}
    (s : State L σ) : (removeEdge behaviour level inner p).Obeys blaming s :=
  Action.Obeys.live (Action.Obeys.record_bind ((dismiss_blames hi _).imp fun h he hu =>
    h he (untroubled_append.mp hu).1))

theorem removeNode_blames (hi : ∀ c s, (inner c).Obeys blaming s) {id : String}
    (s : State L σ) : (removeNode behaviour level inner id).Obeys blaming s :=
  removeNode_obeys blaming_chains (fun _ t _ => removeEdge_blames hi t) (fun _ h => h)
    (fun _ => blaming_chains.still _) fun _ t _ _ _ => (dismiss_blames hi t).imp fun h he hu =>
      h he (untroubled_append.mp hu).1

/-- An edit raises only if a listener did. -/
theorem edit_blames [DecidableEq L] (levels : Nat) (c : Command L) (s : State L σ) :
    (edit behaviour levels c).Obeys blaming s := by
  let law : Nat → Law L := fun _ => blaming
  change Action.Obeys _ (law levels) s
  refine edit_obeys (fun g h => by cases h) (fun level hi c s => ?_) levels c s
  refine (perform_obeys blaming ?_ ?_ ?_ ?_ ?_ ?_).imp fun h he hu =>
    h he (untroubled_append.mp hu).1
  · exact fun _ _ h => by cases h
  · exact fun _ _ _ _ h he hu => h he (untroubled_append.mp hu).1
  · exact fun _ _ => emit_blames hi _
  · exact fun _ _ => removeEdge_blames hi s
  · exact fun _ _ => removeNode_blames hi s
  · exact fun _ h => by cases h

end

end FlowGraph.Live
