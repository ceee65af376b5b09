import FlowGraph.Proofs.Live.Recorder
import FlowGraph.Proofs.Live.Reachability

/-! Who is called by an emission. It is settled when the emission begins: those are called who are
registered for the event then, one after another, until one raises. What they do to the
subscriptions meanwhile is for the emissions that begin later, be they part of this one. -/

namespace FlowGraph.Live

variable {L σ ε : Type}

/-- The calls of an emission, each with the entries that the listener brought about. A listener that
raises is the last to be called. -/
inductive Emission (level : Nat) (event : Event) (x : Entity) :
    List L → List (Entry L) → Ending → Prop
  | told : Emission level event x [] [] .returned
  | next {l : L} {ls : List L} {g : LiveGraph L} {inner rest : List (Entry L)} {e : Ending}
    (hinner : ∀ entry ∈ inner, entry.Within level) (hrest : Emission level event x ls rest e) :
    Emission level event x (l :: ls) (rest ++ (inner ++ [.call level ⟨event, l, x, g⟩])) e
  | raised {l : L} {ls : List L} {g : LiveGraph L} {inner : List (Entry L)}
    (hinner : ∀ entry ∈ inner, entry.Within level) :
    Emission level event x (l :: ls)
      (.failed level l :: (inner ++ [.call level ⟨event, l, x, g⟩])) .raised

def Entry.called (level : Nat) : Entry L → Option L
  | .call k c => if k = level then some c.listener else none
  | _ => none

def Entry.raiser (level : Nat) : Entry L → Option L
  | .failed k l => if k = level then some l else none
  | _ => none

/-- The listeners that a kind of entries names, the oldest first. -/
def named (kind : Entry L → Option L) (entries : List (Entry L)) : List L :=
  entries.reverse.filterMap kind

theorem named_append (kind : Entry L → Option L) (new old : List (Entry L)) :
    named kind (new ++ old) = named kind old ++ named kind new := by
  simp [named]

theorem Entry.Within.names {level : Nat} {entry : Entry L} (h : entry.Within level) :
    entry.called level = none ∧ entry.raiser level = none := by
  cases entry with
  | call k c => exact ⟨if_neg (Nat.ne_of_lt h), rfl⟩
  | failed k l => exact ⟨rfl, if_neg (Nat.ne_of_lt h)⟩
  | _ => exact ⟨rfl, rfl⟩

theorem named_of_within {level : Nat} {inner : List (Entry L)}
    (h : ∀ entry ∈ inner, entry.Within level) :
    named (Entry.called level) inner = [] ∧ named (Entry.raiser level) inner = [] := by
  constructor <;> refine List.filterMap_eq_nil_iff.mpr fun entry hm => ?_
  · exact (h entry (List.mem_reverse.mp hm)).names.1
  · exact (h entry (List.mem_reverse.mp hm)).names.2

namespace Emission

variable {level : Nat} {event : Event} {x : Entity} {ls : List L} {new : List (Entry L)}
  {e : Ending}

theorem of_mem (h : Emission level event x ls new e) {c : Call L} (hm : .call level c ∈ new) :
    c.event = event ∧ c.entity = x := by
  have hmark {g : LiveGraph L} {l : L} {inner : List (Entry L)}
      (hinner : ∀ entry ∈ inner, entry.Within level)
      (hm : .call level c ∈ inner ++ [.call level ⟨event, l, x, g⟩]) :
      c.event = event ∧ c.entity = x := by
    rcases List.mem_append.mp hm with hm | hm
    · exact absurd (hinner _ hm) (Nat.lt_irrefl level)
    · cases List.mem_singleton.mp hm
      exact ⟨rfl, rfl⟩
  induction h with
  | told => cases hm
  | next hinner hrest ih =>
    rcases List.mem_append.mp hm with hm | hm
    · exact ih hm
    · exact hmark hinner hm
  | raised hinner =>
    rcases List.mem_cons.mp hm with hm | hm
    · cases hm
    · exact hmark hinner hm

/-- All have been called and none has raised; or one has, and no other is called after it. -/
theorem named_eq (h : Emission level event x ls new e) :
    e = .returned ∧ named (Entry.called level) new = ls ∧
      named (Entry.raiser level) new = [] ∨
    e = .raised ∧ ∃ told l rest, ls = told ++ l :: rest ∧
      named (Entry.called level) new = told ++ [l] ∧ named (Entry.raiser level) new = [l] := by
  have hcall (l : L) (g : LiveGraph L) :
      named (Entry.called level) [.call level ⟨event, l, x, g⟩] = [l] ∧
        named (Entry.raiser level) [.call level ⟨event, l, x, g⟩] = [] := by
    simp [named, Entry.called, Entry.raiser]
  induction h with
  | told => exact .inl ⟨rfl, rfl, rfl⟩
  | @next l ls g inner rest e hinner hrest ih =>
    obtain ⟨hcalled, hraised⟩ := named_of_within hinner
    simp only [named_append, hcalled, hraised, hcall, List.append_nil]
    rcases ih with ⟨he, hall, hnone⟩ | ⟨he, told, m, last, rfl, hsome, hone⟩
    · exact .inl ⟨he, by rw [hall, List.singleton_append], by rw [hnone, List.nil_append]⟩
    · refine .inr ⟨he, l :: told, m, last, rfl, ?_, by rw [hone, List.nil_append]⟩
      rw [hsome, List.singleton_append, List.cons_append]
  | @raised l ls g inner hinner =>
    obtain ⟨hcalled, hraised⟩ := named_of_within hinner
    have hfailed : named (Entry.called level) [.failed level l] = [] ∧
        named (Entry.raiser level) [.failed level l] = [l] := by
      simp [named, Entry.called, Entry.raiser]
    refine .inr ⟨rfl, [], l, ls, rfl, ?_⟩
    rw [← List.singleton_append]
    simp only [named_append, hcalled, hraised, hcall, hfailed, List.append_nil, List.nil_append,
      true_and]

end Emission

/-! What is called by `emit`. -/

def within (n : Nat) : Law L := fun _ new _ _ => ∀ entry ∈ new, entry.Within n

theorem within_endures (n : Nat) : (within n : Law L).Endures where
  still _ _ := by simp [within]
  trans _ h h' := by
    intro entry hm
    exact (List.mem_append.mp hm).elim (h' entry) (h entry)

section

variable {behaviour : Behaviour L σ ε} {level : Nat} {inner : Command L → Action L σ ε Reply}
  {event : Event} {x : Entity}

theorem call_emission (hi : ∀ c s, (inner c).Obeys (within level) s) (l : L) (s : State L σ) :
    (call behaviour level inner event x l).Obeys (fun g new e _ => ∃ made : List (Entry L),
      (∀ entry ∈ made, entry.Within level) ∧
        (e ≠ .raised ∧ new = made ++ [.call level ⟨event, l, x, g⟩] ∨
          e = .raised ∧
            new = .failed level l :: (made ++ [.call level ⟨event, l, x, g⟩]))) s := by
  refine Action.Obeys.live (Action.Obeys.record_bind ?_)
  obtain ⟨made, hj, hmade⟩ := Script.run_obeys (within_endures level) hi
    (behaviour l x s.live s.memory)
    { s with journal := .call level ⟨event, l, x, s.live⟩ :: s.journal }
  rcases hr : (behaviour l x s.live s.memory).run inner
    { s with journal := .call level ⟨event, l, x, s.live⟩ :: s.journal } with ⟨outcome, u⟩
  rw [hr] at hj hmade
  cases outcome with
  | returned _ =>
    refine ⟨made, ?_, ?_⟩ <;> simp only [hr]
    · exact hj
    · exact ⟨made, hmade, .inl ⟨by simp [Outcome.ending], rfl⟩⟩
  | unfinished =>
    refine ⟨made, ?_, ?_⟩ <;> simp only [hr]
    · exact hj
    · exact ⟨made, hmade, .inl ⟨by simp [Outcome.ending], rfl⟩⟩
  | raised error =>
    refine ⟨.failed level l :: made, ?_, ?_⟩ <;> simp only [hr]
    · rw [hj, List.cons_append]
    · exact ⟨made, hmade, .inr ⟨rfl, rfl⟩⟩

/-- Induction on the listeners that are still to be called. -/
theorem calls_emission (hi : ∀ c s, (inner c).Obeys (within level) s) (ls : List L)
    (s : State L σ) : (ls.forM (call behaviour level inner event x)).Obeys
      (fun _ new e _ => e ≠ .unfinished → Emission level event x ls new e) s := by
  induction ls generalizing s with
  | nil => exact ⟨[], rfl, fun _ => .told⟩
  | cons l ls ih =>
    refine (call_emission hi l s).seq (fun _ t new h => (ih t).imp fun {new' e g} hrest hf => ?_)
      fun {new e g} he h hf => ?_
    · obtain ⟨made, hmade, ⟨-, rfl⟩ | ⟨⟨⟩, -⟩⟩ := h
      exact .next hmade (hrest hf)
    · obtain ⟨made, hmade, ⟨hraised, -⟩ | ⟨rfl, rfl⟩⟩ := h
      · cases e with
        | returned => exact absurd rfl he
        | raised => exact absurd rfl hraised
        | unfinished => exact absurd rfl hf
      · exact .raised hmade

theorem emit_emission (hi : ∀ c s, (inner c).Obeys (within level) s) (s : State L σ) :
    (emit behaviour level inner event x).Obeys
      (fun g new e _ => e ≠ .unfinished → Emission level event x (g.listeners event) new e) s :=
  Action.Obeys.live (calls_emission hi (s.live.listeners event) s)

end

end FlowGraph.Live
