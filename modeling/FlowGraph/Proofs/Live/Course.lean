import FlowGraph.Proofs.Live.Law

/-! The course of a run: elementary changes of the graph and entries of the journal, one after
another. Whatever left the graph is among what the journal says has gone. -/

namespace FlowGraph.Live

variable {L σ ε : Type}

def Entry.Within (n : Nat) : Entry L → Prop
  | .notice _ => True
  | .edit level _ _ => level < n
  | .removal level _ _ => level < n
  | .removed level _ => level < n
  | .call level _ => level < n
  | .failed level _ => level < n

def Entry.taken : Entry L → List Entity
  | .removed _ xs => xs
  | _ => []

/-- The graph as it was when an entry was made. -/
def Entry.graph? : Entry L → Option (LiveGraph L)
  | .edit _ _ g => some g
  | .removal _ _ g => some g
  | .call _ c => some c.live
  | _ => none

/-- Entries that can be made of a graph while it stays as it is. -/
def Entry.NotedOf (g : LiveGraph L) : Entry L → Prop
  | .notice _ => True
  | .edit _ _ h => h = g
  | .removal _ _ h => h = g
  | .removed _ _ => False
  | .call _ c => c.live = g
  | .failed _ _ => True

/-- Everything that the entries say has gone. -/
def taken (entries : List (Entry L)) : List Entity :=
  entries.flatMap Entry.taken

theorem taken_append (new old : List (Entry L)) : taken (new ++ old) = taken new ++ taken old := by
  simp [taken]

theorem Entry.Within.mono {m n : Nat} {entry : Entry L} (h : entry.Within m) (hmn : m ≤ n) :
    entry.Within n := by
  cases entry <;> simp only [Entry.Within] at h ⊢ <;> omega

theorem Entry.NotedOf.taken {g : LiveGraph L} {entry : Entry L} (h : entry.NotedOf g) :
    entry.taken = [] := by
  cases entry with
  | removed level xs => exact h.elim
  | _ => rfl

theorem Entry.NotedOf.eq {g k : LiveGraph L} {entry : Entry L} (h : entry.NotedOf g)
    (hk : entry.graph? = some k) : k = g := by
  cases entry with
  | edit level c h' => exact (Option.some.inj hk).symm.trans h
  | removal level p h' => exact (Option.some.inj hk).symm.trans h
  | call level c => exact (Option.some.inj hk).symm.trans h
  | _ => cases hk

inductive Course (n : Nat) (g : LiveGraph L) : List (Entry L) → LiveGraph L → Prop
  | still : Course n g [] g
  | note {new : List (Entry L)} {g' : LiveGraph L} {entry : Entry L} (before : Course n g new g')
    (hn : entry.Within n) (hg : entry.NotedOf g') : Course n g (entry :: new) g'
  | enter {new : List (Entry L)} {g' g'' : LiveGraph L} {event : Event} {x : Entity}
    (before : Course n g new g') (h : g'.Enters event x g'') : Course n g new g''
  | adjust {new : List (Entry L)} {g' g'' : LiveGraph L} {c : Command L}
    (before : Course n g new g') (h : g'.Adjusts c g'') : Course n g new g''
  | remove {new : List (Entry L)} {g' : LiveGraph L} {level : Nat} {xs : List Entity}
    (before : Course n g new g') (hn : level < n) :
    Course n g (.removed level xs :: new) (g'.drop xs)

namespace Course

variable {n : Nat} {g g' g'' : LiveGraph L} {new new' : List (Entry L)}

theorem trans (h : Course n g new g') (h' : Course n g' new' g'') :
    Course n g (new' ++ new) g'' := by
  induction h' with
  | still => exact h
  | note _ hn hg ih => exact ih.note hn hg
  | enter _ he ih => exact ih.enter he
  | adjust _ ha ih => exact ih.adjust ha
  | remove _ hn ih => exact ih.remove hn

theorem mono {m : Nat} (h : Course m g new g') (hmn : m ≤ n) : Course n g new g' := by
  induction h with
  | still => exact .still
  | note _ hn hg ih => exact ih.note (hn.mono hmn) hg
  | enter _ he ih => exact ih.enter he
  | adjust _ ha ih => exact ih.adjust ha
  | remove _ hn ih => exact ih.remove (by omega)

theorem within (h : Course n g new g') : ∀ entry ∈ new, entry.Within n := by
  induction h with
  | still => simp
  | note _ hn _ ih => simpa using ⟨hn, ih⟩
  | enter _ _ ih => exact ih
  | adjust _ _ ih => exact ih
  | remove _ hn ih => simpa using ⟨hn, ih⟩

theorem fresh_le (h : Course n g new g') : g.fresh ≤ g'.fresh := by
  induction h with
  | still => exact Nat.le_refl _
  | note _ _ _ ih => exact ih
  | enter _ he ih => rw [he.fresh]; omega
  | adjust _ ha ih => rw [ha.fresh]; exact ih
  | remove _ _ ih => exact ih

/-- Only what was taken has gone, and it does not come back. -/
theorem holds_eq (h : Course n g new g') {x : Entity} (hx : x.tag < g.fresh) :
    g'.holds x = (g.holds x && !x.among (taken new)) := by
  induction h with
  | still => simp [taken, Entity.among]
  | note _ _ hg ih => simpa [taken, hg.taken] using ih
  | @enter new g' g'' event y before he ih =>
    rw [he.holds_eq (Nat.lt_of_lt_of_le hx before.fresh_le), ih]
  | adjust _ ha ih => rw [ha.holds_eq, ih]
  | @remove new g' level xs _ _ ih =>
    have : taken (.removed level xs :: new) = xs ++ taken new := rfl
    rw [LiveGraph.holds_drop, ih, this, Entity.among_append, Bool.not_or, Bool.and_assoc,
      Bool.and_comm (!x.among (taken new))]

/-- Connections do not change. -/
theorem mem_iff (h : Course n g new g') {x : Entity} (hx : x.tag < g.fresh)
    (hc : x.isNode = false) :
    x ∈ g'.entities ↔ x ∈ g.entities ∧ x.among (taken new) = false := by
  induction h with
  | still => simp [taken, Entity.among]
  | note _ _ hg ih => simpa [taken, hg.taken] using ih
  | @enter new g' g'' event y before he ih =>
    have hle := before.fresh_le
    have hne : x ≠ y := by
      rintro rfl
      rw [he.tag] at hx
      omega
    rw [he.mem_iff, ih]
    simp [hne]
  | adjust _ ha ih => rw [ha.mem_iff hc, ih]
  | @remove new g' level xs _ _ ih =>
    have : taken (.removed level xs :: new) = xs ++ taken new := rfl
    rw [LiveGraph.mem_entities_drop, ih, this, Entity.among_append, Bool.or_eq_false_iff, and_assoc,
      and_comm (a := x.among xs = false)]

theorem sound (h : Course n g new g') (hs : g.Sound) : g'.Sound := by
  induction h with
  | still => exact hs
  | note _ _ _ ih => exact ih
  | enter _ he ih => exact he.sound ih
  | adjust _ ha ih => exact ha.sound ih
  | remove _ _ ih => exact ih.drop _

theorem noted_sound (h : Course n g new g') (hs : g.Sound) {entry : Entry L}
    (hm : entry ∈ new) {k : LiveGraph L} (hk : entry.graph? = some k) : k.Sound := by
  induction h with
  | still => cases hm
  | note before _ hg ih =>
    rcases List.mem_cons.mp hm with rfl | hm
    · rw [hg.eq hk]
      exact before.sound hs
    · exact ih hm
  | enter _ _ ih => exact ih hm
  | adjust _ _ ih => exact ih hm
  | remove _ _ ih =>
    rcases List.mem_cons.mp hm with rfl | hm
    · cases hk
    · exact ih hm

end Course

def course (n : Nat) : Law L := fun g new _ g' => Course n g new g'

theorem course_endures (n : Nat) : (course n : Law L).Endures where
  still _ _ := .still
  trans _ h h' := h.trans h'

section

variable {behaviour : Behaviour L σ ε} {level : Nat} {inner : Command L → Action L σ ε Reply}

theorem emit_course (hi : ∀ c s, (inner c).Obeys (course level) s) {event : Event} {x : Entity}
    (s : State L σ) : (emit behaviour level inner event x).Obeys (course (level + 1)) s :=
  emit_obeys (course_endures _) (fun c s => (hi c s).imp fun h => h.mono (by omega))
    (fun _ _ => .note .still (Nat.lt_succ_self level) rfl)
    (fun _ _ => .note .still (Nat.lt_succ_self level) trivial) s

theorem announce_course (hi : ∀ c s, (inner c).Obeys (course level) s) {event : Event}
    (xs : List Entity) (s : State L σ) :
    (xs.forM (emit behaviour level inner event)).Obeys (course (level + 1)) s :=
  Action.Obeys.forM (course_endures _).chains xs (fun _ _ s => emit_course hi s) s

theorem dismiss_course (hi : ∀ c s, (inner c).Obeys (course level) s) {event : Event}
    {xs : List Entity} (s : State L σ) :
    (dismiss behaviour level inner event xs).Obeys (course (level + 1)) s :=
  dismiss_obeys (announce_course hi xs s) (fun _ h => h) fun h => h.remove (Nat.lt_succ_self level)

theorem removeEdge_course (hi : ∀ c s, (inner c).Obeys (course level) s) {p : Endpoint}
    (s : State L σ) : (removeEdge behaviour level inner p).Obeys (course (level + 1)) s :=
  Action.Obeys.live (Action.Obeys.record_bind ((dismiss_course hi _).imp fun h =>
    Course.trans (.note .still (Nat.lt_succ_self level) rfl) h))

theorem removeNode_course (hi : ∀ c s, (inner c).Obeys (course level) s) {id : String}
    (s : State L σ) : (removeNode behaviour level inner id).Obeys (course (level + 1)) s :=
  removeNode_obeys (course_endures _).chains (fun _ t _ => removeEdge_course hi t)
    (fun _ h => h) (fun _ => .still) fun _ t _ _ h => (dismiss_course hi t).imp h.trans

variable [DecidableEq L]

theorem perform_course (hi : ∀ c s, (inner c).Obeys (course level) s) (c : Command L)
    (s : State L σ) : (perform behaviour level inner c).Obeys (course (level + 1)) s :=
  perform_obeys _ (fun _ _ => .note .still trivial trivial)
    (fun _ {_ _ _} h => Course.trans (.note .still trivial trivial) h)
    (fun he _ => (emit_course hi _).imp fun h => by
      simpa only [course, List.append_nil] using Course.trans (.enter .still he) h)
    (fun _ _ => removeEdge_course hi s) (fun _ _ => removeNode_course hi s)
    fun h => .adjust .still h

theorem edit_course (levels : Nat) (c : Command L) (s : State L σ) :
    (edit behaviour levels c).Obeys (course levels) s :=
  edit_obeys (fun _ => .still) (fun level hi c s => (perform_course hi c s).imp fun h =>
    Course.trans (.note .still (Nat.lt_succ_self level) rfl) h) levels c s

end

end FlowGraph.Live
