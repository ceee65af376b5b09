import FlowGraph.Proofs.Live.Emission

/-! Registrations over a run. Who is registered follows from the edits so far, and every call
belongs to an emission to those who were registered when it began. -/

namespace FlowGraph.Live

variable {L σ ε : Type} [eq : DecidableEq L]

/-- The listeners of an event after a command. Commands that are not for listeners leave them. -/
def Command.registers (event : Event) : Command L → List L → List L
  | .subscribe e l, ls => if e = event then ls ++ [l] else ls
  | .unsubscribe e l, ls => if e = event then ls.filter (· ≠ l) else ls
  | _, ls => ls

def Entry.registers (event : Event) : Entry L → List L → List L
  | .edit _ c _, ls => c.registers event ls
  | _, ls => ls

/-- The listeners of an event after the entries of a journal, from those before. -/
def registered (event : Event) (ls : List L) (entries : List (Entry L)) : List L :=
  entries.foldr (Entry.registers event) ls

theorem registered_append (event : Event) (ls : List L) (new old : List (Entry L)) :
    registered event ls (new ++ old) = registered event (registered event ls old) new :=
  List.foldr_append

theorem Command.registers_of_addition {g : LiveGraph L} {c : Command L} {x : Entity}
    (h : c.addition g = some x) (event : Event) (ls : List L) : c.registers event ls = ls := by
  cases c <;> first | rfl | cases h

theorem listeners_of_adjusts {g g' : LiveGraph L} {c : Command L} (h : g.Adjusts c g')
    (event : Event) : g'.listeners event = c.registers event (g.listeners event) := by
  cases h with
  | subscribe e l =>
    rw [LiveGraph.listeners_subscribe, Command.registers]
    split <;> simp
  | @unsubscribe other e l =>
    obtain rfl : other = eq := Subsingleton.elim _ _
    rw [LiveGraph.listeners_unsubscribe, Command.registers]
    by_cases he : e = event
    · subst he
      rw [if_pos rfl]
      exact List.filter_congr fun other _ => by simp
    · rw [if_neg he, List.filter_eq_self]
      intro other _
      simp [Ne.symm he]
  | rename name => rfl
  | setDisplay id display =>
    refine LiveGraph.listeners_eq_of_subscriptions ?_ event
    unfold LiveGraph.setDisplay
    split <;> rfl

/-- A call is one of an emission to all who were registered when that began, the first of them
before it and the last after it. -/
def Call.Delivers (base : Event → List L) (later : List (Entry L)) (level : Nat) (c : Call L)
    (before : List (Entry L)) : Prop :=
  ∃ after first second began e, later = after ++ first ∧ before = second ++ began ∧
    Emission level c.event c.entity (registered c.event (base c.event) began)
      (first ++ .call level c :: second) e

/-- All calls of levels below `n` are of such emissions. -/
def Orderly (n : Nat) (base : Event → List L) (entries : List (Entry L)) : Prop :=
  ∀ later level c before, entries = later ++ .call level c :: before → level < n →
    c.Delivers base later level before

theorem orderly_nil (n : Nat) (base : Event → List L) : Orderly n base [] := by
  intro later level c before h
  simp at h

theorem orderly_singleton {n : Nat} {base : Event → List L} {entry : Entry L}
    (h : ∀ level c, entry = .call level c → ¬ level < n) : Orderly n base [entry] := by
  intro later level c before hsplit hlevel
  rcases List.append_eq_singleton_iff.mp hsplit.symm with ⟨-, hentry⟩ | ⟨-, hnone⟩
  · exact absurd hlevel (h level c (List.cons.inj hentry).1.symm)
  · cases hnone

theorem Orderly.append {n : Nat} {base : Event → List L} {new old : List (Entry L)}
    (hold : Orderly n base old)
    (hnew : Orderly n (fun event => registered event (base event) old) new) :
    Orderly n base (new ++ old) := by
  intro later level c before hsplit hlevel
  rcases List.append_eq_append_iff.mp hsplit with ⟨rest, rfl, hrest⟩ | ⟨rest, hlater, hrest⟩
  · -- The call is among the old entries.
    obtain ⟨after, first, second, began, e, rfl, rfl, h⟩ := hold rest level c before hrest hlevel
    exact ⟨new ++ after, first, second, began, e, (List.append_assoc _ _ _).symm, rfl, h⟩
  · cases rest with
    | nil =>
      obtain ⟨after, first, second, began, e, hfirst, rfl, h⟩ :=
        hold [] level c before hrest.symm hlevel
      obtain ⟨rfl, rfl⟩ := List.append_eq_nil_iff.mp hfirst.symm
      exact ⟨later, [], second, began, e, (List.append_nil later).symm, rfl, h⟩
    | cons entry rest =>
      obtain ⟨rfl, rfl⟩ := List.cons.inj hrest
      obtain ⟨after, first, second, began, e, rfl, rfl, h⟩ := hnew later level c rest hlater hlevel
      refine ⟨after, first, second, began ++ old, e, rfl, List.append_assoc _ _ _, ?_⟩
      rwa [registered_append]

/-- From these listeners on, the listeners of the graph are those registered, and all calls of
levels below `m` are of emissions to those. -/
def OrderlyFrom (n m : Nat) (base : Event → List L) (new : List (Entry L)) (e : Ending)
    (g : LiveGraph L) : Prop :=
  (∀ entry ∈ new, entry.Within n) ∧ (e ≠ .unfinished →
    (∀ event, g.listeners event = registered event (base event) new) ∧ Orderly m base new)

def ordering (n m : Nat) : Law L := fun g => OrderlyFrom n m g.listeners

theorem OrderlyFrom.append {n m : Nat} {base : Event → List L} {new old : List (Entry L)}
    {e : Ending} {g : LiveGraph L} (hwithin : ∀ entry ∈ old, entry.Within n)
    (hold : Orderly m base old)
    (h : OrderlyFrom n m (fun event => registered event (base event) old) new e g) :
    OrderlyFrom n m base (new ++ old) e g := by
  refine ⟨fun entry hm => ?_, fun hf => ⟨fun event => ?_, ?_⟩⟩
  · exact (List.mem_append.mp hm).elim (h.1 entry) (hwithin entry)
  · rw [(h.2 hf).1, registered_append]
  · exact hold.append (h.2 hf).2

/-- An entry that is no call to be accounted for. -/
theorem orderlyFrom_singleton {n m : Nat} {base : Event → List L} {entry : Entry L} {e : Ending}
    {g : LiveGraph L} (hwithin : entry.Within n)
    (hcall : ∀ level c, entry = .call level c → ¬ level < m)
    (hg : ∀ event, g.listeners event = entry.registers event (base event)) :
    OrderlyFrom n m base [entry] e g :=
  ⟨by simpa using hwithin, fun _ => ⟨hg, orderly_singleton hcall⟩⟩

theorem ordering_endures (n m : Nat) : (ordering n m : Law L).Endures where
  still _ _ := ⟨by simp, fun _ => ⟨fun _ => rfl, orderly_nil m _⟩⟩
  trans := by
    rintro g g' g'' new new' e e' he ⟨hw, h⟩ h'
    obtain ⟨hlisteners, horderly⟩ := h he
    have hbase : g'.listeners = fun event => registered event (g.listeners event) new :=
      funext hlisteners
    exact .append hw horderly (hbase ▸ h')

theorem ordering_mono {m n : Nat} (hmn : m ≤ n) {g g' : LiveGraph L} {new : List (Entry L)}
    {e : Ending} (h : ordering m m g new e g') : ordering n n g new e g' := by
  refine ⟨fun entry hm => (h.1 entry hm).mono hmn, fun hf => ⟨(h.2 hf).1, ?_⟩⟩
  intro later level c before hsplit _
  have hlevel : (Entry.call level c).Within m := h.1 _ (by simp [hsplit])
  exact (h.2 hf).2 later level c before hsplit hlevel

section

variable {behaviour : Behaviour L σ ε} {level : Nat} {inner : Command L → Action L σ ε Reply}

/-- The calls of an emission are its own, those of the edits in between are accounted for
already. -/
theorem emit_ordering (hi : ∀ c s, (inner c).Obeys (ordering level level) s) {event : Event}
    {x : Entity} (s : State L σ) :
    (emit behaviour level inner event x).Obeys (ordering (level + 1) (level + 1)) s := by
  have hbelow : (emit behaviour level inner event x).Obeys (ordering (level + 1) level) s := by
    refine emit_obeys (ordering_endures _ _) (fun c s => (hi c s).imp ?_) ?_ ?_ s
    · exact fun h => ⟨fun entry hm => (h.1 entry hm).mono (Nat.le_succ level), h.2⟩
    · refine fun g l => orderlyFrom_singleton (Nat.lt_succ_self level) ?_ fun _ => rfl
      rintro k c ⟨⟩
      exact Nat.lt_irrefl level
    · exact fun g l => orderlyFrom_singleton (Nat.lt_succ_self level) nofun fun _ => rfl
  have hwithin (c : Command L) (s : State L σ) : (inner c).Obeys (within level) s :=
    (hi c s).imp And.left
  have hown : (emit behaviour level inner event x).Obeys (fun g new e _ => e ≠ .unfinished →
      Emission level event x (g.listeners event) new e) s := emit_emission hwithin s
  refine (hbelow.and hown).imp fun {new e g} h => ⟨h.1.1, fun hf => ⟨(h.1.2 hf).1, ?_⟩⟩
  intro later k c before hsplit hk
  rcases Nat.lt_succ_iff_lt_or_eq.mp hk with hk | rfl
  · exact (h.1.2 hf).2 later k c before hsplit hk
  · have hemission := h.2 hf
    obtain ⟨rfl, rfl⟩ := hemission.of_mem (c := c) (by simp [hsplit])
    rw [hsplit] at hemission
    exact ⟨[], later, before, [], e, rfl, (List.append_nil before).symm, hemission⟩

theorem dismiss_ordering (hi : ∀ c s, (inner c).Obeys (ordering level level) s) {event : Event}
    {xs : List Entity} (s : State L σ) :
    (dismiss behaviour level inner event xs).Obeys (ordering (level + 1) (level + 1)) s := by
  have hl := ordering_endures (L := L) (level + 1) (level + 1)
  refine dismiss_obeys (Action.Obeys.forM hl.chains xs (fun x _ s => emit_ordering hi s) s)
    (fun _ h => h) fun {new g} h => ?_
  have hgone : ordering (level + 1) (level + 1) g [.removed level xs] .returned (g.drop xs) :=
    orderlyFrom_singleton (Nat.lt_succ_self level) nofun fun _ => rfl
  exact hl.chains.trans h hgone

theorem removeEdge_ordering (hi : ∀ c s, (inner c).Obeys (ordering level level) s) {p : Endpoint}
    (s : State L σ) :
    (removeEdge behaviour level inner p).Obeys (ordering (level + 1) (level + 1)) s := by
  have hl := ordering_endures (L := L) (level + 1) (level + 1)
  refine Action.Obeys.live (Action.Obeys.record_bind ((dismiss_ordering hi _).imp fun h => ?_))
  exact hl.chains.trans (orderlyFrom_singleton (Nat.lt_succ_self level) nofun fun _ => rfl) h

theorem removeNode_ordering (hi : ∀ c s, (inner c).Obeys (ordering level level) s) {id : String}
    (s : State L σ) :
    (removeNode behaviour level inner id).Obeys (ordering (level + 1) (level + 1)) s := by
  have hl := ordering_endures (L := L) (level + 1) (level + 1)
  exact removeNode_obeys hl.chains (fun _ t _ => removeEdge_ordering hi t) (fun _ h => h)
    (fun _ => hl.still _ _) fun _ t _ _ h => (dismiss_ordering hi t).imp (hl.chains.trans h)

theorem perform_ordering (hi : ∀ c s, (inner c).Obeys (ordering level level) s) (c : Command L)
    (s : State L σ) : (perform behaviour level inner c).Obeys
      (fun g => OrderlyFrom (level + 1) (level + 1)
        fun event => c.registers event (g.listeners event)) s := by
  have hnotice (n : Notice) (base : Event → List L) {new : List (Entry L)} {e : Ending}
      {g : LiveGraph L} (h : OrderlyFrom (level + 1) (level + 1) base new e g) :
      OrderlyFrom (level + 1) (level + 1) base (new ++ [.notice n]) e g :=
    .append (by simp [Entry.Within]) (orderly_singleton nofun) h
  refine perform_obeys _ ?_ ?_ ?_ ?_ ?_ ?_
  · rintro n rfl
    exact orderlyFrom_singleton trivial nofun fun _ => rfl
  · exact fun n {_ _ _} h => hnotice n _ h
  · intro event x t henters hadds
    refine (emit_ordering hi t).imp fun {new e g} h => ?_
    have hbase : (fun event => c.registers event (s.live.listeners event)) = t.live.listeners := by
      funext event
      rw [Command.registers_of_addition hadds,
        LiveGraph.listeners_eq_of_subscriptions henters.subscriptions]
    rw [hbase]
    exact h
  · rintro p rfl
    exact removeEdge_ordering hi s
  · rintro id rfl
    exact removeNode_ordering hi s
  · exact fun h => ⟨by simp, fun _ => ⟨listeners_of_adjusts h, orderly_nil _ _⟩⟩

theorem edit_ordering (levels : Nat) (c : Command L) (s : State L σ) :
    (edit behaviour levels c).Obeys (ordering levels levels) s := by
  refine edit_obeys (fun g => ⟨by simp, fun h => absurd rfl h⟩)
    (fun level hi c s => (perform_ordering hi c s).imp fun h => ?_) levels c s
  have hedit : (Entry.edit level c s.live).Within (level + 1) := Nat.lt_succ_self level
  exact .append (by simpa using hedit) (orderly_singleton nofun) h

end

/-- Listeners that subscribe, unsubscribe and edit the graph while they are called spoil no
delivery. An emission calls those who are registered for its event when it begins, in their order
and as often as they are, until one raises. In every run the registrations are what its edits have
made of them so far, and every call belongs to an emission to those who were registered when that
began. To subscribe adds one registration at the end, and to unsubscribe takes away all of that
listener for that event; others stay. -/
theorem deliveries_complete (behaviour : Behaviour L σ ε) :
    (∀ level event x (s : State L σ),
      (emit behaviour level (edit behaviour level) event x s).1.ending ≠ .unfinished →
      ∃ new, (emit behaviour level (edit behaviour level) event x s).2.journal = new ++ s.journal ∧
        Emission level event x (s.live.listeners event) new
          (emit behaviour level (edit behaviour level) event x s).1.ending) ∧
    (∀ {level event x} {ls : List L} {new e}, Emission level event x ls new e →
      e = .returned ∧ named (Entry.called level) new = ls ∧
        named (Entry.raiser level) new = [] ∨
      e = .raised ∧ ∃ told l rest, ls = told ++ l :: rest ∧
        named (Entry.called level) new = told ++ [l] ∧ named (Entry.raiser level) new = [l]) ∧
    (∀ s t, EditReachable behaviour s t → ∃ new, t.journal = new ++ s.journal ∧
      (∀ event, t.live.listeners event = registered event (s.live.listeners event) new) ∧
      ∀ later level c before, new = later ++ .call level c :: before →
        c.Delivers s.live.listeners later level before) ∧
    ∀ level event l (s : State L σ) other,
      (edit behaviour (level + 1) (.subscribe event l) s).2.live.listeners other =
        (if event = other then s.live.listeners other ++ [l] else s.live.listeners other) ∧
      (edit behaviour (level + 1) (.unsubscribe event l) s).2.live.listeners other =
        if event = other then (s.live.listeners other).filter (· ≠ l)
        else s.live.listeners other := by
  have hwithin (level : Nat) (c : Command L) (s : State L σ) :
      (edit behaviour level c).Obeys (within level) s :=
    (edit_ordering level c s).imp And.left
  refine ⟨fun level event x s hf => ?_, fun h => h.named_eq, fun s t h => ?_,
    fun level event l s other => ⟨?_, ?_⟩⟩
  · have hemit : (emit behaviour level (edit behaviour level) event x).Obeys (fun g new e _ =>
        e ≠ .unfinished → Emission level event x (g.listeners event) new e) s :=
      emit_emission (hwithin level) s
    obtain ⟨new, hj, hemission⟩ := hemit
    exact ⟨new, hj, hemission hf⟩
  · have hl : Law.Endures (fun g new e g' => ∃ n, ordering n n g new e g' : Law L) := by
      refine ⟨fun g e => ⟨0, (ordering_endures 0 0).still g e⟩, ?_⟩
      rintro g g' g'' new new' e e' he ⟨m, hm⟩ ⟨n, hn⟩
      exact ⟨m + n, (ordering_endures _ _).trans he (ordering_mono (Nat.le_add_right m n) hm)
        (ordering_mono (Nat.le_add_left n m) hn)⟩
    obtain ⟨new, e, hj, hf, n, hwithin, horderly⟩ :=
      h.obeys hl fun levels c s => (edit_ordering levels c s).imp fun h => ⟨levels, h⟩
    refine ⟨new, hj, (horderly hf).1, fun later level c before hsplit => ?_⟩
    have hlevel : (Entry.call level c).Within n := hwithin _ (by simp [hsplit])
    exact (horderly hf).2 later level c before hsplit hlevel
  · exact listeners_of_adjusts (.subscribe event l) other
  · exact listeners_of_adjusts (.unsubscribe event l) other

/-- The first listener, when it is first called, takes away the second one, brings in a third one
that raises, and adds a node. -/
def churn : Behaviour Nat Nat Unit := fun listener _ _ calls =>
  if listener = 0 ∧ calls = 0 then
    .edit 1 (.unsubscribe .addNode 1) fun _ _ calls =>
      .edit calls (.subscribe .addNode 2) fun _ _ calls =>
        .edit calls (.addNode ⟨"B", .null, .null⟩) fun _ _ calls => .done calls ()
  else if listener = 2 then .raise calls ()
  else .done calls ()

def churnStart : State Nat Nat where
  live := { subscriptions := [0, 1, 1, 0].map (.addNode, ·) }
  memory := 0

def churnEnd : State Nat Nat :=
  (edit churn 3 (.addNode ⟨"A", .null, .null⟩) churnStart).2

/-- The call that raises, in the emission inside of the first call. -/
def churnCall : Call Nat where
  event := .addNode
  listener := 2
  entity := .node ⟨1, "B", .null, .null⟩
  live :=
    { nodes := [⟨0, "A", .null, .null⟩, ⟨1, "B", .null, .null⟩]
      subscriptions := [0, 0, 2].map (.addNode, ·)
      fresh := 2 }

theorem churnEnd_journal : churnEnd.journal =
    churnEnd.journal.take 4 ++ .call 1 churnCall :: churnEnd.journal.drop 5 := by
  decide +kernel

theorem churn_reachable : EditReachable churn churnStart churnEnd :=
  .single (EditStep.of_finished (by decide +kernel))

/-- The outer emission calls the second listener twice though it is gone, and not the third one;
the inner one calls the third and not the second. -/
theorem churn_delivers :
    (∃ new, (emit churn 2 (edit churn 2) .addNode (.node ⟨0, "A", .null, .null⟩)
        churnStart).2.journal = new ∧ named (Entry.called 2) new = [0, 1, 1, 0] ∧
      named (Entry.raiser 2) new = []) ∧
    churnCall.Delivers churnStart.live.listeners (churnEnd.journal.take 4) 1
      (churnEnd.journal.drop 5) ∧
    registered .addNode [0, 1, 1, 0] churnEnd.journal = [0, 0, 2] := by
  obtain ⟨hemit, hnamed, hruns, -⟩ := deliveries_complete churn
  have hlisteners : churnStart.live.listeners .addNode = [0, 1, 1, 0] := by decide
  have hreturned : (emit churn 2 (edit churn 2) .addNode (.node ⟨0, "A", .null, .null⟩)
      churnStart).1.ending = .returned := by decide +kernel
  have hend : churnEnd.live.listeners .addNode = [0, 0, 2] := by decide +kernel
  refine ⟨?_, ?_⟩
  · obtain ⟨new, hj, h⟩ := hemit 2 .addNode (.node ⟨0, "A", .null, .null⟩) churnStart
      (by rw [hreturned]; decide)
    rw [hreturned, hlisteners] at h
    refine ⟨new, hj.trans (List.append_nil new), ?_⟩
    rcases hnamed h with ⟨-, hall⟩ | ⟨⟨⟩, -⟩
    exact hall
  · obtain ⟨new, hj, hregistered, hcalls⟩ := hruns _ _ churn_reachable
    obtain rfl : churnEnd.journal = new := hj.trans (List.append_nil new)
    refine ⟨hcalls _ _ _ _ churnEnd_journal, ?_⟩
    rw [← hlisteners, ← hregistered, hend]

end FlowGraph.Live
