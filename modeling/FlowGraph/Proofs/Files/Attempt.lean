import FlowGraph.Files.Disk
import FlowGraph.Proofs.Files.Tree
import FlowGraph.Proofs.Text.Digits

/-! Work on files where operations fail for reasons that are not in the tree. What an attempt can
do is said once for each operation; a file that only the work itself has put there is taken away
without a trace. -/

namespace FlowGraph.Files

def temporaryNamed (home : Place) (target : Path) (mark : String) : Path :=
  (target.parent.absolute home).child s!".{target.name}.{mark}.tmp"

theorem Tree.exists_freePath (t : Tree) (target : Path) : ∃ mark : String,
    (∀ c ∈ mark.toList, Text.isDigit c = true) ∧
      t.freePath target = temporaryNamed t.home target mark := by
  have hnumbered (number : Nat) : ∃ mark : String, (∀ c ∈ mark.toList, Text.isDigit c = true) ∧
      temporaryPath t.home target number = temporaryNamed t.home target mark := by
    refine ⟨_, ?_, rfl⟩
    intro c hc
    rw [String.toList_ofList, List.mem_append] at hc
    rcases hc with hc | hc
    · rw [List.eq_of_mem_replicate hc]
      rfl
    · exact Text.isDigit_of_mem_decimalDigits hc
  unfold freePath
  dsimp only
  generalize hfree : List.find? _ _ = free
  cases free with
  | none => exact hnumbered 0
  | some p =>
    obtain ⟨number, -, rfl⟩ := List.mem_map.mp (List.mem_of_find?_eq_some hfree)
    exact hnumbered number

theorem getLast?_temporaryNamed (home : Place) (target : Path) (mark : String) :
    ∃ last, (temporaryNamed home target mark).parts.getLast? = some last ∧ last ≠ ".." := by
  refine ⟨_, List.getLast?_concat, fun h => ?_⟩
  have hlength := congrArg String.length h
  have hend : ".tmp".length = 4 := rfl
  have hdots : "..".length = 2 := rfl
  simp [String.length_append, toString] at hlength
  omega

/-- One operation on a tree. It is performed, or it fails by itself; a system is not the cause
of a path that no file can have. -/
inductive Attempt (mayFail : Operation → Prop) (t : Tree) :
    (o : Operation) → o.Answer → Tree → Prop
  | performed (o : Operation) : Attempt mayFail t o (t.perform o).1 (t.perform o).2
  | failed {o : Operation} (fault : Fault) (hfail : mayFail o)
    (hnul : fault.reason ≠ .nulCharacter) : Attempt mayFail t o (o.refuse fault) t
  /-- A write that fails may leave anything in the file. -/
  | torn {p : Path} {content : List UInt8} {place : Place} (left : List UInt8) (fault : Fault)
    (hfail : mayFail (.write p content)) (hnul : fault.reason ≠ .nulCharacter)
    (hplace : t.locate p = .ok place) (hfile : t.find? place ≠ some .directory) :
    Attempt mayFail t (.write p content) (.error fault) (t.put place (.file left))
  /-- A temporary file may get any name that is not in use. -/
  | named {target : Path} {place : Place} (mark : String)
    (hplace : t.locate (temporaryNamed t.home target mark) = .ok place)
    (hfree : t.find? place = none) :
    Attempt mayFail t (.createTemporary target) (.ok (temporaryNamed t.home target mark))
      (t.put place (.file []))

/-- Runs of work in which any of the attempts may fail. -/
inductive Disk.Runs (mayFail : Operation → Prop) {α : Type} : Disk α → Tree → α → Tree → Prop
  | done (a : α) (t : Tree) : Runs mayFail (.done a) t a t
  | step {o : Operation} {next : o.Answer → Disk α} {answer : o.Answer} {t u v : Tree} {a : α}
    (h : Attempt mayFail t o answer u) (hrest : Runs mayFail (next answer) u a v) :
    Runs mayFail (.step o next) t a v

variable {mayFail : Operation → Prop} {α β : Type} {t u v : Tree} {place : Place}

namespace Disk

theorem runs_pure_iff {a b : α} : Runs mayFail (pure a : Disk α) t b v ↔ b = a ∧ v = t := by
  constructor
  · rintro ⟨⟩
    exact ⟨rfl, rfl⟩
  · rintro ⟨rfl, rfl⟩
    exact .done b v

theorem runs_step_iff {o : Operation} {next : o.Answer → Disk α} {a : α} :
    Runs mayFail (.step o next) t a v ↔
      ∃ answer u, Attempt mayFail t o answer u ∧ Runs mayFail (next answer) u a v := by
  constructor
  · rintro ⟨⟩
    exact ⟨_, _, ‹_›, ‹_›⟩
  · rintro ⟨answer, u, h, hrest⟩
    exact .step h hrest

theorem runs_bind_iff {d : Disk α} {f : α → Disk β} {b : β} :
    Runs mayFail (d >>= f) t b v ↔
      ∃ a u, Runs mayFail d t a u ∧ Runs mayFail (f a) u b v := by
  constructor
  · intro h
    induction d generalizing t with
    | done a => exact ⟨a, t, .done a t, h⟩
    | step o next ih =>
      obtain ⟨answer, u, hattempt, hrest⟩ := runs_step_iff.mp h
      obtain ⟨a, w, hnext, hf⟩ := ih answer hrest
      exact ⟨a, w, .step hattempt hnext, hf⟩
  · rintro ⟨a, u, hd, hf⟩
    induction hd with
    | done a t => exact hf
    | step hattempt hrest ih => exact .step hattempt (ih hf)

/-- Running against obstacles is one way that a run can go. -/
theorem runs_runAgainst {obstacle : Operation → Option Fault}
    (h : ∀ o fault, obstacle o = some fault → mayFail o ∧ fault.reason ≠ .nulCharacter)
    (d : Disk α) (t : Tree) :
    Runs mayFail d t (d.runAgainst obstacle t).1 (d.runAgainst obstacle t).2 := by
  induction d generalizing t with
  | done a => exact .done a t
  | step o next ih =>
    cases ho : obstacle o with
    | none =>
      simp only [runAgainst, ho]
      exact .step (.performed o) (ih _ _)
    | some fault =>
      obtain ⟨hfail, hnul⟩ := h o fault ho
      simp only [runAgainst, ho]
      exact .step (.failed fault hfail hnul) (ih _ _)

theorem runs_run (d : Disk α) (t : Tree) : Runs mayFail d t (d.run t).1 (d.run t).2 :=
  runs_runAgainst (by simp) d t

/-- A disk that is full when a file is to be written. -/
def full : Operation → Option Fault
  | .write p _ => some ⟨.other 28 "No space left on device", p⟩
  | _ => none

theorem runs_runAgainst_full (h : ∀ p content, mayFail (.write p content)) (d : Disk α)
    (t : Tree) : Runs mayFail d t (d.runAgainst full t).1 (d.runAgainst full t).2 := by
  refine runs_runAgainst (fun o fault hfull => ?_) d t
  cases o with
  | write p content =>
    cases hfull
    exact ⟨h p content, nofun⟩
  | _ => cases hfull

end Disk

/-- The second tree is the first one with a file at a place that was free. -/
structure Tree.Adds (t : Tree) (place : Place) (content : List UInt8) (u : Tree) : Prop where
  free : t.find? place = none
  home : u.home = t.home
  erased : u.erase place = t
  found : u.find? place = some (.file content)

namespace Tree.Adds

variable {content : List UInt8}

theorem of_put (hfree : t.find? place = none) (content : List UInt8) :
    t.Adds place content (t.put place (.file content)) where
  free := hfree
  home := rfl
  erased := by rw [erase_put, erase_of_find?_eq_none hfree]
  found := find?_put_self (by simp [hfree])

theorem put (h : t.Adds place content u) (other : List UInt8) :
    t.Adds place other (u.put place (.file other)) where
  free := h.free
  home := h.home
  erased := by rw [erase_put, h.erased]
  found := find?_put_self (by simp [h.found])

theorem find?_of_ne (h : t.Adds place content u) {q : Place} (hq : q ≠ place) :
    u.find? q = t.find? q := by
  rw [← h.erased, find?_erase_of_ne hq]

/-- What was there is there still. -/
theorem keeps (h : t.Adds place content u) {q : Place} {e : Entry} (hq : t.find? q = some e) :
    u.find? q = some e := by
  have hne : q ≠ place := by
    rintro rfl
    cases h.free.symm.trans hq
  rw [h.find?_of_ne hne, hq]

theorem directory_of_directory (h : t.Adds place content u) {q : Place}
    (hq : u.find? q = some .directory) : t.find? q = some .directory := by
  have hne : q ≠ place := by
    rintro rfl
    cases h.found.symm.trans hq
  rw [← h.find?_of_ne hne, hq]

/-- The new file blocks no way and opens none. -/
theorem locate_iff (h : t.Adds place content u) {p : Path} {last : String}
    (hlast : p.parts.getLast? = some last) (hback : last ≠ "..") {q : Place} :
    u.locate p = .ok q ↔ t.locate p = .ok q :=
  ⟨locate_of_directories h.home.symm (fun _ => h.directory_of_directory) hlast hback,
    locate_of_directories h.home (fun _ => h.keeps) hlast hback⟩

end Tree.Adds

namespace Attempt

variable {content : List UInt8} {p : Path}

theorem createTemporary_cases {target : Path} {answer : Except Fault Path}
    (h : Attempt mayFail t (.createTemporary target) answer u) :
    (∃ fault, answer = .error fault ∧ u = t ∧
      (fault.reason = .nulCharacter → '\x00' ∈ (t.freePath target).text.toList) ∧
      (mayFail (.createTemporary target) ∨ (t.createTemporary target).1 = .error fault)) ∨
    ∃ mark place, answer = .ok (temporaryNamed t.home target mark) ∧
      t.locate (temporaryNamed t.home target mark) = .ok place ∧ t.Adds place [] u := by
  cases h with
  | failed fault hfail hnul => exact .inl ⟨fault, rfl, rfl, (absurd · hnul), .inl hfail⟩
  | named mark hplace hfree => exact .inr ⟨mark, _, rfl, hplace, .of_put hfree []⟩
  | performed =>
    cases hplace : t.locate (t.freePath target) with
    | error reason =>
      simp only [Tree.perform, Tree.createTemporary, hplace]
      refine .inl ⟨⟨reason, t.freePath target⟩, rfl, trivial, ?_, .inr rfl⟩
      rintro (rfl : reason = .nulCharacter)
      exact Tree.nul_of_locate hplace
    | ok place =>
      cases hfound : t.find? place with
      | some e =>
        simp only [Tree.perform, Tree.createTemporary, hplace, hfound]
        exact .inl ⟨⟨.exists, t.freePath target⟩, rfl, trivial, nofun, .inr rfl⟩
      | none =>
        simp only [Tree.perform, Tree.createTemporary, hplace, hfound]
        obtain ⟨mark, -, hmark⟩ := t.exists_freePath target
        rw [hmark] at hplace ⊢
        exact .inr ⟨mark, place, rfl, hplace, .of_put hfound []⟩

theorem write_cases {c : List UInt8} {answer : Except Fault Unit} (ha : t.Adds place c u)
    (hp : u.locate p = .ok place) (h : Attempt mayFail u (.write p content) answer v) :
    answer = .ok () ∧ t.Adds place content v ∨
    ∃ fault left, answer = .error fault ∧ fault.reason ≠ .nulCharacter ∧
      mayFail (.write p content) ∧ t.Adds place left v := by
  cases h with
  | performed =>
    simp only [Tree.perform, Tree.write, hp, ha.found]
    exact .inl ⟨trivial, ha.put content⟩
  | failed fault hfail hnul => exact .inr ⟨fault, c, rfl, hnul, hfail, ha⟩
  | torn left fault hfail hnul hplace =>
    obtain rfl := Except.ok.inj (hp.symm.trans hplace)
    exact .inr ⟨fault, left, rfl, hnul, hfail, ha.put left⟩

theorem rename_cases {target : Path} {answer : Except Fault Unit} (ha : t.Adds place content u)
    (hp : u.locate p = .ok place) (h : Attempt mayFail u (.rename p target) answer v) :
    (∃ goal, answer = .ok () ∧ u.locate target = .ok goal ∧ u.find? goal ≠ some .directory ∧
      v = t.put goal (.file content)) ∨
    ∃ fault, answer = .error fault ∧ v = u ∧
      (fault.reason = .nulCharacter → '\x00' ∈ target.text.toList) ∧
      (mayFail (.rename p target) ∨
        ∀ goal, u.locate target = .ok goal → u.find? goal = some .directory) := by
  cases h with
  | failed fault hfail hnul => exact .inr ⟨fault, rfl, rfl, (absurd · hnul), .inl hfail⟩
  | performed =>
    simp only [Tree.perform, Tree.rename, hp]
    cases hgoal : u.locate target with
    | error reason =>
      refine .inr ⟨⟨reason, target⟩, rfl, rfl, ?_, .inr nofun⟩
      rintro (rfl : reason = .nulCharacter)
      exact Tree.nul_of_locate hgoal
    | ok goal =>
      cases hfound : u.find? goal with
      | none =>
        simp only [ha.found, hfound, ha.erased]
        exact .inl ⟨goal, trivial, rfl, by simp [hfound], rfl⟩
      | some e =>
        cases e with
        | file c =>
          simp only [ha.found, hfound, ha.erased]
          exact .inl ⟨goal, trivial, rfl, by simp [hfound], rfl⟩
        | directory =>
          refine .inr ⟨⟨.isDirectory, target⟩, ?_, ?_, nofun, .inr ?_⟩
          · simp only [ha.found, hfound]
          · simp only [ha.found, hfound]
          · rintro _ ⟨⟩
            exact hfound

theorem status_eq {answer : Except Fault (Option Kind)} (hsure : ¬ mayFail (.status p))
    (ha : t.Adds place content u) (hp : u.locate p = .ok place)
    (h : Attempt mayFail u (.status p) answer v) : answer = .ok (some .file) ∧ v = u := by
  cases h with
  | performed =>
    simp only [Tree.perform, Tree.status, hp, ha.found]
    exact ⟨rfl, trivial⟩
  | failed fault hfail => exact absurd hfail hsure

theorem delete_eq {answer : Except Fault Unit} (hsure : ¬ mayFail (.delete p))
    (ha : t.Adds place content u) (hp : u.locate p = .ok place)
    (h : Attempt mayFail u (.delete p) answer v) : answer = .ok () ∧ v = t := by
  cases h with
  | performed =>
    simp only [Tree.perform, Tree.delete, hp, ha.found]
    exact ⟨trivial, ha.erased⟩
  | failed fault hfail => exact absurd hfail hsure

end Attempt

end FlowGraph.Files
