import FlowGraph.Files.Directories
import FlowGraph.Proofs.Files.Attempt
import FlowGraph.Proofs.Files.Way

/-! Making directories. Whatever fails, no file is touched; and if nothing fails by itself, the
directories are made just if no file stands in the way of the path. -/

namespace FlowGraph.Files

variable {mayFail : Operation → Prop} {t u v : Tree} {p : Path} {α β : Type}

/-! Work that is made of some operations only. -/

inductive Disk.Only (P : Operation → Prop) : Disk α → Prop
  | done (a : α) : Only P (.done a)
  | step {o : Operation} {next : o.Answer → Disk α} (ho : P o)
    (hnext : ∀ answer, Only P (next answer)) : Only P (.step o next)

namespace Disk

variable {P : Operation → Prop} {d : Disk α}

theorem runs_single_iff {o : Operation} {answer : o.Answer} :
    Runs mayFail (.step o .done) t answer u ↔ Attempt mayFail t o answer u := by
  rw [runs_step_iff]
  constructor
  · rintro ⟨given, w, h, hend⟩
    obtain ⟨rfl, rfl⟩ := runs_pure_iff.mp hend
    exact h
  · intro h
    exact ⟨answer, u, h, .done answer u⟩

theorem Only.bind {f : α → Disk β} (hd : d.Only P) (hf : ∀ a, (f a).Only P) :
    (d >>= f).Only P := by
  induction hd with
  | done a => exact hf a
  | step ho _ ih => exact .step ho ih

/-- What each of the operations keeps up, the whole work does. -/
theorem Only.runs {R : Tree → Tree → Prop} (hd : d.Only P) (refl : ∀ t, R t t)
    (trans : ∀ {t u v}, R t u → R u v → R t v)
    (attempt : ∀ {o answer t u}, P o → Attempt mayFail t o answer u → R t u) {a : α}
    (h : d.Runs mayFail t a v) : R t v := by
  induction hd generalizing t with
  | done a =>
    obtain ⟨-, rfl⟩ := runs_pure_iff.mp h
    exact refl v
  | step ho _ ih =>
    obtain ⟨answer, u, hattempt, hrest⟩ := runs_step_iff.mp h
    exact trans (attempt ho hattempt) (ih answer hrest)

end Disk

/-- The second tree is the first one with some more directories. -/
structure Tree.Gains (t u : Tree) : Prop where
  home : u.home = t.home
  found : ∀ q, u.find? q = t.find? q ∨ t.find? q = none ∧ u.find? q = some .directory

namespace Tree.Gains

theorem refl (t : Tree) : t.Gains t where
  home := rfl
  found _ := .inl rfl

theorem trans (h : t.Gains u) (h' : u.Gains v) : t.Gains v where
  home := h'.home.trans h.home
  found q := by
    rcases h.found q with hq | ⟨hnone, hq⟩
    · rw [← hq]
      exact h'.found q
    · rcases h'.found q with hq' | ⟨hnone', -⟩
      · exact .inr ⟨hnone, hq'.trans hq⟩
      · cases hq.symm.trans hnone'

theorem keeps (h : t.Gains u) {q : Place} {e : Entry} (hq : t.find? q = some e) :
    u.find? q = some e := by
  rcases h.found q with hsame | ⟨hnone, -⟩
  · rw [hsame, hq]
  · cases hnone.symm.trans hq

theorem file_iff (h : t.Gains u) {q : Place} {content : List UInt8} :
    u.find? q = some (.file content) ↔ t.find? q = some (.file content) := by
  refine ⟨fun hq => ?_, h.keeps⟩
  rcases h.found q with hsame | ⟨-, hnew⟩
  · rw [← hsame, hq]
  · cases hnew.symm.trans hq

theorem of_put {place : Place} (h : t.find? place = none) : t.Gains (t.put place .directory) where
  home := rfl
  found q := by
    by_cases hq : q = place
    · subst hq
      exact .inr ⟨h, find?_put_self (by simp [h])⟩
    · exact .inl (find?_put_of_ne hq)

theorem start (h : t.Gains u) (p : Path) : u.start p = t.start p := by
  rw [Tree.start, Tree.start, h.home]

theorem enter (h : t.Gains u) {here q : Place} {parts : List String}
    (henter : t.enter here parts = .ok q) : u.enter here parts = .ok q :=
  enter_of_directories (fun _ => h.keeps) henter

theorem locate (h : t.Gains u) {q : Place} (hlocate : t.locate p = .ok q) :
    u.locate p = .ok q := by
  have hfits := fits_of_locate hlocate
  cases hlast : p.parts.getLast? with
  | none =>
    have hparts : p.parts = [] := List.getLast?_eq_none_iff.mp hlast
    rw [locate_of_no_parts hfits hparts] at hlocate ⊢
    rw [h.start, hlocate]
  | some last =>
    rw [locate_of_last hfits hlast] at hlocate ⊢
    cases hhere : t.enter (t.start p) p.parts.dropLast with
    | error reason =>
      rw [hhere] at hlocate
      cases hlocate
    | ok here =>
      rw [hhere] at hlocate
      rw [h.start, h.enter hhere]
      exact hlocate

/-- A way that is open in the one is open in the other. -/
theorem opens_iff (h : t.Gains u) {here : Place} {parts : List String} :
    u.Opens here parts ↔ t.Opens here parts := by
  induction parts generalizing here with
  | nil => exact Iff.rfl
  | cons part rest ih =>
    by_cases hup : part = ".."
    · subst hup
      exact ih
    have hfound : (∀ e ∈ u.find? (here ++ [part]), e = .directory) ↔
        ∀ e ∈ t.find? (here ++ [part]), e = .directory := by
      rcases h.found (here ++ [part]) with hsame | ⟨hnone, hnew⟩
      · rw [hsame]
      · simp [hnone, hnew]
    rw [opens_part hup, opens_part hup, hfound, ih]

theorem admits_iff (h : t.Gains u) : u.Admits p ↔ t.Admits p := by
  constructor
  · rintro ⟨hfits, hopens⟩
    exact ⟨hfits, h.opens_iff.mp (h.start p ▸ hopens)⟩
  · rintro ⟨hfits, hopens⟩
    exact ⟨hfits, h.opens_iff.mpr ((h.start p).symm ▸ hopens)⟩

end Tree.Gains

namespace Attempt

theorem status_cases {answer : Except Fault (Option Kind)}
    (h : Attempt mayFail t (.status p) answer u) :
    u = t ∧ (answer = t.status p ∨ ∃ fault, answer = .error fault ∧ mayFail (.status p)) := by
  cases h with
  | performed => exact ⟨rfl, .inl rfl⟩
  | failed fault hfail => exact ⟨rfl, .inr ⟨fault, rfl, hfail⟩⟩

theorem read_cases {answer : Except Fault (List UInt8)} (h : Attempt mayFail t (.read p) answer u) :
    u = t ∧ (answer = t.read p ∨
      ∃ fault, answer = .error fault ∧ fault.reason ≠ .nulCharacter ∧ mayFail (.read p)) := by
  cases h with
  | performed => exact ⟨rfl, .inl rfl⟩
  | failed fault hfail hnul => exact ⟨rfl, .inr ⟨fault, rfl, hnul, hfail⟩⟩

theorem makeDirectory_cases {answer : Except Fault Unit}
    (h : Attempt mayFail t (.makeDirectory p) answer u) :
    (∃ place, answer = .ok () ∧ t.locate p = .ok place ∧ t.find? place = none ∧
      u = t.put place .directory) ∨
    ∃ fault, answer = .error fault ∧ u = t ∧
      (mayFail (.makeDirectory p) ∨ (t.makeDirectory p).1 = .error fault) := by
  cases h with
  | failed fault hfail => exact .inr ⟨fault, rfl, rfl, .inl hfail⟩
  | performed =>
    simp only [Tree.perform, Tree.makeDirectory]
    cases hplace : t.locate p with
    | error reason => exact .inr ⟨_, rfl, rfl, .inr rfl⟩
    | ok place =>
      cases hfound : t.find? place with
      | some e =>
        simp only [hfound]
        exact .inr ⟨_, rfl, trivial, .inr rfl⟩
      | none =>
        simp only [hfound]
        exact .inl ⟨place, trivial, rfl, hfound, rfl⟩

end Attempt

/-! Making directories. -/

def MakesDirectories : Operation → Prop
  | .status _ | .makeDirectory _ => True
  | _ => False

theorem gains_of_makesDirectories {o : Operation} {answer : o.Answer} (ho : MakesDirectories o)
    (h : Attempt mayFail t o answer u) : t.Gains u := by
  cases o with
  | status p =>
    obtain ⟨rfl, -⟩ := h.status_cases
    exact .refl u
  | makeDirectory p =>
    rcases h.makeDirectory_cases with ⟨place, -, -, hfree, rfl⟩ | ⟨_, -, rfl, -⟩
    · exact .of_put hfree
    · exact .refl u
  | _ => cases ho

theorem Disk.Only.gains {d : Disk α} (hd : d.Only MakesDirectories) {a : α}
    (h : d.Runs mayFail t a v) : t.Gains v :=
  hd.runs .refl .trans gains_of_makesDirectories h

theorem status_only (p : Path) : (Disk.status p).Only MakesDirectories :=
  .step trivial .done

theorem makeDirectory_only (p : Path) : (Disk.makeDirectory p).Only MakesDirectories :=
  .step trivial .done

theorem acceptExisting_only (p : Path) (fault : Fault) :
    (acceptExisting p fault).Only MakesDirectories := by
  unfold acceptExisting
  split
  · exact .done _
  · refine (status_only p).bind fun found => ?_
    split <;> exact .done _

theorem makeDirectories_only (depth : Nat) (p : Path) :
    (makeDirectories depth p).Only MakesDirectories := by
  induction depth generalizing p with
  | zero =>
    refine (makeDirectory_only p).bind fun made => ?_
    split
    · exact .done _
    · exact acceptExisting_only p _
  | succ depth ih =>
    refine (makeDirectory_only p).bind fun made => ?_
    split
    · exact .done _
    split
    · refine (ih p.parent).bind fun above => ?_
      split
      · exact .done _
      · refine (makeDirectory_only p).bind fun made => ?_
        split
        · exact .done _
        · exact acceptExisting_only p _
    · exact acceptExisting_only p _

theorem makeOrKeep_only (p : Path) : (makeOrKeep p).Only MakesDirectories := by
  refine (makeDirectory_only p).bind fun made => ?_
  split
  · exact .done _
  · refine (status_only p).bind fun found => ?_
    split <;> exact .done _

theorem makeFromTop_only (depth : Nat) (p : Path) :
    (makeFromTop depth p).Only MakesDirectories := by
  induction depth generalizing p with
  | zero => exact .done _
  | succ depth ih =>
    unfold makeFromTop
    dsimp only
    split
    · exact makeOrKeep_only p
    · refine (status_only p.parent).bind fun found => ?_
      split
      · exact makeOrKeep_only p
      · refine (ih p.parent).bind fun above => ?_
        split
        · exact makeOrKeep_only p
        · split
          · exact makeOrKeep_only p
          · exact .done _

/-! Directories that were made are there. -/

/-- The last step is to make the directory itself, or to find that it is there. -/
theorem makeDirectories_succ (depth : Nat) (p : Path) : makeDirectories (depth + 1) p = (do
    match ← Disk.makeDirectory p with
    | .ok () => return .ok ()
    | .error fault =>
      if fault.reason = .notFound ∧ p.parent ≠ p then
        match ← makeDirectories depth p.parent with
        | .error fault => return .error fault
        | .ok () => makeDirectories 0 p
      else acceptExisting p fault) :=
  rfl

theorem directory_of_made (h : Attempt mayFail t (.makeDirectory p) (.ok ()) u) :
    u.status p = .ok (some .directory) := by
  rcases h.makeDirectory_cases with ⟨place, -, hplace, hfree, rfl⟩ | ⟨_, hfault, -⟩
  · have hthere := (Tree.Gains.of_put hfree).locate hplace
    rw [Tree.status_of_locate hthere, Tree.find?_put_self (by simp [hfree])]
    rfl
  · cases hfault

theorem directory_of_accepted {fault : Fault}
    (h : (acceptExisting p fault).Runs mayFail t (.ok ()) u) :
    u.status p = .ok (some .directory) := by
  unfold acceptExisting at h
  by_cases hreason : fault.reason = .notFound ∨ fault.reason = .nulCharacter
  · rw [if_pos hreason] at h
    cases (Disk.runs_pure_iff.mp h).1
  rw [if_neg hreason] at h
  obtain ⟨found, w, hlook, hend⟩ := Disk.runs_step_iff.mp h
  obtain ⟨rfl, hfound⟩ := hlook.status_cases
  cases found with
  | error other => cases (Disk.runs_pure_iff.mp hend).1
  | ok kind =>
    rcases kind with _ | ⟨_ | _⟩
    · cases (Disk.runs_pure_iff.mp hend).1
    · cases (Disk.runs_pure_iff.mp hend).1
    · obtain ⟨-, rfl⟩ := Disk.runs_pure_iff.mp hend
      rcases hfound with hfound | ⟨_, hfault, _⟩
      · exact hfound.symm
      · cases hfault

theorem directory_of_makeDirectories {depth : Nat}
    (h : (makeDirectories depth p).Runs mayFail t (.ok ()) u) :
    u.status p = .ok (some .directory) := by
  have hlast {w : Tree} (h : (makeDirectories 0 p).Runs mayFail w (.ok ()) u) :
      u.status p = .ok (some .directory) := by
    obtain ⟨made, w, hmake, hend⟩ := Disk.runs_step_iff.mp h
    cases made with
    | error fault => exact directory_of_accepted hend
    | ok =>
      obtain ⟨-, rfl⟩ := Disk.runs_pure_iff.mp hend
      exact directory_of_made hmake
  cases depth with
  | zero => exact hlast h
  | succ depth =>
    rw [makeDirectories_succ] at h
    obtain ⟨made, w, hmake, hend⟩ := Disk.runs_step_iff.mp h
    cases made with
    | ok =>
      obtain ⟨-, rfl⟩ := Disk.runs_pure_iff.mp hend
      exact directory_of_made hmake
    | error fault =>
      have hend : Disk.Runs mayFail (if fault.reason = .notFound ∧ p.parent ≠ p then do
          match ← makeDirectories depth p.parent with
          | .error fault => return .error fault
          | .ok () => makeDirectories 0 p
        else acceptExisting p fault) w (.ok ()) u := hend
      split at hend
      · obtain ⟨above, w', -, hend⟩ := Disk.runs_bind_iff.mp hend
        cases above with
        | error other => cases (Disk.runs_pure_iff.mp hend).1
        | ok => exact hlast hend
      · exact directory_of_accepted hend

theorem admits_of_makeDirectories {depth : Nat}
    (h : (makeDirectories depth p).Runs mayFail t (.ok ()) u) : t.Admits p := by
  have hgains := (makeDirectories_only depth p).gains h
  obtain ⟨hfits, q, henter⟩ :=
    Tree.status_eq_directory_iff.mp (directory_of_makeDirectories h)
  exact hgains.admits_iff.mp ⟨hfits, Tree.opens_of_enter_ok henter⟩

/-! Directories that can be made are made, if nothing fails by itself. -/

section Sure

variable (hsure : ∀ o, MakesDirectories o → ¬ mayFail o)
include hsure

theorem accepted_of_directory (hp : t.status p = .ok (some .directory)) {r : Except Fault Unit}
    (h : (acceptExisting p ⟨.exists, p⟩).Runs mayFail t r u) : r = .ok () := by
  obtain ⟨found, w, hlook, hend⟩ := Disk.runs_step_iff.mp h
  obtain ⟨rfl, rfl | ⟨_, -, hfail⟩⟩ := hlook.status_cases
  · rw [hp] at hend
    exact (Disk.runs_pure_iff.mp hend).1
  · exact absurd hfail (hsure _ trivial)

/-- Where its parent is, a directory is made or is there already. -/
theorem made_of_entered (hp : t.Admits p) {here : Place}
    (hhere : t.enter (t.start p) p.parts.dropLast = .ok here) {made : Except Fault Unit}
    (h : Attempt mayFail t (.makeDirectory p) made u) :
    made = .ok () ∨ made = .error ⟨.exists, p⟩ ∧ u = t ∧ t.status p = .ok (some .directory) := by
  obtain ⟨place, hplace, hfree⟩ := hp.locate hhere
  rcases h.makeDirectory_cases with ⟨_, rfl, -⟩ | ⟨fault, rfl, rfl, hfail | hfault⟩
  · exact .inl rfl
  · exact absurd hfail (hsure _ trivial)
  · rw [Tree.makeDirectory, hplace] at hfault
    cases hfound : u.find? place with
    | none =>
      simp only [hfound] at hfault
      cases hfault
    | some e =>
      obtain rfl := hfree e hfound
      simp only [hfound] at hfault
      refine .inr ⟨hfault.symm, rfl, ?_⟩
      rw [Tree.status_of_locate hplace, hfound]
      rfl

theorem makeDirectories_zero_of_entered (hp : t.Admits p) {here : Place}
    (hhere : t.enter (t.start p) p.parts.dropLast = .ok here) {r : Except Fault Unit}
    (h : (makeDirectories 0 p).Runs mayFail t r u) : r = .ok () := by
  obtain ⟨made, w, hmake, hend⟩ := Disk.runs_step_iff.mp h
  rcases made_of_entered hsure hp hhere hmake with rfl | ⟨rfl, rfl, hthere⟩
  · exact (Disk.runs_pure_iff.mp hend).1
  · exact accepted_of_directory hsure hthere hend

/-- Where its parent is missing, this is what the directory is refused for. -/
theorem refused_of_missing (hp : p.Fits)
    (hmissing : t.enter (t.start p) p.parts.dropLast = .error .notFound)
    {made : Except Fault Unit} (h : Attempt mayFail t (.makeDirectory p) made u) :
    made = .error ⟨.notFound, p⟩ ∧ u = t ∧ p.parent ≠ p := by
  cases hlast : p.parts.getLast? with
  | none =>
    rw [List.getLast?_eq_none_iff.mp hlast] at hmissing
    cases hmissing
  | some last =>
    have hlocate : t.locate p = .error .notFound := by
      rw [Tree.locate_of_last hp hlast, hmissing]
      rfl
    have hother : p.parent ≠ p := by
      intro hself
      have hlength := congrArg (fun p : Path => p.parts.length) hself
      obtain ⟨parts, hparts⟩ := List.getLast?_eq_some_iff.mp hlast
      simp [Path.parent, hparts] at hlength
    rcases h.makeDirectory_cases with ⟨place, -, hplace, -⟩ | ⟨fault, rfl, rfl, hfail | hfault⟩
    · cases hlocate.symm.trans hplace
    · exact absurd hfail (hsure _ trivial)
    · rw [Tree.makeDirectory, hlocate] at hfault
      exact ⟨hfault.symm, rfl, hother⟩

theorem makeDirectories_of_admits {depth : Nat} (hdepth : p.parts.length ≤ depth)
    (hp : t.Admits p) {r : Except Fault Unit}
    (h : (makeDirectories depth p).Runs mayFail t r u) : r = .ok () := by
  induction depth generalizing p t r u with
  | zero =>
    have hhere : t.enter (t.start p) p.parts.dropLast = .ok (t.start p) := by
      rw [List.eq_nil_of_length_eq_zero (Nat.le_zero.mp hdepth)]
      rfl
    exact makeDirectories_zero_of_entered hsure hp hhere h
  | succ depth ih =>
    rw [makeDirectories_succ] at h
    obtain ⟨made, w, hmake, hend⟩ := Disk.runs_step_iff.mp h
    -- Only a missing parent sends the work upwards, and the way is still open when it is made.
    rcases Tree.enter_of_opens hp.parent.opens with ⟨here, hhere⟩ | hmissing
    · rcases made_of_entered hsure hp hhere hmake with rfl | ⟨rfl, rfl, hthere⟩
      · exact (Disk.runs_pure_iff.mp hend).1
      · exact accepted_of_directory hsure hthere hend
    · obtain ⟨rfl, rfl, hother⟩ := refused_of_missing hsure hp.fits hmissing hmake
      have hend : Disk.Runs mayFail (if Reason.notFound = .notFound ∧ p.parent ≠ p then do
          match ← makeDirectories depth p.parent with
          | .error fault => return .error fault
          | .ok () => makeDirectories 0 p
        else acceptExisting p ⟨.notFound, p⟩) w r u := hend
      rw [if_pos ⟨rfl, hother⟩] at hend
      obtain ⟨above, w', habove, hend⟩ := Disk.runs_bind_iff.mp hend
      have hlength : p.parent.parts.length ≤ depth := by
        rw [Path.parent, List.length_dropLast]
        omega
      obtain rfl := ih hlength hp.parent habove
      have hgains := (makeDirectories_only depth p.parent).gains habove
      obtain ⟨-, here, hhere⟩ :=
        Tree.status_eq_directory_iff.mp (directory_of_makeDirectories habove)
      exact makeDirectories_zero_of_entered hsure (hgains.admits_iff.mpr hp) hhere hend

/-- The directories of a path can be made just if the tree admits them. -/
theorem makeDirectories_ok_iff {r : Except Fault Unit}
    (h : (makeDirectories p.parts.length p).Runs mayFail t r u) : r = .ok () ↔ t.Admits p := by
  constructor
  · rintro rfl
    exact admits_of_makeDirectories h
  · exact fun hp => makeDirectories_of_admits hsure (Nat.le_refl _) hp h

end Sure

end FlowGraph.Files
