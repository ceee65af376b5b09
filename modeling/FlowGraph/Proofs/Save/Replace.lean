import FlowGraph.Proofs.Files.Attempt
import FlowGraph.Proofs.Files.Path
import FlowGraph.Save

/-! Taking the place of a file. However the attempts go, the target is written completely and
nothing else is changed, or all is as it was before. -/

namespace FlowGraph

open Files

variable {ε : Type} {mayFail : Operation → Prop} {t u v : Tree} {place : Place}
  {target temporary : Path} {content : List UInt8}

/-- After a fault of the system nothing is left. -/
theorem giveUp_runs (hstatus : ∀ p, ¬ mayFail (.status p)) (hdelete : ∀ p, ¬ mayFail (.delete p))
    (ha : t.Adds place content u) (hp : u.locate temporary = .ok place) {fault : Fault}
    {e : SaveError ε} (h : (giveUp target temporary fault).Runs mayFail u e v) :
    if fault.reason = .nulCharacter then e = .badPath fault ∧ v = u
    else e = .unwritable target fault ∧ v = t := by
  unfold giveUp at h
  by_cases hnul : fault.reason = .nulCharacter
  · rw [if_pos hnul] at h ⊢
    exact Disk.runs_pure_iff.mp h
  · rw [if_neg hnul] at h ⊢
    obtain ⟨_, _, hlooked, hthere⟩ := Disk.runs_step_iff.mp h
    obtain ⟨rfl, rfl⟩ := Attempt.status_eq (hstatus temporary) ha hp hlooked
    obtain ⟨_, _, hdeleted, hend⟩ := Disk.runs_step_iff.mp hthere
    obtain ⟨rfl, rfl⟩ := Attempt.delete_eq (hdelete temporary) ha hp hdeleted
    exact Disk.runs_pure_iff.mp hend

/-- What replacing a file can come to. -/
inductive Replacement (mayFail : Operation → Prop) (t : Tree) (target : Path)
    (content : List UInt8) : Except (SaveError ε) Unit → Tree → Prop
  | replaced {goal : Place} (hgoal : t.locate target = .ok goal)
    (hfile : t.find? goal ≠ some .directory) :
    Replacement mayFail t target content (.ok ()) (t.put goal (.file content))
  | kept {fault : Fault} (hnul : fault.reason ≠ .nulCharacter)
    (hcause : (∃ o, mayFail o) ∨ (t.createTemporary target).1 = .error fault ∨
      ∀ goal, t.locate target = .ok goal → t.find? goal = some .directory) :
    Replacement mayFail t target content (.error (.unwritable target fault)) t
  /-- No file can have the path. A temporary file may stay. -/
  | impossible {v : Tree} {fault : Fault} (hnul : fault.reason = .nulCharacter)
    (hcause : '\x00' ∈ target.text.toList ∨ '\x00' ∈ (t.freePath target).text.toList)
    (hkeeps : ∀ q e, t.find? q = some e → v.find? q = some e) :
    Replacement mayFail t target content (.error (.badPath fault)) v

theorem Replacement.of_giveUp (hstatus : ∀ p, ¬ mayFail (.status p))
    (hdelete : ∀ p, ¬ mayFail (.delete p)) {left : List UInt8} (ha : t.Adds place left u)
    (hp : u.locate temporary = .ok place) {fault : Fault}
    (hnul : fault.reason = .nulCharacter → '\x00' ∈ target.text.toList)
    (hcause : (∃ o, mayFail o) ∨ ∀ goal, t.locate target = .ok goal →
      t.find? goal = some .directory) {r : Except (SaveError ε) Unit}
    (h : Disk.Runs mayFail (do return .error (← giveUp target temporary fault)) u r v) :
    Replacement mayFail t target content r v := by
  obtain ⟨e, w, hgave, hend⟩ := Disk.runs_bind_iff.mp h
  have hgiven := giveUp_runs hstatus hdelete ha hp hgave
  obtain ⟨rfl, rfl⟩ := Disk.runs_pure_iff.mp hend
  by_cases hreason : fault.reason = .nulCharacter
  · rw [if_pos hreason] at hgiven
    obtain ⟨rfl, rfl⟩ := hgiven
    exact .impossible hreason (.inl (hnul hreason)) fun _ _ => ha.keeps
  · rw [if_neg hreason] at hgiven
    obtain ⟨rfl, rfl⟩ := hgiven
    exact .kept hreason (hcause.imp_right .inr)

/-- However the attempts go, there are only these three ends. A failure has a cause: an operation
that may fail, no place for a temporary file, or no place for the target. -/
theorem replaceFile_runs (hstatus : ∀ p, ¬ mayFail (.status p))
    (hdelete : ∀ p, ¬ mayFail (.delete p)) {last : String}
    (hlast : target.parts.getLast? = some last) (hback : last ≠ "..")
    {r : Except (SaveError ε) Unit} (h : (replaceFile target content).Runs mayFail t r v) :
    Replacement mayFail t target content r v := by
  obtain ⟨created, w, hcreate, hcreated⟩ := Disk.runs_step_iff.mp h
  rcases Attempt.createTemporary_cases hcreate with ⟨fault, rfl, rfl, hnul, hcause⟩ |
    ⟨mark, place, rfl, hplace, hadded⟩
  · obtain ⟨rfl, rfl⟩ := Disk.runs_pure_iff.mp hcreated
    unfold SaveError.ofFault
    by_cases hreason : fault.reason = .nulCharacter
    · rw [if_pos hreason]
      exact .impossible hreason (.inr (hnul hreason)) fun _ _ => id
    · rw [if_neg hreason]
      exact .kept hreason (hcause.imp (fun hfail => ⟨_, hfail⟩) .inl)
  -- From here on the tree is the first one with the temporary file, whatever is in it.
  obtain ⟨name, hname, hplain⟩ := getLast?_temporaryNamed t.home target mark
  have hthere {c : List UInt8} {w : Tree} (ha : t.Adds place c w) :
      w.locate (temporaryNamed t.home target mark) = .ok place :=
    (ha.locate_iff hname hplain).mpr hplace
  obtain ⟨written, w', hwrite, hwritten⟩ := Disk.runs_step_iff.mp hcreated
  rcases Attempt.write_cases hadded (hthere hadded) hwrite with
    ⟨rfl, hfull⟩ | ⟨fault, left, rfl, hreason, hfail, htorn⟩
  · obtain ⟨moved, w'', hmove, hmoved⟩ := Disk.runs_step_iff.mp hwritten
    rcases Attempt.rename_cases hfull (hthere hfull) hmove with
      ⟨goal, rfl, hgoal, hfile, rfl⟩ | ⟨fault, rfl, rfl, hnul, hcause⟩
    · obtain ⟨rfl, rfl⟩ := Disk.runs_pure_iff.mp hmoved
      exact .replaced ((hfull.locate_iff hlast hback).mp hgoal) (mt hfull.keeps hfile)
    · refine .of_giveUp hstatus hdelete hfull (hthere hfull) hnul
        (hcause.imp (fun hfail => ⟨_, hfail⟩) fun hblocked goal hgoal => ?_) hmoved
      exact hfull.directory_of_directory (hblocked goal ((hfull.locate_iff hlast hback).mpr hgoal))
  · exact .of_giveUp hstatus hdelete htorn (hthere htorn) (absurd · hreason) (.inl ⟨_, hfail⟩)
      hwritten

theorem giveUp_ne_ok {fault : Fault} {r : Except (SaveError ε) Unit}
    (h : Disk.Runs mayFail (do return .error (← giveUp target temporary fault)) u r v) :
    r ≠ .ok () := by
  obtain ⟨e, w, -, hend⟩ := Disk.runs_bind_iff.mp h
  rw [(Disk.runs_pure_iff.mp hend).1]
  exact nofun

/-- Whatever may fail, when replacing has not failed then all went as it should. -/
theorem replaceFile_ok {last : String} (hlast : target.parts.getLast? = some last)
    (hback : last ≠ "..") (h : (replaceFile target content).Runs mayFail t
      (.ok () : Except (SaveError ε) Unit) v) :
    ∃ goal, t.locate target = .ok goal ∧ t.find? goal ≠ some .directory ∧
      v = t.put goal (.file content) := by
  obtain ⟨created, w, hcreate, hcreated⟩ := Disk.runs_step_iff.mp h
  rcases Attempt.createTemporary_cases hcreate with ⟨fault, rfl, -⟩ |
    ⟨mark, place, rfl, hplace, hadded⟩
  · cases (Disk.runs_pure_iff.mp hcreated).1
  obtain ⟨name, hname, hplain⟩ := getLast?_temporaryNamed t.home target mark
  obtain ⟨written, w', hwrite, hwritten⟩ := Disk.runs_step_iff.mp hcreated
  rcases Attempt.write_cases hadded ((hadded.locate_iff hname hplain).mpr hplace) hwrite with
    ⟨rfl, hfull⟩ | ⟨fault, left, rfl, -⟩
  · obtain ⟨moved, w'', hmove, hmoved⟩ := Disk.runs_step_iff.mp hwritten
    rcases Attempt.rename_cases hfull ((hfull.locate_iff hname hplain).mpr hplace) hmove with
      ⟨goal, rfl, hgoal, hfile, rfl⟩ | ⟨fault, rfl, -⟩
    · obtain ⟨-, rfl⟩ := Disk.runs_pure_iff.mp hmoved
      exact ⟨goal, (hfull.locate_iff hlast hback).mp hgoal, mt hfull.keeps hfile, rfl⟩
    · exact absurd rfl (giveUp_ne_ok hmoved)
  · exact absurd rfl (giveUp_ne_ok hwritten)

end FlowGraph
