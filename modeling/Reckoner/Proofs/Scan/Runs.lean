import Mathlib.Data.List.Induction
import Reckoner.Proofs.Scan.Moves

/-!
# Runs

What every run keeps, and where a run fails: at a point that refuses what comes next, unless it is too deep.
-/

namespace Reckoner

namespace Scan

variable {limit : Option Nat} {scan next : Scan} {c : Char} {fault : Fault} {text read rest : List Char}

theorem move_of_step (hstep : step limit scan c = .ok next) : Move c scan next := by
  rcases moves_or_refuses scan c with ⟨other, hmove⟩ | ⟨fault, hrefuses⟩
  · rw [hmove.step_limit] at hstep
    split at hstep
    · obtain rfl := Except.ok.inj hstep
      exact hmove
    · exact absurd hstep (by simp)
  · exact absurd ((hrefuses.step rfl).symm.trans hstep) (by simp)

/-- A character that is a fault is refused at its point, unless it is an opening that leads too deep. -/
theorem refuses_or_tooDeep_of_step (hstep : step limit scan c = .error fault) :
    Refuses scan (some c) fault ∨ fault = .tooDeep scan.position none := by
  rcases moves_or_refuses scan c with ⟨next, hmove⟩ | ⟨other, hrefuses⟩
  · rw [hmove.step_limit] at hstep
    split at hstep
    · exact absurd hstep (by simp)
    · exact .inr (Except.error.inj hstep).symm
  · obtain rfl := Except.error.inj ((hrefuses.step rfl).symm.trans hstep)
    exact .inl hrefuses

theorem feed_snoc : feed limit scan (text ++ [c]) = feed limit scan text >>= fun next => step limit next c := by
  rw [feed_append]
  congr 1
  funext next
  rw [feed_cons]
  cases step limit next c <;> rfl

/-- What holds of a point and is kept by every move holds of every point behind it. -/
theorem feed_induction (limit : Option Nat) (scan : Scan) (invariant : List Char → Scan → Prop)
    (hstart : invariant [] scan)
    (hmove : ∀ read c point next, feed limit scan read = .ok point → step limit point c = .ok next → Move c point next →
      invariant read point → invariant (read ++ [c]) next) :
    ∀ read next, feed limit scan read = .ok next → invariant read next := by
  intro read
  induction read using List.reverseRecOn with
  | nil =>
    intro next hfeed
    obtain rfl := Except.ok.inj hfeed
    exact hstart
  | append_singleton read c ih =>
    intro next hfeed
    rw [feed_snoc, bind_eq_ok_iff] at hfeed
    obtain ⟨point, hpoint, hstep⟩ := hfeed
    exact hmove read c point next hpoint hstep (move_of_step hstep) (ih point hpoint)

theorem Move.position (hmove : Move c scan next) : next.position = scan.position + 1 := by
  induction hmove with
  | numberEnd hpart hread hmove ih => exact ih
  | _ => rfl

theorem position_of_feed (hfeed : feed limit scan read = .ok next) : next.position = scan.position + read.length := by
  refine feed_induction limit scan (fun read next => next.position = scan.position + read.length) rfl ?_ _ _ hfeed
  intro read c point next _ _ hmove hposition
  rw [hmove.position, hposition, List.length_append, List.length_singleton, Nat.add_assoc]

theorem position_of_feed_start (hfeed : feed limit start read = .ok next) : next.position = read.length :=
  (position_of_feed hfeed).trans (Nat.zero_add _)

theorem feed_none_of_feed (hfeed : feed limit scan read = .ok next) : feed none scan read = .ok next := by
  refine feed_induction limit scan (fun read next => feed none scan read = .ok next) rfl ?_ _ _ hfeed
  intro read c point next _ _ hmove hfree
  rw [feed_snoc, hfree, ok_bind, hmove.step]

theorem exists_feed_of_prefix (hfeed : feed limit scan text = .ok next) (hread : read <+: text) :
    ∃ point, feed limit scan read = .ok point := by
  obtain ⟨rest, rfl⟩ := hread
  rw [feed_append, bind_eq_ok_iff] at hfeed
  obtain ⟨point, hpoint, -⟩ := hfeed
  exact ⟨point, hpoint⟩

/-! ### Where a run fails -/

theorem refuses_of_run (hrun : run limit scan text = .error fault) (hfault : ∀ opened found, fault ≠ .tooDeep opened found) :
    ∃ read rest next, text = read ++ rest ∧ feed limit scan read = .ok next ∧ Refuses next rest.head? fault := by
  induction text generalizing scan with
  | nil => exact ⟨[], [], scan, rfl, rfl, finish_eq_error_iff.1 hrun⟩
  | cons c text ih =>
    rw [run_cons, bind_eq_error_iff] at hrun
    rcases hrun with hstep | ⟨point, hstep, hrun⟩
    · exact ⟨[], c :: text, scan, rfl, rfl, (refuses_or_tooDeep_of_step hstep).resolve_right (hfault _ _)⟩
    · obtain ⟨read, rest, next, htext, hfeed, hrefuses⟩ := ih hrun
      refine ⟨c :: read, rest, next, congrArg (c :: ·) htext, ?_, hrefuses⟩
      rw [feed_cons, hstep, ok_bind, hfeed]

theorem Refuses.run (hfeed : feed limit scan read = .ok next) (hrefuses : Refuses next rest.head? fault) :
    run limit scan (read ++ rest) = .error fault := by
  rw [run_append, hfeed, ok_bind]
  cases rest with
  | nil => exact hrefuses.finish rfl
  | cons c rest =>
    rw [run_cons, hrefuses.step rfl]
    rfl

theorem Refuses.ne_tooDeep {look : Option Char} (hrefuses : Refuses scan look fault) (opened : Nat) (found : Option Char) :
    fault ≠ .tooDeep opened found := by
  induction hrefuses with
  | numberEnd hnext hread hrefuses ih => exact ih
  | _ => simp

theorem run_none_ne_tooDeep {opened : Nat} {found : Option Char} : run none scan text ≠ .error (.tooDeep opened found) := by
  induction text generalizing scan with
  | nil => exact fun hfinish => (finish_eq_error_iff.1 hfinish).ne_tooDeep _ _ rfl
  | cons c text ih =>
    intro hrun
    rw [run_cons] at hrun
    rcases moves_or_refuses scan c with ⟨next, hmove⟩ | ⟨fault, hrefuses⟩
    · rw [hmove.step] at hrun
      exact ih hrun
    · rw [hrefuses.step rfl] at hrun
      exact hrefuses.ne_tooDeep _ _ (Except.error.inj hrun)

/-! ### Behind an operand and inside a number -/

/-- Behind an operand no sign is pending. -/
def Settled (scan : Scan) : Prop := scan.expects = .operator → behindOperand scan.enclosing = scan.enclosing

theorem Move.settled (hmove : Move c scan next) (hscan : scan.Settled) : next.Settled := by
  induction hmove with
  | numberEnd hpart hread hmove ih => exact ih fun _ => behindOperand_behindOperand _
  | operatorBlank => exact hscan
  | closing => exact fun _ => behindOperand_behindOperand _
  | _ => exact fun hexpects => absurd hexpects (by simp)

theorem settled_of_feed (hscan : scan.Settled) (hfeed : feed limit scan read = .ok next) : next.Settled :=
  feed_induction limit scan (fun _ next => next.Settled) hscan (fun _ _ _ _ _ _ hmove => hmove.settled) _ _ hfeed

theorem settled_of_feed_start (hfeed : feed limit start read = .ok next) : next.Settled :=
  settled_of_feed (fun hexpects => absurd hexpects (by simp [start])) hfeed

/-- What has been read of a number is the end of what has been read, and an operand was expected in front of it. -/
theorem number_of_feed {position : Nat} {first : Char} {others : List Char} (hscan : scan.expects = .operand)
    (hfeed : feed limit scan read = .ok next) (hexpects : next.expects = .number position first others) :
    ∃ before, read = before ++ first :: others ∧ (∀ c ∈ first :: others, Literal.isPart c) ∧
      feed limit scan before = .ok ⟨position, next.enclosing, .operand⟩ := by
  refine feed_induction limit scan
    (fun read next => ∀ first others, next.expects = .number position first others →
      ∃ before, read = before ++ first :: others ∧ (∀ c ∈ first :: others, Literal.isPart c) ∧
        feed limit scan before = .ok ⟨position, next.enclosing, .operand⟩)
    ?_ ?_ _ _ hfeed first others hexpects
  · intro first others hnumber
    exact absurd (hscan.symm.trans hnumber) (by simp)
  · intro read c point next hpoint _ hmove ih first others hnumber
    cases hmove with
    | number hpart =>
      obtain ⟨rfl, rfl, rfl⟩ := Expectation.number.inj hnumber
      exact ⟨read, rfl, by simpa using hpart, hpoint⟩
    | part hpart =>
      obtain ⟨rfl, rfl, rfl⟩ := Expectation.number.inj hnumber
      obtain ⟨before, rfl, hparts, hbefore⟩ := ih _ _ rfl
      refine ⟨before, by simp, ?_, hbefore⟩
      intro d hd
      rcases List.mem_append.1 (List.cons_append ▸ hd) with hd | hd
      · exact hparts d hd
      · rw [List.mem_singleton.1 hd]
        exact hpart
    | numberEnd hpart hread hmove =>
      generalize behindOperand _ = enclosing at hmove
      cases hmove <;> exact absurd hnumber (by simp)
    | operandBlank => exact absurd hnumber (by simp)
    | opening => exact absurd hnumber (by simp)
    | operatorBlank => exact absurd hnumber (by simp)
    | operator => exact absurd hnumber (by simp)
    | closing => exact absurd hnumber (by simp)

end Scan

end Reckoner
