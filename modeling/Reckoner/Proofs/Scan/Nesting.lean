import Reckoner.Proofs.Scan.Embedding

/-!
# The peak of nesting

A limit on nesting does one thing only: it ends a run where the nesting first exceeds it. So a run within a limit is the
run without one if the peak of nesting stays within the limit, and too deep otherwise.
-/

namespace Reckoner

theorem nesting_within (place : Nat → Nat) (enclosing base : List Enclosure) :
    nesting (enclosing.map (Enclosure.relocate place) ++ base) = nesting enclosing + nesting base := by
  induction enclosing with
  | nil => exact (Nat.zero_add _).symm
  | cons enclosure enclosing ih =>
    have hcost : (enclosure.relocate place).cost = enclosure.cost := by cases enclosure <;> rfl
    rw [List.map_cons, List.cons_append, nesting_cons, nesting_cons, ih, hcost]
    omega

namespace Scan

variable {bound : Nat} {c : Char} {scan next : Scan} {text read : List Char}

/-- The greatest nesting on the way from a point to the end of a text, or to its first fault. -/
def peak (scan : Scan) : List Char → Nat
  | [] => nesting scan.enclosing
  | c :: text =>
    max (nesting scan.enclosing) <|
      match step none scan c with
      | .ok next => next.peak text
      | .error _ => 0

theorem nesting_le_peak (scan : Scan) (text : List Char) : nesting scan.enclosing ≤ scan.peak text := by
  cases text with
  | nil => exact Nat.le_refl _
  | cons c text => exact Nat.le_max_left _ _

theorem peak_cons (hmove : Move c scan next) (text : List Char) :
    scan.peak (c :: text) = max (nesting scan.enclosing) (next.peak text) := by
  rw [peak, hmove.step]

theorem peak_refused {fault : Fault} (hrefuses : Refuses scan (some c) fault) (text : List Char) :
    scan.peak (c :: text) = nesting scan.enclosing := by
  rw [peak, hrefuses.step rfl]
  exact Nat.max_eq_left (Nat.zero_le _)

theorem peak_append (hfeed : feed none scan read = .ok next) (text : List Char) :
    scan.peak (read ++ text) = max (scan.peak read) (next.peak text) := by
  induction read generalizing scan with
  | nil =>
    obtain rfl := Except.ok.inj hfeed
    exact (Nat.max_eq_right (nesting_le_peak _ _)).symm
  | cons c read ih =>
    rw [feed_cons, bind_eq_ok_iff] at hfeed
    obtain ⟨point, hstep, hfeed⟩ := hfeed
    have hmove := move_of_step hstep
    rw [List.cons_append, peak_cons hmove, peak_cons hmove, ih hfeed, Nat.max_assoc]

/-- The peak of a text is no more than what no point of it exceeds. -/
theorem peak_le (hpoints : ∀ read rest point, text = read ++ rest → feed none scan read = .ok point →
    nesting point.enclosing ≤ bound) : scan.peak text ≤ bound := by
  induction text generalizing scan with
  | nil => exact hpoints [] [] scan rfl rfl
  | cons c text ih =>
    have hscan := hpoints [] (c :: text) scan rfl rfl
    rcases moves_or_refuses scan c with ⟨next, hmove⟩ | ⟨fault, hrefuses⟩
    · rw [peak_cons hmove]
      refine Nat.max_le.2 ⟨hscan, ih ?_⟩
      intro read rest point htext hpoint
      refine hpoints (c :: read) rest point (congrArg (c :: ·) htext) ?_
      rw [feed_cons, hmove.step, ok_bind, hpoint]
    · rw [peak_refused hrefuses]
      exact hscan

/-- Inside of more, the peak is higher by the nesting outside. -/
theorem peak_within (place : Nat → Nat) (base : List Enclosure) (hfeed : feed none scan read = .ok next)
    (hbase : behindOperand base = base) (hplace : ∀ position, place (position + 1) = place position + 1) :
    (scan.within place base).peak read = scan.peak read + nesting base := by
  induction read generalizing scan with
  | nil => exact nesting_within place scan.enclosing base
  | cons c read ih =>
    rw [feed_cons, bind_eq_ok_iff] at hfeed
    obtain ⟨point, hstep, hfeed⟩ := hfeed
    have hmove := move_of_step hstep
    have hnesting : nesting (scan.within place base).enclosing = nesting scan.enclosing + nesting base :=
      nesting_within place scan.enclosing base
    rw [peak_cons (hmove.within hbase (hplace _)), peak_cons hmove, ih hfeed, hnesting]
    omega

theorem peak_inside {before inside : List Char} {inner : Scan}
    (hfeed : feed none start (before ++ '(' :: inside) = .ok next) (hinside : feed none start inside = .ok inner) :
    start.peak inside ≤ start.peak (before ++ '(' :: inside) := by
  obtain ⟨point, outer, hbefore, hopening, -⟩ := exists_opening hfeed
  have hpeak := peak_within (· + (before.length + 1)) (.parenthesis before.length :: outer) hinside rfl
    fun position => Nat.add_right_comm _ _ _
  rw [peak_append hbefore, peak_cons hopening, hpeak]
  omega

/-- A run whose nesting stays within the limit is the run without one. -/
theorem run_some_of_peak_le (hpeak : scan.peak text ≤ bound) : run (some bound) scan text = run none scan text := by
  induction text generalizing scan with
  | nil => rfl
  | cons c text ih =>
    rw [run_cons, run_cons]
    rcases moves_or_refuses scan c with ⟨next, hmove⟩ | ⟨fault, hrefuses⟩
    · rw [peak_cons hmove] at hpeak
      have hnext := (nesting_le_peak next text).trans (Nat.le_trans (Nat.le_max_right _ _) hpeak)
      rw [hmove.step_limit, hmove.step, ok_bind, if_pos (.inl (by simpa using hnext)), ok_bind]
      exact ih (Nat.le_trans (Nat.le_max_right _ _) hpeak)
    · rw [hrefuses.step rfl, hrefuses.step rfl]
      rfl

/-- Every other run ends at the character with which the nesting first exceeds the limit. -/
theorem exists_run_some_of_lt_peak (hscan : nesting scan.enclosing ≤ bound) (hpeak : bound < scan.peak text) :
    ∃ read c rest, text = read ++ c :: rest ∧ scan.peak read ≤ bound ∧ bound < scan.peak (read ++ [c]) ∧
      run (some bound) scan text = .error (.tooDeep (scan.position + read.length) none) := by
  induction text generalizing scan with
  | nil => exact absurd hpeak (Nat.not_lt_of_le hscan)
  | cons c text ih =>
    rcases moves_or_refuses scan c with ⟨next, hmove⟩ | ⟨fault, hrefuses⟩
    · rw [run_cons, hmove.step_limit]
      by_cases hnext : nesting next.enclosing ≤ bound
      · rw [peak_cons hmove] at hpeak
        obtain ⟨read, d, rest, rfl, hbefore, hbehind, hrun⟩ := ih hnext (by omega)
        refine ⟨c :: read, d, rest, rfl, ?_, ?_, ?_⟩
        · rw [peak_cons hmove]
          exact Nat.max_le.2 ⟨hscan, hbefore⟩
        · rw [List.cons_append, peak_cons hmove]
          exact Nat.lt_of_lt_of_le hbehind (Nat.le_max_right _ _)
        · rw [if_pos (.inl (by simpa using hnext)), ok_bind, hrun, hmove.position, List.length_cons, Nat.add_right_comm,
            Nat.add_assoc]
      · have hdeeper : ¬ nesting next.enclosing ≤ nesting scan.enclosing := by omega
        refine ⟨[], c, text, rfl, hscan, ?_, ?_⟩
        · rw [List.nil_append, peak_cons hmove]
          exact Nat.lt_of_lt_of_le (Nat.lt_of_not_le hnext) (Nat.le_max_right _ _)
        · simp only [Option.all_some, hnext, decide_false, Bool.false_eq_true, hdeeper, or_self, if_false, error_bind,
            List.length_nil, Nat.add_zero]
    · rw [peak_refused hrefuses] at hpeak
      exact absurd hpeak (Nat.not_lt_of_le hscan)

/-- Of more parentheses than the limit admits, the first that leads too deep ends a run, whatever follows. -/
theorem run_openings {position count : Nat} {enclosing : List Enclosure} (hshallow : nesting enclosing ≤ bound)
    (hdeep : bound < nesting enclosing + 3 * count) (rest : List Char) :
    run (some bound) ⟨position, enclosing, .operand⟩ (List.replicate count '(' ++ rest) =
      .error (.tooDeep (position + (bound - nesting enclosing) / 3) none) := by
  induction count generalizing position enclosing with
  | zero => exact absurd hdeep (by omega)
  | succ count ih =>
    rw [List.replicate_succ, List.cons_append, run_cons, step_operand_opening (by decide) (by decide) rfl, Parser.deepen,
      Opening.cost]
    by_cases hnext : nesting enclosing + 3 ≤ bound
    · have hdeeper : nesting (.parenthesis position :: enclosing) = nesting enclosing + 3 := rfl
      rw [if_pos (by simpa using hnext), ok_bind, ok_bind, Opening.enclosure, ih (by omega) (by omega), hdeeper]
      congr 2
      omega
    · rw [if_neg (by simpa using hnext), error_bind, error_bind]
      congr 2
      omega

end Scan

end Reckoner
