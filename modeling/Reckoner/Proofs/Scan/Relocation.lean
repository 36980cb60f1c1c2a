import Reckoner.Proofs.Scan.Nesting

/-!
# Relocation

The automaton does not look at positions, it only hands them on. So a run from a point further to the right finds the
same as the run from the point itself, with every position at its new place.
-/

namespace Reckoner

/-- The same fault with every position at its new place. What is found behind an opening is not known from the fault alone, and
is kept. -/
def Fault.relocate (place : Nat → Nat) : Fault → Fault
  | unexpected position found => unexpected (place position) found
  | unclosedBefore position found => unclosedBefore (place position) found
  | unclosed opened length => unclosed (place opened) (place length)
  | missingOperand position found => missingOperand (place position) found
  | malformedNumber position first others => malformedNumber (place position) first others
  | tooDeep opened found => tooDeep (place opened) found

namespace Scan

variable {place : Nat → Nat} {limit : Option Nat} {c : Char} {scan next point : Scan} {fault : Fault}
  {text read blanks : List Char} {position : Nat} {enclosing : List Enclosure} {expects : Expectation}

theorem Refuses.relocate {look : Option Char} (hrefuses : Refuses scan look fault) :
    Refuses (scan.within place []) look (fault.relocate place) := by
  induction hrefuses with
  | missingOperand hnext => exact .missingOperand hnext
  | noOperand hpart hblank hopening hfollows => exact .noOperand hpart hblank hopening hfollows
  | malformed hnext hread => exact .malformed hnext hread
  | numberEnd hnext hread hrefuses ih =>
    rw [Scan.within, ← behindOperand_within rfl] at ih
    exact .numberEnd hnext hread ih
  | unclosed => exact .unclosed
  | unclosedBefore hends hclosing => exact .unclosedBefore hends hclosing
  | @leftOver position enclosing c hends henclosing =>
    refine .leftOver hends ?_
    intro opened outer hmoved
    cases enclosing with
    | nil => exact absurd hmoved (by simp)
    | cons enclosure others =>
      cases enclosure with
      | sign => exact absurd (List.cons.inj hmoved).1 (by simp [Enclosure.relocate])
      | parenthesis inner => exact henclosing inner others rfl

theorem finishOperator_relocate (position : Nat) (enclosing : List Enclosure) :
    finishOperator (place position) (enclosing.map (Enclosure.relocate place)) =
      (finishOperator position enclosing).mapError (Fault.relocate place) := by
  match enclosing with
  | [] => rfl
  | .sign :: _ => rfl
  | .parenthesis _ :: _ => rfl

theorem finish_relocate : finish (scan.within place []) = (finish scan).mapError (Fault.relocate place) := by
  obtain ⟨position, enclosing, expects⟩ := scan
  rw [within, List.append_nil]
  cases expects with
  | operand => rfl
  | operator => exact finishOperator_relocate position enclosing
  | number start first others =>
    cases hread : Literal.ofRun? (first :: others) with
    | none =>
      rw [finish_malformed hread]
      exact finish_malformed hread
    | some literal =>
      have hsome := Option.isSome_of_eq_some hread
      have hbehind : behindOperand (enclosing.map (Enclosure.relocate place) ++ []) = _ :=
        behindOperand_within rfl enclosing
      rw [List.append_nil, List.append_nil] at hbehind
      rw [finish_complete hsome, Expectation.relocate, finish_complete hsome, hbehind]
      exact finishOperator_relocate position (behindOperand enclosing)

/-- A run from a relocated point is the relocated run, if the places of what is left to read stay in a row. -/
theorem run_relocate (hplace : ∀ position, scan.position ≤ position → place (position + 1) = place position + 1) :
    run limit (scan.within place []) text = (run limit scan text).mapError (Fault.relocate place) := by
  induction text generalizing scan with
  | nil => exact finish_relocate
  | cons c text ih =>
    rw [run_cons, run_cons]
    rcases moves_or_refuses scan c with ⟨next, hmove⟩ | ⟨fault, hrefuses⟩
    · have hmoved : Move c (scan.within place []) (next.within place []) :=
        hmove.within rfl (hplace _ (Nat.le_refl _))
      have hnesting : ∀ scan : Scan, nesting (scan.within place []).enclosing = nesting scan.enclosing :=
        fun scan => nesting_within place scan.enclosing []
      rw [hmove.step_limit, hmoved.step_limit, hnesting, hnesting]
      split
      · refine ih fun position hposition => hplace position ?_
        rw [hmove.position] at hposition
        omega
      · rfl
    · rw [hrefuses.step rfl, hrefuses.relocate.step rfl]
      rfl

/-! ### What has been read

Whatever a point remembers lies in front of it, and so does whatever a fault of a character speaks of. -/

theorem opened_lt_length (hfeed : feed limit start read = .ok point) {opened : Nat}
    (hopened : .parenthesis opened ∈ point.enclosing) : opened < read.length := by
  obtain ⟨inner, outer, henclosing⟩ := List.append_of_mem hopened
  obtain ⟨before, inside, -, rfl, rfl, -, -⟩ := exists_inside hfeed opened outer ⟨inner, henclosing.symm⟩
  rw [List.length_append, List.length_cons]
  omega

theorem number_lt_length {first : Char} {others : List Char} (hfeed : feed limit start read = .ok point)
    (hexpects : point.expects = .number position first others) : position < read.length := by
  obtain ⟨before, rfl, -, hbefore⟩ := number_of_feed rfl hfeed hexpects
  have hposition : position = before.length := position_of_feed_start hbefore
  rw [List.length_append, List.length_cons]
  omega

theorem map_relocate_eq_self (hkeep : ∀ opened, .parenthesis opened ∈ enclosing → place opened = opened) :
    enclosing.map (Enclosure.relocate place) = enclosing := by
  refine (List.map_congr_left fun enclosure hmem => ?_).trans (List.map_id enclosing)
  cases enclosure with
  | parenthesis opened => exact congrArg Enclosure.parenthesis (hkeep opened hmem)
  | sign => rfl

theorem Refuses.relocate_eq_self {look : Option Char} (hrefuses : Refuses scan look fault) (hlook : look ≠ none)
    (hposition : place scan.position = scan.position)
    (hnumber : ∀ start first others, scan.expects = .number start first others → place start = start) :
    fault.relocate place = fault := by
  induction hrefuses with
  | missingOperand => exact congrArg (Fault.missingOperand · _) hposition
  | noOperand => exact congrArg (Fault.unexpected · _) hposition
  | malformed => exact congrArg (Fault.malformedNumber · _ _) (hnumber _ _ _ rfl)
  | numberEnd hnext hread hrefuses ih => exact ih hlook hposition fun _ _ _ hexpects => absurd hexpects (by simp)
  | unclosed => exact absurd rfl hlook
  | unclosedBefore => exact congrArg (Fault.unclosedBefore · _) hposition
  | leftOver => exact congrArg (Fault.unexpected · _) hposition

theorem exists_step_of_feed (hfeed : feed limit scan text = .error fault) :
    ∃ read c rest point, text = read ++ c :: rest ∧ feed limit scan read = .ok point ∧
      step limit point c = .error fault := by
  induction text generalizing scan with
  | nil => exact absurd hfeed (by simp)
  | cons c text ih =>
    rw [feed_cons, bind_eq_error_iff] at hfeed
    rcases hfeed with hstep | ⟨next, hstep, hfeed⟩
    · exact ⟨[], c, text, scan, rfl, rfl, hstep⟩
    · obtain ⟨read, d, rest, point, rfl, hread, hfault⟩ := ih hfeed
      refine ⟨c :: read, d, rest, point, rfl, ?_, hfault⟩
      rw [feed_cons, hstep, ok_bind, hread]

/-- A fault of a character is the same wherever what stands behind the character is moved to. -/
theorem relocate_of_feed (hfeed : feed limit start text = .error fault)
    (hkeep : ∀ position, position < text.length → place position = position) : fault.relocate place = fault := by
  obtain ⟨read, c, rest, point, rfl, hread, hstep⟩ := exists_step_of_feed hfeed
  have hlength : read.length < (read ++ c :: rest).length := by
    rw [List.length_append, List.length_cons]
    omega
  rcases refuses_or_tooDeep_of_step hstep with hrefuses | rfl
  · refine hrefuses.relocate_eq_self (by simp) ?_ ?_
    · rw [position_of_feed_start hread]
      exact hkeep _ hlength
    · intro position first others hexpects
      exact hkeep position ((number_lt_length hread hexpects).trans hlength)
  · rw [position_of_feed_start hread]
    exact congrArg (Fault.tooDeep · none) (hkeep _ hlength)

end Scan

end Reckoner
