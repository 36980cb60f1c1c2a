import Reckoner.Proofs.Evaluation.Faults

/-!
# Kinds of faults

Which kind a fault has can be told without the reader, from the texts that have a value: from what a prefix of the text
could be completed with.
-/

namespace Reckoner

open Scan

/-- A text behind which a number, and then closing parentheses, make an expression. -/
def AwaitsOperand (text : List Char) : Prop :=
  ∃ count value, evaluate (.ofList (text ++ " 0".toList ++ List.replicate count ')')) = .ok value

/-- A closing parenthesis for each that is open, of which there is one at least, makes an expression of the text. -/
def AwaitsClosing (text : List Char) : Prop :=
  ∃ count value, 1 ≤ count ∧ evaluate (.ofList (text ++ List.replicate count ')')) = .ok value

/-- In place of an operand the text ends, or something stands that can only follow one. -/
def LacksOperandAt (text : List Char) (position : Nat) : Prop :=
  AwaitsOperand (text.take position) ∧
    (position = text.length ∨ ∃ c, text[position]? = some c ∧ (c = ')' ∨ c = '*' ∨ c = '/'))

/-- In place of an operand stands a run of digits and points without any digit or with too many points. -/
def MalformedAt (text : List Char) (position : Nat) : Prop :=
  let run := (text.drop position).takeWhile Literal.isPart
  AwaitsOperand (text.take position) ∧ run ≠ [] ∧ ((∀ c ∈ run, c.isDigit = false) ∨ 2 ≤ run.count '.')

variable {text : String} {fault : Fault}

theorem awaitsOperand_of_feed {read : List Char} {point : Scan} (hread : feed (some nestingLimit) start read = .ok point)
    (hexpects : point.expects = .operand) : AwaitsOperand read := by
  obtain ⟨position, enclosing, expects⟩ := point
  cases hexpects
  refine ⟨openParentheses enclosing, ?_⟩
  rw [List.append_assoc]
  exact exists_evaluate_append hread run_blank_zero

theorem AwaitsOperand.exists_feed {read : List Char} (hawaits : AwaitsOperand read) :
    ∃ enclosing, feed (some nestingLimit) start read = .ok ⟨read.length, enclosing, .operand⟩ := by
  obtain ⟨count, value, hvalue⟩ := hawaits
  have hrun := exists_evaluate_iff.1 ⟨value, hvalue⟩
  rw [String.toList_ofList, List.append_assoc, run_append, bind_eq_ok_iff] at hrun
  obtain ⟨point, hread, hmore⟩ := hrun
  have hexpects : point.expects = .operand := expects_of_blank_zero hmore
  have hposition : point.position = read.length := position_of_feed_start hread
  obtain ⟨position, enclosing, expects⟩ := point
  cases hexpects
  cases hposition
  exact ⟨enclosing, hread⟩

/-! ### Empty operands -/

theorem Scan.Refuses.missing_of_kind {scan : Scan} {next : Option Char} (hrefuses : Refuses scan next fault)
    (hkind : fault.kind = .emptyOperand) :
    scan.expects = .operand ∧ fault = .missingOperand scan.position next ∧ ∀ c ∈ next, c = ')' ∨ c = '*' ∨ c = '/' := by
  induction hrefuses with
  | missingOperand hnext => exact ⟨rfl, rfl, hnext⟩
  | numberEnd hnext hread hrefuses ih => exact absurd (ih hkind).1 (by simp)
  | _ => exact absurd hkind (by simp [Fault.kind])

theorem lacksOperandAt_of_kind {position : Nat} (hfault : evaluate text = .error fault)
    (hkind : fault.kind = .emptyOperand) (hposition : fault.position = position) :
    LacksOperandAt text.toList position := by
  obtain ⟨read, rest, point, htext, hread, hrefuses⟩ := exists_refuses hfault (Fault.ne_tooDeep_of_kind (by simp [hkind]))
  obtain ⟨hexpects, rfl, hnext⟩ := hrefuses.missing_of_kind hkind
  obtain rfl : read.length = position := position_of_feed_start hread ▸ hposition
  rw [LacksOperandAt, htext, List.take_left, List.length_append, List.getElem?_append_right (Nat.le_refl _), Nat.sub_self]
  refine ⟨awaitsOperand_of_feed hread hexpects, ?_⟩
  cases rest with
  | nil => exact .inl rfl
  | cons c rest => exact .inr ⟨c, rfl, hnext c rfl⟩

theorem LacksOperandAt.length_take {text : List Char} {position : Nat} (hlacks : LacksOperandAt text position) :
    (text.take position).length = position := by
  rw [List.length_take]
  rcases hlacks.2 with rfl | ⟨c, hc, -⟩
  · exact Nat.min_self _
  · exact Nat.min_eq_left (List.getElem?_eq_some_iff.1 hc).1.le

theorem evaluate_of_lacksOperandAt {position : Nat} (hlacks : LacksOperandAt text.toList position) :
    evaluate text = .error (.missingOperand position (text.toList.drop position).head?) := by
  obtain ⟨enclosing, hread⟩ := hlacks.1.exists_feed
  rw [hlacks.length_take] at hread
  have hrefuses : Refuses ⟨position, enclosing, .operand⟩ (text.toList.drop position).head?
      (.missingOperand position (text.toList.drop position).head?) := by
    apply Refuses.missingOperand
    intro c hc
    rw [List.head?_drop] at hc
    rcases hlacks.2 with rfl | ⟨d, hd, hfollows⟩
    · exact absurd hc (by simp)
    · obtain rfl := Option.some.inj (hd.symm.trans hc)
      exact hfollows
  have hfault := evaluate_of_refuses hread hrefuses
  rw [List.take_append_drop, String.ofList_toList] at hfault
  exact hfault

theorem emptyOperand_iff (hfault : evaluate text = .error fault) (position : Nat) :
    fault.kind = .emptyOperand ∧ fault.position = position ↔ LacksOperandAt text.toList position := by
  constructor
  · exact fun hfound => lacksOperandAt_of_kind hfault hfound.1 hfound.2
  · intro hlacks
    rw [Except.error.inj (hfault.symm.trans (evaluate_of_lacksOperandAt hlacks))]
    exact ⟨rfl, rfl⟩

/-! ### Malformed numbers -/

theorem ofRun?_eq_none_iff {run : List Char} (hparts : ∀ c ∈ run, Literal.isPart c) :
    Literal.ofRun? run = none ↔ (∀ c ∈ run, c.isDigit = false) ∨ 2 ≤ run.count '.' := by
  rw [← Option.not_isSome_iff_eq_none, Literal.isSome_ofRun?_iff hparts, not_and_or, not_exists, Nat.not_le]
  simp only [not_and, Bool.not_eq_true]
  exact Iff.rfl

/-- Where an operand is expected, a run of literal characters is read as what there is of a number. -/
theorem run_operand_parts (limit : Option Nat) (position : Nat) (enclosing : List Enclosure) {first : Char}
    {others rest : List Char} (hparts : ∀ c ∈ first :: others, Literal.isPart c)
    (hrest : ∀ c ∈ rest.head?, Literal.isPart c = false) :
    run limit ⟨position, enclosing, .operand⟩ (first :: others ++ rest) =
      run limit ⟨position + 1 + others.length, enclosing, .number position first others⟩ rest := by
  have hothers : ∀ c ∈ others, Literal.isPart c := fun c hc => hparts c (List.mem_cons_of_mem _ hc)
  have hdrop : (others ++ rest).dropWhile Literal.isPart = rest := by
    have happend := List.takeWhile_append_dropWhile (p := Literal.isPart) (l := others ++ rest)
    rw [takeWhile_isPart hothers hrest] at happend
    exact List.append_cancel_left happend
  rw [List.cons_append, run_cons, step_operand_part (hparts first List.mem_cons_self), ok_bind, run_number,
    takeWhile_isPart hothers hrest, hdrop, List.nil_append]

theorem run_unreadable (limit : Option Nat) (position : Nat) (enclosing : List Enclosure) {first : Char}
    {others rest : List Char} (hparts : ∀ c ∈ first :: others, Literal.isPart c)
    (hrest : ∀ c ∈ rest.head?, Literal.isPart c = false) (hread : Literal.ofRun? (first :: others) = none) :
    run limit ⟨position, enclosing, .operand⟩ (first :: others ++ rest) =
      .error (.malformedNumber position first others) := by
  rw [run_operand_parts limit position enclosing hparts hrest]
  exact run_malformed hrest hread

theorem malformedAt_of_kind {position : Nat} (hfault : evaluate text = .error fault)
    (hkind : fault.kind = .malformedNumber) (hposition : fault.position = position) :
    MalformedAt text.toList position := by
  obtain ⟨before, first, others, rest, enclosing, htext, rfl, hparts, hrest, hmalformed, hbefore, -⟩ :=
    exists_malformed hfault hkind
  obtain rfl : before.length = position := hposition
  rw [MalformedAt, htext, List.take_left, List.drop_left, takeWhile_isPart hparts hrest]
  exact ⟨awaitsOperand_of_feed hbefore rfl, by simp, (ofRun?_eq_none_iff hparts).1 hmalformed⟩

/-- Behind the run of literal characters at a position no literal character follows. -/
theorem not_isPart_behind_run (text : List Char) :
    ∀ c ∈ (text.dropWhile Literal.isPart).head?, Literal.isPart c = false := by
  intro c hc
  have hnot := List.head?_dropWhile_not Literal.isPart text
  rw [hc] at hnot
  exact hnot

theorem evaluate_of_malformedAt {position : Nat} (hmalformedAt : MalformedAt text.toList position) :
    ∃ first others, evaluate text = .error (.malformedNumber position first others) := by
  obtain ⟨hawaits, hsome, hcounts⟩ := hmalformedAt
  obtain ⟨enclosing, hread⟩ := hawaits.exists_feed
  have hparts : ∀ c ∈ (text.toList.drop position).takeWhile Literal.isPart, Literal.isPart c :=
    fun c hc => List.mem_takeWhile_imp hc
  have hsplit := List.takeWhile_append_dropWhile (p := Literal.isPart) (l := text.toList.drop position)
  have hmalformed := (ofRun?_eq_none_iff hparts).2 hcounts
  cases hrun : (text.toList.drop position).takeWhile Literal.isPart with
  | nil => exact absurd hrun hsome
  | cons first others =>
    rw [hrun] at hparts hmalformed hsplit
    have hlength : (text.toList.take position).length = position := by
      have hshort := congrArg List.length hsplit
      rw [List.length_append, List.length_cons, List.length_drop] at hshort
      rw [List.length_take]
      omega
    have hbehind := not_isPart_behind_run (text.toList.drop position)
    have hrest := run_unreadable (some nestingLimit) position enclosing hparts hbehind hmalformed
    rw [hsplit] at hrest
    refine ⟨first, others, ?_⟩
    refine evaluate_eq_error_iff.2 ⟨?_, rfl⟩
    rw [← List.take_append_drop position text.toList, run_append, hread, ok_bind, hlength, hrest]
    rfl

theorem malformedNumber_iff (hfault : evaluate text = .error fault) (position : Nat) :
    fault.kind = .malformedNumber ∧ fault.position = position ↔ MalformedAt text.toList position := by
  constructor
  · exact fun hfound => malformedAt_of_kind hfault hfound.1 hfound.2
  · intro hmalformedAt
    obtain ⟨first, others, hother⟩ := evaluate_of_malformedAt hmalformedAt
    rw [Except.error.inj (hfault.symm.trans hother)]
    exact ⟨rfl, rfl⟩

/-! ### Unbalanced parentheses -/

/-- The text ends behind an operand, inside of a parenthesis that is open. -/
theorem exists_unclosed (hfault : evaluate text = .error fault) (hkind : fault.kind = .unbalancedParenthesis) :
    ∃ opened point outer, fault = .unclosed opened text.toList.length ∧
      feed (some nestingLimit) start text.toList = .ok point ∧ point.HasOperand ∧
      behindOperand point.enclosing = .parenthesis opened :: outer := by
  obtain ⟨read, rest, point, htext, hread, hrefuses⟩ := exists_refuses hfault (Fault.ne_tooDeep_of_kind (by simp [hkind]))
  obtain ⟨-, hchar, -⟩ := hrefuses.found (by rw [hkind]; simp)
  cases fault with
  | unclosed opened length =>
    obtain rfl : rest = [] := List.head?_eq_none_iff.1 hchar.symm
    rw [List.append_nil] at htext
    have hfinish := finish_eq_error_iff.2 hrefuses
    obtain ⟨hoperand, rfl, outer, houter⟩ :=
      (finish_eq_unclosed_iff (settled_of_feed_start hread)).1 hfinish
    have hposition : point.position = read.length := position_of_feed_start hread
    exact ⟨opened, point, outer, by rw [htext, hposition], by rw [htext, hread], hoperand, houter⟩
  | _ => exact absurd hkind (by simp [Fault.kind])

theorem awaitsClosing_of_kind (hfault : evaluate text = .error fault) (hkind : fault.kind = .unbalancedParenthesis) :
    AwaitsClosing text.toList := by
  obtain ⟨opened, point, outer, rfl, hread, hoperand, houter⟩ := exists_unclosed hfault hkind
  have hclosings : run (some nestingLimit) point (List.replicate (openParentheses point.enclosing) ')') = .ok () :=
    run_closings_of_hasOperand hoperand (settled_of_feed_start hread)
  obtain ⟨value, hvalue⟩ := exists_evaluate_append hread hclosings
  refine ⟨openParentheses point.enclosing, value, ?_, hvalue⟩
  rw [← openParentheses_behindOperand, houter, openParentheses_parenthesis]
  omega

theorem kind_of_awaitsClosing (hfault : evaluate text = .error fault) (hawaits : AwaitsClosing text.toList) :
    fault.kind = .unbalancedParenthesis := by
  obtain ⟨count, value, hcount, hvalue⟩ := hawaits
  obtain ⟨more, rfl⟩ := Nat.exists_eq_add_of_le' hcount
  have hrun := exists_evaluate_iff.1 ⟨value, hvalue⟩
  rw [String.toList_ofList, run_append, bind_eq_ok_iff] at hrun
  obtain ⟨point, hread, hclosings⟩ := hrun
  rw [List.replicate_succ, run_cons, bind_eq_ok_iff] at hclosings
  obtain ⟨next, hstep, -⟩ := hclosings
  have hoperand := (move_of_step hstep).hasOperand
  have hfinish : finish point = .error fault.withoutNext := by
    obtain ⟨hfails, -⟩ := evaluate_eq_error_iff.1 hfault
    rwa [run, hread, ok_bind] at hfails
  -- an operand ends here, so that only an open parenthesis can keep the text from ending
  rw [finish_of_hasOperand hoperand (settled_of_feed_start hread)] at hfinish
  cases henclosing : behindOperand point.enclosing with
  | nil => exact absurd (henclosing ▸ hfinish) (by simp [finishOperator])
  | cons enclosure outer =>
    cases enclosure with
    | parenthesis opened =>
      rw [henclosing] at hfinish
      rw [← Fault.kind_withoutNext, ← Except.error.inj hfinish]
      rfl
    | sign => exact absurd henclosing (behindOperand_ne_sign _ _)

section Unclosed

variable {opened length : Nat}

/-- What stands behind the parenthesis that is reported as unclosed is an expression of its own. -/
theorem accepted_behind_unclosed (hfault : evaluate text = .error (.unclosed opened length))
    (hpeak : nestingPeak text ≤ nestingLimit) :
    text.toList[opened]? = some '(' ∧ ∃ value, evaluate (.ofList (text.toList.drop (opened + 1))) = .ok value := by
  obtain ⟨_, point, outer, hsame, hread, hoperand, houter⟩ := exists_unclosed hfault rfl
  obtain ⟨rfl, -⟩ := Fault.unclosed.inj hsame
  have hfree := feed_none_of_feed hread
  have hsuffix : .parenthesis opened :: outer <:+ point.enclosing := houter ▸ behindOperand_suffix _
  obtain ⟨before, inside, inner, htext, rfl, hinside, rfl⟩ := exists_inside hread opened outer hsuffix
  have hnone : behindOperand inner.enclosing = [] := by
    change behindOperand (inner.enclosing.map _ ++ _) = _ at houter
    rw [behindOperand_within rfl, List.append_left_eq_self, List.map_eq_nil_iff] at houter
    exact houter
  have hfinish : finish inner = .ok () :=
    (finish_eq_ok_iff (settled_of_feed_start hinside)).2 ⟨hasOperand_within.1 hoperand, hnone⟩
  have hshallow : nestingPeak (.ofList inside) ≤ nestingLimit := by
    rw [nestingPeak, htext] at hpeak
    rw [htext] at hfree
    rw [nestingPeak, String.toList_ofList]
    exact (peak_inside hfree hinside).trans hpeak
  have hdrop : text.toList.drop (before.length + 1) = inside := by
    rw [htext]
    simp
  refine ⟨by rw [htext]; simp, ?_⟩
  rw [hdrop, evaluate_eq hshallow, exists_evaluateUnlimited_iff, String.toList_ofList, run, hinside]
  exact hfinish

/-- No other parenthesis has an expression behind it: the text would be inside of that one and of nothing further in. -/
theorem eq_unclosed_of_accepted (hfault : evaluate text = .error (.unclosed opened length)) {other : Nat}
    (hother : text.toList[other]? = some '(')
    (haccepted : ∃ value, evaluate (.ofList (text.toList.drop (other + 1))) = .ok value) : other = opened := by
  obtain ⟨_, point, outer, hsame, hread, -, houter⟩ := exists_unclosed hfault rfl
  obtain ⟨rfl, -⟩ := Fault.unclosed.inj hsame
  have hfree := feed_none_of_feed hread
  obtain ⟨hshort, hchar⟩ := List.getElem?_eq_some_iff.1 hother
  have hrun := exists_evaluate_iff.1 haccepted
  rw [String.toList_ofList, run, bind_eq_ok_iff] at hrun
  obtain ⟨inner, hinside, hfinish⟩ := hrun
  obtain ⟨-, hnone⟩ := (finish_eq_ok_iff (settled_of_feed_start hinside)).1 hfinish
  have hsplit : text.toList = text.toList.take other ++ '(' :: text.toList.drop (other + 1) := by
    rw [← hchar, List.getElem_cons_drop, List.take_append_drop]
  rw [hsplit] at hfree
  -- what has been read behind the other parenthesis leads to the same point, with that parenthesis innermost
  obtain ⟨around, rfl⟩ := feed_behind_opening hfree (feed_none_of_feed hinside)
  change behindOperand (inner.enclosing.map _ ++ _) = _ at houter
  rw [behindOperand_within rfl, hnone] at houter
  have hposition := Enclosure.parenthesis.inj (List.cons.inj houter).1
  rw [List.length_take] at hposition
  omega

end Unclosed

/-- The kind of a fault is told by completions: of the whole text with closing parentheses, or of the text in front of the
fault with a number. -/
theorem fault_kind_by_completion (text : String) (fault : Fault) (hpeak : nestingPeak text ≤ nestingLimit)
    (hfault : evaluate text = .error fault) :
    (fault.kind = .unbalancedParenthesis ↔ AwaitsClosing text.toList) ∧
    (fault.kind = .unbalancedParenthesis → fault.position = text.toList.length ∧ fault.char? = none ∧
      ∃ opened : Nat, fault.message = s!"Missing closing parenthesis for '(' at position {opened}" ∧
        ∀ other, (text.toList[other]? = some '(' ∧
          ∃ value, evaluate (.ofList (text.toList.drop (other + 1))) = .ok value) ↔ other = opened) ∧
    (∀ position, fault.kind = .emptyOperand ∧ fault.position = position ↔ LacksOperandAt text.toList position) ∧
    (∀ position, fault.kind = .malformedNumber ∧ fault.position = position ↔ MalformedAt text.toList position) ∧
    (fault.kind = .unexpectedCharacter ↔ ¬ AwaitsClosing text.toList ∧
      ∀ position, ¬ LacksOperandAt text.toList position ∧ ¬ MalformedAt text.toList position) := by
  have hclosing : fault.kind = .unbalancedParenthesis ↔ AwaitsClosing text.toList :=
    ⟨awaitsClosing_of_kind hfault, kind_of_awaitsClosing hfault⟩
  have hempty := emptyOperand_iff hfault
  have hmalformed := malformedNumber_iff hfault
  refine ⟨hclosing, ?_, hempty, hmalformed, ?_⟩
  · intro hkind
    obtain ⟨opened, -, -, rfl, -⟩ := exists_unclosed hfault hkind
    refine ⟨rfl, rfl, opened, rfl, ?_⟩
    intro other
    constructor
    · exact fun haccepted => eq_unclosed_of_accepted hfault haccepted.1 haccepted.2
    · intro hsame
      rw [hsame]
      exact accepted_behind_unclosed hfault hpeak
  · rw [← hclosing]
    simp only [← hempty, ← hmalformed]
    cases fault with
    | tooDeep opened found => exact absurd hfault (evaluate_ne_tooDeep hpeak)
    | _ => simp [Fault.kind, Fault.position]

theorem fault_kind_by_completion_competing :
    evaluate "(1)+((2" = .error (.unclosed 5 7) ∧ AwaitsClosing "(1)+((2".toList ∧
    evaluate "(2*1..3)+" = .error (.malformedNumber 3 '1' ['.', '.', '3']) ∧ MalformedAt "(2*1..3)+".toList 3 := by
  have hunclosed : evaluate "(1)+((2" = .error (.unclosed 5 7) := evaluate_eq_error_iff.2 ⟨rfl, rfl⟩
  have hmalformed : evaluate "(2*1..3)+" = .error (.malformedNumber 3 '1' ['.', '.', '3']) := evaluate_eq_error_iff.2 ⟨rfl, rfl⟩
  obtain ⟨hclosing, -⟩ := fault_kind_by_completion _ _ (by decide) hunclosed
  obtain ⟨-, -, -, hnumber, -⟩ := fault_kind_by_completion _ _ (by decide) hmalformed
  exact ⟨hunclosed, hclosing.1 rfl, hmalformed, (hnumber 3).1 ⟨rfl, rfl⟩⟩

end Reckoner
