import Reckoner.Proofs.Evaluation.Meaning
import Reckoner.Proofs.Scan.Relocation

/-!
# Blanks between tokens

Blanks may be put into a text wherever they do not cut a run of literal characters. They change neither its value nor what
is wrong with it; a fault behind them is found as much further to the right as there are blanks.
-/

namespace Reckoner

open Scan

/-- Whether something can be put between two texts without cutting a run of literal characters. -/
def Separable (before after : List Char) : Prop :=
  ∀ left ∈ before.getLast?, ∀ right ∈ after.head?, ¬ (Literal.isPart left ∧ Literal.isPart right)

/-- The position of a character when `count` characters are put in front of what stands at `index`. -/
def shiftedFrom (index count position : Nat) : Nat := if position < index then position else position + count

variable {limit : Option Nat} {before after blanks : List Char} {tokens : List Token}

theorem Separable.of_append {front : List Char} (hseparable : Separable (front ++ before) after) :
    Separable before after := by
  intro left hleft
  apply hseparable left
  rw [List.getLast?_append, hleft]
  rfl

theorem Separable.not_isPart_of_parts {front run : List Char} {first c : Char}
    (hseparable : Separable (front ++ first :: run) after) (hparts : ∀ c ∈ first :: run, Literal.isPart c)
    (hc : c ∈ after.head?) : Literal.isPart c = false := by
  have hlast : (first :: run).getLast (List.cons_ne_nil _ _) ∈ (first :: run).getLast? :=
    List.getLast?_eq_some_getLast _
  rw [Bool.eq_false_iff]
  exact fun hpart => hseparable.of_append _ hlast c hc ⟨hparts _ (List.mem_of_mem_getLast? hlast), hpart⟩

/-! ### Spelling -/

/-- Only a number is written with more than one character. -/
theorem Token.isPart_of_cut {token : Token} {left right : List Char} (hspelling : token.spelling = left ++ right)
    (hleft : left ≠ []) (hright : right ≠ []) : ∀ c ∈ token.spelling, Literal.isPart c := by
  have hlength := congrArg List.length hspelling
  rw [List.length_append] at hlength
  have hleft := List.length_pos_iff.2 hleft
  have hright := List.length_pos_iff.2 hright
  cases token with
  | number numeral => exact numeral.isPart_of_mem
  | operator joining => exact absurd hlength (by rw [spelling, List.length_singleton]; omega)
  | opening => exact absurd hlength (by rw [spelling, List.length_singleton]; omega)
  | closing => exact absurd hlength (by rw [spelling, List.length_singleton]; omega)

theorem Token.eq_nil_of_separable {token : Token} {left right front rest : List Char}
    (hspelling : token.spelling = left ++ right) (hseparable : Separable (front ++ left) (right ++ rest)) :
    left = [] ∨ right = [] := by
  by_contra hcut
  obtain ⟨hleft, hright⟩ := not_or.1 hcut
  have hparts := token.isPart_of_cut hspelling hleft hright
  obtain ⟨last, hlast⟩ := List.getLast?_isSome.2 hleft |> Option.isSome_iff_exists.1
  obtain ⟨first, more, rfl⟩ := List.exists_cons_of_ne_nil hright
  refine hseparable.of_append last hlast first rfl ⟨hparts last ?_, hparts first ?_⟩
  · rw [hspelling]
    exact List.mem_append_left _ (List.mem_of_mem_getLast? hlast)
  · rw [hspelling]
    exact List.mem_append_right _ List.mem_cons_self

/-- The same tokens are spelled with the blanks as without them. -/
theorem Spells.insert_blanks (htext : Spells tokens (before ++ after)) (hblanks : ∀ c ∈ blanks, Text.isBlank c)
    (hseparable : Separable before after) : Spells tokens (before ++ (blanks ++ after)) := by
  generalize hwhole : before ++ after = text at htext
  induction htext generalizing before with
  | nil hspaces =>
    subst hwhole
    obtain ⟨hbefore, hafter⟩ := List.forall_mem_append.1 hspaces
    exact .nil (List.forall_mem_append.2 ⟨hbefore, List.forall_mem_append.2 ⟨hblanks, hafter⟩⟩)
  | @cons spaces rest token tokens hspaces hrest ih =>
    rcases List.append_eq_append_iff.1 hwhole with ⟨more, rfl, rfl⟩ | ⟨more, rfl, hcut⟩
    -- the blanks stand in front of the token
    · obtain ⟨hbefore, hmore⟩ := List.forall_mem_append.1 hspaces
      have hfront : ∀ c ∈ before ++ (blanks ++ more), Text.isBlank c :=
        List.forall_mem_append.2 ⟨hbefore, List.forall_mem_append.2 ⟨hblanks, hmore⟩⟩
      simpa only [List.append_assoc] using Spells.cons hfront hrest
    · rcases List.append_eq_append_iff.1 hcut with ⟨behind, rfl, rfl⟩ | ⟨behind, hspelling, rfl⟩
      -- they stand somewhere behind it
      · simpa only [List.append_assoc] using Spells.cons hspaces (ih hseparable.of_append.of_append rfl)
      -- they do not cut it, so that they stand right in front of it or right behind it
      · rcases token.eq_nil_of_separable hspelling hseparable with rfl | rfl
        · have hfront : ∀ c ∈ spaces ++ blanks, Text.isBlank c := List.forall_mem_append.2 ⟨hspaces, hblanks⟩
          rw [List.nil_append] at hspelling
          rw [← hspelling]
          simpa only [List.append_nil, List.append_assoc] using Spells.cons hfront hrest
        · rw [List.append_nil] at hspelling
          rw [← hspelling]
          simpa only [List.nil_append, List.append_assoc] using Spells.cons hspaces (hrest.append_blanks hblanks)

/-! ### Reading -/

theorem feed_blanks (hblanks : ∀ c ∈ blanks, Text.isBlank c) {expects : Expectation}
    (hexpects : expects = .operand ∨ expects = .operator) (position : Nat) (enclosing : List Enclosure) :
    feed limit ⟨position, enclosing, expects⟩ blanks = .ok ⟨position + blanks.length, enclosing, expects⟩ := by
  induction blanks generalizing position with
  | nil => rfl
  | cons c blanks ih =>
    rw [List.forall_mem_cons] at hblanks
    have hstep : step limit ⟨position, enclosing, expects⟩ c = .ok ⟨position + 1, enclosing, expects⟩ := by
      rcases hexpects with rfl | rfl
      · exact step_operand_blank hblanks.1
      · exact step_operator_blank hblanks.1
    rw [feed_cons, hstep, ok_bind, ih hblanks.2, List.length_cons, Nat.add_right_comm, Nat.add_assoc]

/-- From a point inside of no number, what stands behind blanks is read as if it stood there, only further to the right. -/
theorem run_blanks (hblanks : ∀ c ∈ blanks, Text.isBlank c) {expects : Expectation}
    (hexpects : expects = .operand ∨ expects = .operator) {position : Nat} {enclosing : List Enclosure}
    (hopened : ∀ opened, .parenthesis opened ∈ enclosing → opened < position) :
    run limit ⟨position, enclosing, expects⟩ (blanks ++ after) =
      (run limit ⟨position, enclosing, expects⟩ after).mapError
        (Fault.relocate (shiftedFrom position blanks.length)) := by
  have hbehind : ∀ other, position ≤ other → shiftedFrom position blanks.length other = other + blanks.length :=
    fun other hother => if_neg (by omega)
  have henclosing : enclosing.map (Enclosure.relocate (shiftedFrom position blanks.length)) = enclosing :=
    map_relocate_eq_self fun opened hmem => if_pos (hopened opened hmem)
  have hmoved : (Scan.mk position enclosing expects).within (shiftedFrom position blanks.length) [] =
      ⟨position + blanks.length, enclosing, expects⟩ := by
    rw [within, henclosing, hbehind position (Nat.le_refl _), List.append_nil]
    rcases hexpects with rfl | rfl <;> rfl
  rw [run_append, feed_blanks hblanks hexpects, ok_bind, ← hmoved]
  apply run_relocate
  intro other hother
  rw [hbehind other hother, hbehind (other + 1) (Nat.le_succ_of_le hother), Nat.add_right_comm]

theorem run_insert_blanks (hblanks : ∀ c ∈ blanks, Text.isBlank c) (hseparable : Separable before after) :
    run limit start (before ++ (blanks ++ after)) =
      (run limit start (before ++ after)).mapError (Fault.relocate (shiftedFrom before.length blanks.length)) := by
  have hkeep : ∀ position, position < before.length → shiftedFrom before.length blanks.length position = position :=
    fun position hposition => if_pos hposition
  rw [run_append, run_append]
  cases hfeed : feed limit start before with
  | error fault => exact congrArg Except.error (relocate_of_feed hfeed hkeep).symm
  | ok point =>
    rw [ok_bind, ok_bind]
    have hposition : point.position = before.length := position_of_feed_start hfeed
    have hopened : ∀ opened, .parenthesis opened ∈ point.enclosing → opened < before.length :=
      fun opened hmem => opened_lt_length hfeed hmem
    obtain ⟨position, enclosing, expects⟩ := point
    subst hposition
    cases expects with
    | operand => exact run_blanks hblanks (.inl rfl) hopened
    | operator => exact run_blanks hblanks (.inr rfl) hopened
    | number opening first others =>
      -- the number ends in front of the blanks as it does without them
      obtain ⟨front, rfl, hparts, -⟩ := number_of_feed rfl hfeed rfl
      have hbehind : ∀ c ∈ after.head?, Literal.isPart c = false := fun c hc =>
        hseparable.not_isPart_of_parts hparts hc
      have hblank : ∀ c ∈ (blanks ++ after).head?, Literal.isPart c = false := by
        cases blanks with
        | nil => exact hbehind
        | cons blank blanks =>
          intro c hc
          obtain rfl := Option.some.inj hc
          exact Literal.isPart_of_isBlank (hblanks _ List.mem_cons_self)
      cases hread : Literal.ofRun? (first :: others) with
      | none =>
        rw [run_malformed hblank hread, run_malformed hbehind hread]
        exact congrArg (fun position => Except.error (Fault.malformedNumber position first others))
          (hkeep opening (number_lt_length hfeed rfl)).symm
      | some literal =>
        have hsome := Option.isSome_of_eq_some hread
        rw [run_complete hblank hsome, run_complete hbehind hsome]
        exact run_blanks hblanks (.inr rfl) fun opened hmem =>
          hopened opened ((behindOperand_suffix enclosing).subset hmem)

/-! ### Evaluating -/

theorem withoutNext_relocate (place : Nat → Nat) (fault : Fault) :
    (fault.relocate place).withoutNext = fault.withoutNext.relocate place := by
  cases fault <;> rfl

/-- A fault is found at its new place, and behind an opening that leads too deep stands what stands there now. -/
theorem evaluate_insert (hblanks : ∀ c ∈ blanks, Text.isBlank c) (hseparable : Separable before after) :
    evaluate (.ofList (before ++ (blanks ++ after))) = (evaluate (.ofList (before ++ after))).mapError fun fault =>
      (fault.relocate (shiftedFrom before.length blanks.length)).lookedUp (before ++ (blanks ++ after)) := by
  cases hevaluate : evaluate (.ofList (before ++ after)) with
  | error fault =>
    obtain ⟨hrun, -⟩ := evaluate_eq_error_iff.1 hevaluate
    rw [String.toList_ofList] at hrun
    apply evaluate_eq_error_iff.2
    rw [String.toList_ofList, run_insert_blanks hblanks hseparable, hrun, Fault.withoutNext_lookedUp, withoutNext_relocate]
    exact ⟨rfl, Fault.lookedUp_lookedUp _ _⟩
  | ok value =>
    have hrun := exists_evaluate_iff.1 ⟨value, hevaluate⟩
    obtain ⟨tree, ⟨tokens, hspells, hderives⟩, rfl⟩ := exists_derivedFrom_of_evaluate hevaluate
    rw [String.toList_ofList] at hrun hspells
    apply evaluate_of_derivedFrom
    · rw [String.toList_ofList, run_insert_blanks hblanks hseparable, hrun]
      rfl
    · rw [String.toList_ofList]
      exact ⟨tokens, hspells.insert_blanks hblanks hseparable, hderives⟩

/-- Behind a character stands the same as before, or the first blank if the blanks are put in right behind it. -/
theorem getElem?_shiftedFrom_succ (before blanks after : List Char) (position : Nat) :
    (before ++ (blanks ++ after))[shiftedFrom before.length blanks.length position + 1]? =
      if position + 1 = before.length ∧ blanks ≠ [] then blanks.head? else (before ++ after)[position + 1]? := by
  unfold shiftedFrom
  split
  · rename_i hfront
    by_cases hlast : position + 1 = before.length
    · rw [hlast, List.getElem?_append_right (Nat.le_refl _), List.getElem?_append_right (Nat.le_refl _), Nat.sub_self]
      cases blanks with
      | nil =>
        rw [if_neg fun h => h.2 rfl]
        rfl
      | cons blank blanks =>
        rw [if_pos ⟨rfl, nofun⟩]
        rfl
    · rw [List.getElem?_append_left (by omega), List.getElem?_append_left (by omega), if_neg fun h => hlast h.1]
  · rename_i hbehind
    rw [List.getElem?_append_right (by omega), List.getElem?_append_right (by omega), List.getElem?_append_right (by omega),
      if_neg fun h => by omega]
    congr 1
    omega

/-- Blanks that cut no run of literal characters change nothing about the value of a text. Of a fault they change nothing
but its position, if it is found behind them. Nesting that is too deep is found at the same opening, and the character that is
reported with it is the one behind that opening, which is a blank if the blanks are put in there. -/
theorem evaluate_insert_blanks (before blanks after : List Char) (hblanks : ∀ c ∈ blanks, Text.isBlank c)
    (hseparable : Separable before after) :
    (∀ value, evaluate (.ofList (before ++ blanks ++ after)) = .ok value ↔
      evaluate (.ofList (before ++ after)) = .ok value) ∧
    ∀ fault, evaluate (.ofList (before ++ after)) = .error fault →
      ∃ moved, evaluate (.ofList (before ++ blanks ++ after)) = .error moved ∧ moved.kind = fault.kind ∧
        ((∀ opened found, fault ≠ .tooDeep opened found) → moved.char? = fault.char? ∧
          moved.position = if fault.position < before.length then fault.position else fault.position + blanks.length) ∧
        ∀ opened found, fault = .tooDeep opened found →
          moved = .tooDeep (if opened < before.length then opened else opened + blanks.length) moved.char? ∧
            moved.char? = if fault.position = before.length ∧ blanks ≠ [] then blanks.head? else fault.char? := by
  rw [List.append_assoc, evaluate_insert hblanks hseparable]
  refine ⟨fun value => mapError_eq_ok_iff, fun fault hfault => ?_⟩
  obtain ⟨-, hlook⟩ := evaluate_eq_error_iff.1 hfault
  rw [hfault]
  cases fault with
  | tooDeep opened found =>
    rw [String.toList_ofList, Fault.lookedUp] at hlook
    refine ⟨_, rfl, rfl, fun hdeep => absurd rfl (hdeep opened found), ?_⟩
    rintro _ _ ⟨⟩
    refine ⟨rfl, (getElem?_shiftedFrom_succ before blanks after opened).trans ?_⟩
    rw [(Fault.tooDeep.inj hlook).2]
    rfl
  | _ =>
    refine ⟨_, rfl, rfl, fun _ => ⟨rfl, rfl⟩, ?_⟩
    rintro _ _ ⟨⟩

theorem evaluate_insert_blanks_operator : (∀ c ∈ "\t\u3000".toList, Text.isBlank c) ∧
    Separable "(1.5*".toList "/2".toList ∧ evaluate "(1.5*/2" = .error (.missingOperand 5 (some '/')) ∧
    ∃ moved, evaluate "(1.5*\t\u3000/2" = .error moved ∧ moved.kind = .emptyOperand ∧ moved.char? = some '/' ∧
      moved.position = 7 := by
  have hblanks : ∀ c ∈ "\t\u3000".toList, Text.isBlank c := List.all_eq_true.1 (by decide)
  have hseparable : Separable "(1.5*".toList "/2".toList := by
    intro left hleft right hright
    obtain rfl := Option.some.inj hleft
    obtain rfl := Option.some.inj hright
    decide
  have hfault : evaluate "(1.5*/2" = .error (.missingOperand 5 (some '/')) := evaluate_eq_error_iff.2 ⟨rfl, rfl⟩
  obtain ⟨-, hmoved⟩ := evaluate_insert_blanks _ _ _ hblanks hseparable
  obtain ⟨moved, hevaluate, hkind, hothers, -⟩ := hmoved _ hfault
  obtain ⟨hchar, hposition⟩ := hothers (by simp)
  exact ⟨hblanks, hseparable, hfault, moved, hevaluate, hkind, hchar, hposition⟩

/-- A blank right behind the opening that leads too deep is the character that is reported. -/
theorem evaluate_insert_blank_behind_deepest : (∀ c ∈ [' '], Text.isBlank c) ∧
    Separable (List.replicate 334 '(') (List.replicate 66 '(') ∧
    evaluate (.ofList (List.replicate 334 '(' ++ List.replicate 66 '(')) = .error (.tooDeep 333 (some '(')) ∧
    evaluate (.ofList (List.replicate 334 '(' ++ [' '] ++ List.replicate 66 '(')) = .error (.tooDeep 333 (some ' ')) := by
  refine ⟨List.forall_mem_singleton.2 rfl, ?_, ?_, ?_⟩
  · intro left hleft right hright
    obtain rfl := List.eq_of_mem_replicate (List.mem_of_getLast? hleft)
    exact fun hparts => absurd hparts.1 (by decide)
  · exact evaluate_openings (by decide) _
  · rw [List.append_assoc]
    exact evaluate_openings (by decide) _

end Reckoner
