import Reckoner.Proofs.Evaluation.Basic

/-!
# The nesting limit

Within the limit, the limit is not noticed. Only what encloses a point counts towards it, so that a text of any length may
be joined of texts in parentheses.
-/

namespace Reckoner

open Scan

theorem Scan.nesting_le_peak_of_feed {scan next : Scan} {read : List Char} (hfeed : feed none scan read = .ok next) :
    nesting next.enclosing ≤ scan.peak read := by
  have happend := peak_append hfeed []
  rw [List.append_nil, peak] at happend
  omega

def parenthesized (text : String) : List Char := '(' :: (text.toList ++ [')'])

/-- Texts in parentheses with a binary operator between every two of them. -/
def joined (first : String) (others : List (Operator × String)) : String :=
  .ofList (parenthesized first ++ others.flatMap fun other => other.1.symbol :: parenthesized other.2)

section Joining

variable {text first : String} {others : List (Operator × String)}

theorem Scan.step_closing_within {inner : Scan} (hfinish : finish inner = .ok ()) (hsettled : inner.Settled)
    (place : Nat → Nat) (opened : Nat) :
    step none (inner.within place [.parenthesis opened]) ')' = .ok ⟨place inner.position + 1, [], .operator⟩ := by
  obtain ⟨hoperand, henclosing⟩ := (finish_eq_ok_iff hsettled).1 hfinish
  rw [step_of_hasOperand (hasOperand_within.2 hoperand) (settled_within hsettled rfl) (by decide)]
  show step none ⟨place inner.position, behindOperand (inner.enclosing.map _ ++ _), .operator⟩ ')' = _
  rw [behindOperand_within rfl, henclosing]
  exact step_operator_closing

theorem feed_parenthesized (htext : run none start text.toList = .ok ()) (position : Nat) :
    ∃ behind, feed none ⟨position, [], .operand⟩ (parenthesized text) = .ok ⟨behind, [], .operator⟩ ∧
      Scan.peak ⟨position, [], .operand⟩ (parenthesized text) = nestingPeak text + 3 := by
  obtain ⟨inner, hinner, hfinish⟩ := bind_eq_ok_iff.1 htext
  have hopening : Move '(' ⟨position, [], .operand⟩ (start.within (· + (position + 1)) [.parenthesis position]) := by
    have hparenthesis : Opening.ofChar? '(' = some .parenthesis := rfl
    rw [within_start]
    exact .opening hparenthesis
  have hplace : ∀ other, other + 1 + (position + 1) = other + (position + 1) + 1 := fun other => by omega
  have hwithin := feed_within (· + (position + 1)) [.parenthesis position] hinner rfl hplace
  have hclosing := step_closing_within hfinish (settled_of_feed_start hinner) (· + (position + 1)) position
  refine ⟨inner.position + (position + 1) + 1, ?_, ?_⟩
  · rw [parenthesized, feed_cons, hopening.step, ok_bind, feed_snoc, hwithin, ok_bind, hclosing]
  · have hinside : (start.within (· + (position + 1)) [.parenthesis position]).peak text.toList = nestingPeak text + 3 :=
      peak_within _ _ hinner rfl hplace
    have hbefore := nesting_le_peak_of_feed hwithin
    rw [parenthesized, peak_cons hopening, peak_append hwithin, hinside, peak_cons (move_of_step hclosing)]
    rw [hinside] at hbefore
    simp only [peak, nesting]
    omega

theorem operator_moves (operator : Operator) (position : Nat) :
    Move operator.symbol ⟨position, [], .operator⟩ ⟨position + 1, [], .operand⟩ := by
  apply Move.operator
  cases operator <;> decide

theorem feed_others (hothers : ∀ other ∈ others, run none start other.2.toList = .ok ()) (position : Nat) :
    ∃ behind,
      feed none ⟨position, [], .operator⟩ (others.flatMap fun other => other.1.symbol :: parenthesized other.2) =
        .ok ⟨behind, [], .operator⟩ ∧
      Scan.peak ⟨position, [], .operator⟩ (others.flatMap fun other => other.1.symbol :: parenthesized other.2) =
        (others.map fun other => nestingPeak other.2 + 3).foldr max 0 := by
  induction others generalizing position with
  | nil => exact ⟨position, rfl, rfl⟩
  | cons other others ih =>
    have hmove := operator_moves other.1 position
    obtain ⟨middle, hother, hpeak⟩ := feed_parenthesized (hothers other List.mem_cons_self) (position + 1)
    obtain ⟨behind, hothers, hpeaks⟩ := ih (fun other hmem => hothers other (List.mem_cons_of_mem _ hmem)) middle
    refine ⟨behind, ?_, ?_⟩
    · rw [List.flatMap_cons, List.cons_append, feed_cons, hmove.step, ok_bind, feed_append, hother, ok_bind, hothers]
    · rw [List.flatMap_cons, List.cons_append, peak_cons hmove, peak_append hother, hpeak, hpeaks, List.map_cons,
        List.foldr_cons]
      exact Nat.max_eq_right (Nat.zero_le _)

theorem foldr_max_add (first : Nat) (others : List Nat) (added : Nat) :
    max (first + added) ((others.map (· + added)).foldr max 0) = (first :: others).foldr max 0 + added := by
  induction others with
  | nil => simp
  | cons other others ih =>
    simp only [List.map_cons, List.foldr_cons] at ih ⊢
    omega

theorem foldr_max_le_iff {peaks : List Nat} {bound : Nat} : peaks.foldr max 0 ≤ bound ↔ ∀ peak ∈ peaks, peak ≤ bound := by
  induction peaks with
  | nil => simp
  | cons peak peaks ih => rw [List.foldr_cons, List.forall_mem_cons, ← ih, Nat.max_le]

theorem run_joined (hfirst : run none start first.toList = .ok ())
    (hothers : ∀ other ∈ others, run none start other.2.toList = .ok ()) :
    run none start (joined first others).toList = .ok () ∧
      nestingPeak (joined first others) = ((first :: others.map Prod.snd).map nestingPeak).foldr max 0 + 3 := by
  obtain ⟨middle, hbefore, hpeak⟩ := feed_parenthesized hfirst 0
  obtain ⟨behind, hbehind, hpeaks⟩ := feed_others hothers middle
  change feed none start _ = _ at hbefore
  change start.peak _ = _ at hpeak
  constructor
  · rw [joined, String.toList_ofList, run_append, hbefore, ok_bind, run, hbehind]
    rfl
  · rw [nestingPeak, joined, String.toList_ofList, peak_append hbefore, hpeak, hpeaks, List.map_cons, ← foldr_max_add,
      List.map_map, List.map_map]
    rfl

theorem evaluate_joined_iff (hfirst : run none start first.toList = .ok ())
    (hothers : ∀ other ∈ others, run none start other.2.toList = .ok ()) :
    (∃ value, evaluate (joined first others) = .ok value) ↔
      ∀ text ∈ first :: others.map Prod.snd, nestingPeak text + 3 ≤ nestingLimit := by
  obtain ⟨hrun, hpeak⟩ := run_joined hfirst hothers
  have hshallow : nestingPeak (joined first others) ≤ nestingLimit ↔
      ∀ text ∈ first :: others.map Prod.snd, nestingPeak text + 3 ≤ nestingLimit := by
    rw [hpeak, ← Nat.le_sub_iff_add_le (by decide), foldr_max_le_iff, List.forall_mem_map]
    exact forall₂_congr fun text _ => Nat.le_sub_iff_add_le (by decide)
  rw [← hshallow]
  by_cases hle : nestingPeak (joined first others) ≤ nestingLimit
  · rw [evaluate_eq hle]
    exact iff_of_true (exists_evaluateUnlimited_iff.2 hrun) hle
  · obtain ⟨_, -, hdeep⟩ := exists_evaluate_tooDeep (Nat.lt_of_not_le hle)
    rw [hdeep]
    exact iff_of_false nofun hle

end Joining

/-- The limit is noticed exactly by the texts that nest more deeply, whatever else is wrong with them further right: they fail
right behind the opening with which the nesting first exceeds the limit. Texts that are joined in parentheses nest as deeply as the
deepest of them does in its own. -/
theorem nesting_limit_transparent :
    (∀ text, nestingPeak text ≤ nestingLimit → evaluate text = evaluateUnlimited text) ∧
    (∀ text, nestingLimit < nestingPeak text → ∃ fault, evaluate text = .error fault ∧
      fault.kind = .unexpectedCharacter ∧
      fault.message = "Expression nested too deeply at position " ++ toString fault.position ∧
      ∃ opened, fault.position = opened + 1 ∧ ExceedsAt nestingLimit text opened) ∧
    ∀ (first : String) (others : List (Operator × String)),
      (∀ text ∈ first :: others.map Prod.snd, ∃ value, evaluateUnlimited text = .ok value) →
        (∃ value, evaluateUnlimited (joined first others) = .ok value) ∧
        nestingPeak (joined first others) = ((first :: others.map Prod.snd).map nestingPeak).foldr max 0 + 3 ∧
        ((∃ value, evaluate (joined first others) = .ok value) ↔
          ∀ text ∈ first :: others.map Prod.snd, nestingPeak text + 3 ≤ nestingLimit) := by
  refine ⟨?_, ?_, ?_⟩
  · intro text hpeak
    exact evaluate_eq hpeak
  · intro text hpeak
    obtain ⟨opened, hexceeds, hdeep⟩ := exists_evaluate_tooDeep hpeak
    exact ⟨_, hdeep, rfl, rfl, opened, rfl, hexceeds⟩
  · intro first others hpieces
    have hfirst := exists_evaluateUnlimited_iff.1 (hpieces first List.mem_cons_self)
    have hothers : ∀ other ∈ others, run none start other.2.toList = .ok () := fun other hmem =>
      exists_evaluateUnlimited_iff.1 (hpieces other.2 (List.mem_cons_of_mem _ (List.mem_map_of_mem hmem)))
    obtain ⟨hrun, hpeak⟩ := run_joined hfirst hothers
    exact ⟨exists_evaluateUnlimited_iff.2 hrun, hpeak, evaluate_joined_iff hfirst hothers⟩

theorem nesting_limit_transparent_parentheses :
    evaluate "-(1+" = evaluateUnlimited "-(1+" ∧
    (∃ fault, evaluate (.ofList (List.replicate 400 '(')) = .error fault ∧ fault.kind = .unexpectedCharacter ∧
      fault.message = "Expression nested too deeply at position 334") ∧
    nestingPeak (joined "-1" [(.mul, "(2)"), (.sub, "3")]) = 6 := by
  obtain ⟨hshallow, hdeep, hjoined⟩ := nesting_limit_transparent
  refine ⟨hshallow _ (by decide), ?_, (hjoined "-1" [(.mul, "(2)"), (.sub, "3")] ?_).2.1⟩
  · have hpeak : nestingLimit < nestingPeak (.ofList (List.replicate 400 '(')) := by
      rw [nestingPeak, String.toList_ofList]
      decide +kernel
    have hbound : evaluate (.ofList (List.replicate 400 '(')) = .error (.tooDeep 333 (some '(')) := by
      have hopenings := evaluate_openings (by decide : nestingLimit < 3 * 400) []
      rwa [List.append_nil] at hopenings
    obtain ⟨fault, hfault, hkind, hmessage, -⟩ := hdeep _ hpeak
    obtain rfl := Except.error.inj (hbound.symm.trans hfault)
    exact ⟨_, hfault, hkind, hmessage⟩
  · intro text htext
    rw [exists_evaluateUnlimited_iff]
    simp only [List.map_cons, List.map_nil, List.mem_cons, List.not_mem_nil, or_false] at htext
    rcases htext with rfl | rfl | rfl <;> rfl

end Reckoner
