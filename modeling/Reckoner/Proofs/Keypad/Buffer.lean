import Mathlib.Data.List.Chain
import Mathlib.Data.List.DropRight
import Reckoner.Proofs.Keypad.Steps

/-!
# The expression of a session

A session replaces a character that joins operands when another one is typed behind it. So its expression is what has been
typed since the last evaluation, with every run of such characters cut down to the last of them, whatever else has been
done in between.
-/

namespace Reckoner

/-- The labels of the keys of which a further one replaces the one before. -/
def joints : List Char := ['+', '-', '*', '/', '.']

/-- A text with only the last character of every run of joints. -/
def collapsed : List Char → List Char
  | [] => []
  | [c] => [c]
  | c :: next :: rest => if c ∈ joints ∧ next ∈ joints then collapsed (next :: rest) else c :: collapsed (next :: rest)

/-- No two joints stand next to each other. -/
def Apart (cs : List Char) : Prop := cs.IsChain fun left right => ¬ (left ∈ joints ∧ right ∈ joints)

namespace Step

/-- The characters that a step types. -/
def typed : Step → List Char
  | press label => label.toList
  | _ => []

end Step

namespace Session

/-- The steps of a run that could be done. -/
def done (session : Session) : List Step → List Step
  | [] => []
  | step :: steps => (if (session.step step).isOk then [step] else []) ++ (session.after step).done steps

/-- What has been typed in a run since the last evaluation. -/
def typed (session : Session) (steps : List Step) : List Char :=
  ((session.done steps).rtakeWhile fun step => !step.evaluates).flatMap Step.typed

end Session

/-! ### Collapsing -/

section Collapsing

variable {c : Char} {cs : List Char}

theorem collapsed_ne_nil (c : Char) (cs : List Char) : collapsed (c :: cs) ≠ [] := by
  induction cs generalizing c with
  | nil => exact List.cons_ne_nil _ _
  | cons next rest ih =>
    rw [collapsed]
    split
    · exact ih next
    · exact List.cons_ne_nil _ _

theorem getLast?_collapsed (cs : List Char) : (collapsed cs).getLast? = cs.getLast? := by
  fun_induction collapsed cs with
  | case1 => rfl
  | case2 => rfl
  | case3 c next rest hjoints ih => rw [ih, List.getLast?_cons_cons]
  | case4 c next rest hjoints ih =>
    obtain ⟨first, more, hcons⟩ := List.exists_cons_of_ne_nil (collapsed_ne_nil next rest)
    rw [hcons, List.getLast?_cons_cons, ← hcons, ih, List.getLast?_cons_cons]

/-- A further character replaces the last one if both are joints. -/
theorem collapsed_concat (cs : List Char) (c : Char) :
    collapsed (cs ++ [c]) =
      if c ∈ joints ∧ cs.getLast?.any (· ∈ joints) then (collapsed cs).dropLast ++ [c]
      else collapsed cs ++ [c] := by
  fun_induction collapsed cs with
  | case1 => simp [collapsed]
  | case2 first => simp [collapsed, and_comm]
  | case3 first next rest hjoints ih =>
    rw [List.cons_append, List.cons_append, collapsed, if_pos hjoints, ← List.cons_append, ih, List.getLast?_cons_cons]
  | case4 first next rest hjoints ih =>
    rw [List.cons_append, List.cons_append, collapsed, if_neg hjoints, ← List.cons_append, ih, List.getLast?_cons_cons,
      List.dropLast_cons_of_ne_nil (collapsed_ne_nil next rest)]
    split <;> rfl

theorem mem_of_mem_collapsed (hmem : c ∈ collapsed cs) : c ∈ cs := by
  fun_induction collapsed cs with
  | case1 => exact hmem
  | case2 => exact hmem
  | case3 first next rest hjoints ih => exact List.mem_cons_of_mem _ (ih hmem)
  | case4 first next rest hjoints ih =>
    rcases List.mem_cons.1 hmem with rfl | hmem
    · exact List.mem_cons_self
    · exact List.mem_cons_of_mem _ (ih hmem)

/-- A text and what it collapses to both begin with a joint, or neither does. -/
theorem head_mem_joints_of_collapsed (hhead : c ∈ (collapsed cs).head?) (hc : c ∈ joints) :
    ∃ first ∈ cs.head?, first ∈ joints := by
  fun_induction collapsed cs with
  | case1 => exact absurd hhead (by simp)
  | case2 => exact ⟨c, hhead, hc⟩
  | case3 first next rest hjoints ih => exact ⟨first, rfl, hjoints.1⟩
  | case4 first next rest hjoints ih => exact ⟨c, hhead, hc⟩

theorem apart_collapsed (cs : List Char) : Apart (collapsed cs) := by
  fun_induction collapsed cs with
  | case1 => exact .nil
  | case2 => exact .singleton _
  | case3 first next rest hjoints ih => exact ih
  | case4 first next rest hjoints ih =>
    refine List.isChain_cons.2 ⟨?_, ih⟩
    rintro c hc ⟨hfirst, hjoint⟩
    obtain ⟨other, hother, hnext⟩ := head_mem_joints_of_collapsed hc hjoint
    obtain rfl := Option.some.inj hother
    exact hjoints ⟨hfirst, hnext⟩

end Collapsing

/-! ### Typing -/

namespace Key

theorem isJoint_iff (key : Key) : key.isJoint ↔ key.label ∈ joints := by
  rcases key with value | _ | symbol | _
  · exact (by decide : ∀ value, (digit value).isJoint ↔ (digit value).label ∈ joints) value
  · decide
  · cases symbol <;> decide
  · decide

theorem isJointLabel_iff {c : Char} : isJointLabel c ↔ c ∈ joints := by
  constructor
  · intro hc
    unfold isJointLabel at hc
    cases hkey : ofChar? c with
    | none => exact absurd hc (by simp [hkey])
    | some key =>
      rw [hkey, Option.any_some] at hc
      rw [← label_of_ofChar? hkey]
      exact key.isJoint_iff.1 hc
  · have hjoints : ∀ c ∈ joints, isJointLabel c := List.all_eq_true.1 (by decide)
    exact hjoints c

theorem label_isDigit_or_mem_joints {key : Key} (hequals : key ≠ equals) : key.label.isDigit ∨ key.label ∈ joints := by
  rcases key with value | _ | symbol | _
  · exact .inl ((by decide : ∀ value, (digit value).label.isDigit) value)
  · exact .inr (by decide)
  · exact .inr (by cases symbol <;> decide)
  · exact absurd rfl hequals

end Key

namespace Session

/-- Typing a key behind a collapsed text collapses what has been typed with the key behind it. -/
theorem extend_collapsed (cs : List Char) (key : Key) : extend (collapsed cs) key = collapsed (cs ++ [key.label]) := by
  have hjoints : (key.isJoint && cs.getLast?.any Key.isJointLabel) = true ↔
      key.label ∈ joints ∧ cs.getLast?.any (· ∈ joints) := by
    rw [Bool.and_eq_true, Key.isJoint_iff]
    cases cs.getLast? with
    | none => simp
    | some last => simp [Key.isJointLabel_iff]
  simp only [extend, collapsed_concat, getLast?_collapsed, hjoints]

/-! ### Runs -/

section Runs

variable {session next : Session} {steps : List Step} {step : Step}

theorem done_append (session : Session) (steps more : List Step) :
    session.done (steps ++ more) = session.done steps ++ (session.run steps).done more := by
  induction steps generalizing session with
  | nil => rfl
  | cons step steps ih =>
    rw [List.cons_append, done, done, ih, List.append_assoc]
    rfl

theorem typed_concat_of_ok (hstep : (session.run steps).step step = .ok next) :
    session.typed (steps ++ [step]) = if step.evaluates then [] else session.typed steps ++ step.typed := by
  have hdone : session.done (steps ++ [step]) = session.done steps ++ [step] := by
    rw [done_append, done, done, hstep]
    rfl
  rw [typed, hdone, List.rtakeWhile_concat]
  cases step.evaluates with
  | true => rfl
  | false => exact List.flatMap_append.trans (congrArg _ (List.flatMap_singleton _ _))

theorem typed_concat_of_error {fault : StepFault} (hstep : (session.run steps).step step = .error fault) :
    session.typed (steps ++ [step]) = session.typed steps := by
  have hdone : session.done (steps ++ [step]) = session.done steps := by
    rw [done_append, done, done, hstep]
    exact List.append_nil _
  rw [typed, hdone, typed]

end Runs

/-- What a session has to do with what has been typed since the last evaluation. -/
structure Follows (session : Session) (typed : List Char) : Prop where
  expression_eq : session.expression.toList = collapsed typed
  isDigit_or_mem_joints : ∀ c ∈ typed, c.isDigit ∨ c ∈ joints
  display_eq : session.expression = "" ∨ session.display = session.expression

theorem Change.follows {session next : Session} {step : Step} {typed : List Char} (hchange : Change session step next)
    (hassign : ∀ text, step ≠ .assign text) (hfollows : session.Follows typed) :
    next.Follows (if step.evaluates then [] else typed ++ step.typed) := by
  cases hchange with
  | @typed label key hkey hequals =>
    have hlabel : ¬ label = "=" := fun hlabel => hequals ((Key.eq_equals_iff hkey).1 hlabel)
    rw [if_neg (by simpa [Step.evaluates] using hlabel), Step.typed, Key.toList_of_ofLabel? hkey]
    refine ⟨?_, ?_, .inr rfl⟩
    · rw [← extend_collapsed, ← hfollows.expression_eq]
      exact String.toList_ofList
    · rw [List.forall_mem_append, List.forall_mem_singleton]
      exact ⟨hfollows.isDigit_or_mem_joints, Key.label_isDigit_or_mem_joints hequals⟩
  | concluded hevaluates display =>
    rw [if_pos hevaluates]
    exact ⟨rfl, by simp, .inl rfl⟩
  | toggled =>
    show Follows _ (typed ++ [])
    rw [List.append_nil]
    exact ⟨hfollows.expression_eq, hfollows.isDigit_or_mem_joints, hfollows.display_eq⟩
  | assigned expression => exact absurd rfl (hassign expression)

theorem follows_typed (theme : Theme) (places : Int) {steps : List Step} (hassign : ∀ text, .assign text ∉ steps) :
    ((new theme places).run steps).Follows ((new theme places).typed steps) := by
  refine run_induction (fun steps session => (∀ text, .assign text ∉ steps) →
    session.Follows ((new theme places).typed steps)) ?_ ?_ ?_ steps hassign
  · exact fun _ => ⟨rfl, by simp [Session.typed, done], .inl rfl⟩
  · intro steps step next hstep hchange ih hassign
    rw [typed_concat_of_ok hstep]
    refine hchange.follows ?_ (ih fun text hmem => hassign text (List.mem_append_left _ hmem))
    rintro text rfl
    exact hassign text (List.mem_append_right _ List.mem_cons_self)
  · intro steps step fault hstep ih hassign
    rw [typed_concat_of_error hstep]
    exact ih fun text hmem => hassign text (List.mem_append_left _ hmem)

/-- Whatever is done with the keypad, the ENTER key and the theme switch, the expression is what has been typed since the
last evaluation with every run of joints cut down to its last. It is displayed, unless it is empty. -/
theorem expression_of_run (theme : Theme) (places : Int) (steps : List Step) (hassign : ∀ text, .assign text ∉ steps) :
    let session := (new theme places).run steps
    session.expression.toList = collapsed ((new theme places).typed steps) ∧
    (∀ c ∈ session.expression.toList, c.isDigit ∨ c ∈ joints) ∧ Apart session.expression.toList ∧
    (session.expression = "" ∨ session.display = session.expression) := by
  have hfollows := follows_typed theme places hassign
  refine ⟨hfollows.expression_eq, ?_, ?_, hfollows.display_eq⟩
  · rw [hfollows.expression_eq]
    exact fun c hc => hfollows.isDigit_or_mem_joints c (mem_of_mem_collapsed hc)
  · rw [hfollows.expression_eq]
    exact apart_collapsed _

theorem expression_of_run_replacing :
    let steps : List Step := [.enter, .press "1", .press "+", .press "x", .toggle, .press "-", .press "2"]
    (∀ text, .assign text ∉ steps) ∧ (new .dark 3).typed steps = "1+-2".toList ∧
    ((new .dark 3).run steps).expression.toList = "1-2".toList ∧
    ((new .dark 3).run steps).display = ((new .dark 3).run steps).expression := by
  intro steps
  have hassign : ∀ text, .assign text ∉ steps := by simp [steps]
  have htyped : (new .dark 3).typed steps = "1+-2".toList := by decide
  obtain ⟨hexpression, -, -, hdisplay⟩ := expression_of_run .dark 3 steps hassign
  refine ⟨hassign, htyped, ?_, hdisplay.resolve_left ?_⟩
  · rw [hexpression, htyped]
    decide
  · intro hempty
    rw [hempty, htyped] at hexpression
    exact absurd hexpression (by decide)

end Session

end Reckoner
