import Reckoner.Proofs.Binary64.Fixed
import Reckoner.Proofs.Evaluation.Kinds
import Reckoner.Proofs.Keypad.Buffer

/-!
# What can be wrong with what has been typed

Keys type digits and joints, and no two joints next to each other. Of such a text the automaton knows more than of others:
it is inside of one sign at most, and expects an operand exactly where none of the characters of literals precedes. That
leaves three faults: an operand is missing in front or at the end, or a number has several points.
-/

namespace Reckoner

open Scan

/-- The joints that are not the point. -/
def operators : List Char := ['+', '-', '*', '/']

/-- A text of digits and joints in which no two joints stand next to each other. -/
structure Typable (text : List Char) : Prop where
  isDigit_or_mem_joints : ∀ c ∈ text, c.isDigit ∨ c ∈ joints
  apart : Apart text

/-- The text begins with an operator that is no sign. -/
def LacksFirst (text : List Char) : Prop := ∃ c ∈ text.head?, c = '*' ∨ c = '/'

def LacksLast (text : List Char) : Prop := ∃ c ∈ text.getLast?, c ∈ operators

/-- A run of digits and points that starts at a position has several points. -/
def CrowdedAt (text : List Char) (position : Nat) : Prop :=
  (∀ c ∈ (text.take position).getLast?, Literal.isPart c = false) ∧
    2 ≤ ((text.drop position).takeWhile Literal.isPart).count '.'

instance (text : List Char) : Decidable (LacksFirst text) := text.head?.decidableExistsMem

instance (text : List Char) : Decidable (LacksLast text) := text.getLast?.decidableExistsMem

instance (text : List Char) (position : Nat) : Decidable (CrowdedAt text position) :=
  @instDecidableAnd _ _ (text.take position).getLast?.decidableForallMem (Nat.decLe _ _)

/-- The fault of a text that has been typed. Of several it is the one in front, or else that of the first number with
several points, or else the one at the end. -/
structure Fault.Foremost (fault : Fault) (text : List Char) : Prop where
  first : LacksFirst text → fault.kind = .emptyOperand ∧ fault.position = 0
  point : text = ['.'] → fault.kind = .malformedNumber ∧ fault.position = 0
  crowded : ¬ LacksFirst text → ∀ position, CrowdedAt text position → (∀ before < position, ¬ CrowdedAt text before) →
    fault.kind = .malformedNumber ∧ fault.position = position
  last : ¬ LacksFirst text → text ≠ ['.'] → (∀ position, ¬ CrowdedAt text position) →
    fault.kind = .emptyOperand ∧ fault.position = text.length ∧ fault.char? = none

/-! ### Texts of digits and joints -/

section Characters

variable {c : Char} {text before after : List Char}

theorem mem_joints_iff : c ∈ joints ↔ c ∈ operators ∨ c = '.' := by
  simp [joints, operators, or_assoc]

theorem mem_operators_iff : c ∈ operators ↔ c = '+' ∨ c = '-' ∨ c = '*' ∨ c = '/' := by
  simp [operators]

theorem not_isPart_of_mem_operators (hc : c ∈ operators) : Literal.isPart c = false := by
  rcases mem_operators_iff.1 hc with rfl | rfl | rfl | rfl <;> decide

theorem not_isBlank_of_mem_operators (hc : c ∈ operators) : Text.isBlank c = false := by
  rcases mem_operators_iff.1 hc with rfl | rfl | rfl | rfl <;> decide

/-- A typed character is an operator or part of a literal. -/
theorem mem_operators_or_isPart (hc : c.isDigit ∨ c ∈ joints) : c ∈ operators ∨ Literal.isPart c := by
  rcases hc with hdigit | hjoint
  · exact .inr (Literal.isPart_of_isDigit hdigit)
  · exact (mem_joints_iff.1 hjoint).imp_right fun hpoint => Literal.isPart_iff.2 (.inr hpoint)

theorem mem_operators_of_not_isPart (hc : c.isDigit ∨ c ∈ joints) (hpart : Literal.isPart c = false) : c ∈ operators :=
  (mem_operators_or_isPart hc).resolve_right (by simp [hpart])

theorem not_isBlank_of_typable (hc : c.isDigit ∨ c ∈ joints) : Text.isBlank c = false :=
  (mem_operators_or_isPart hc).elim not_isBlank_of_mem_operators Literal.isBlank_of_isPart

namespace Typable

theorem of_append (htext : Typable (before ++ after)) : Typable before ∧ Typable after := by
  obtain ⟨hbefore, hafter, -⟩ := List.isChain_append.1 htext.apart
  obtain ⟨hleft, hright⟩ := List.forall_mem_append.1 htext.isDigit_or_mem_joints
  exact ⟨⟨hleft, hbefore⟩, ⟨hright, hafter⟩⟩

theorem take (htext : Typable text) (position : Nat) : Typable (text.take position) := by
  rw [← List.take_append_drop position text] at htext
  exact htext.of_append.1

/-- In front of a joint nothing stands, or a digit. -/
theorem isDigit_before (htext : Typable (before ++ c :: after)) (hc : c ∈ joints) :
    ∀ d ∈ before.getLast?, d.isDigit := by
  intro d hd
  obtain ⟨-, -, happend⟩ := List.isChain_append.1 htext.apart
  refine (htext.isDigit_or_mem_joints d (List.mem_append_left _ (List.mem_of_getLast? hd))).resolve_right ?_
  exact fun hjoint => happend d hd c rfl ⟨hjoint, hc⟩

theorem isDigit_behind (htext : Typable (c :: after)) (hc : c ∈ joints) : ∀ d ∈ after.head?, d.isDigit := by
  intro d hd
  obtain ⟨hhead, -⟩ := List.isChain_cons.1 htext.apart
  refine (htext.isDigit_or_mem_joints d (List.mem_cons_of_mem _ (List.mem_of_head? hd))).resolve_right ?_
  exact fun hjoint => hhead d hd ⟨hc, hjoint⟩

/-- Where no character of a literal precedes a joint, nothing does. -/
theorem eq_nil_of_joint (htext : Typable (before ++ c :: after)) (hc : c ∈ joints)
    (hbefore : ∀ d ∈ before.getLast?, Literal.isPart d = false) : before = [] := by
  rw [← List.getLast?_eq_none_iff, Option.eq_none_iff_forall_not_mem]
  intro d hd
  have hpart := Literal.isPart_of_isDigit (htext.isDigit_before hc d hd)
  exact absurd hpart (by simp [hbefore d hd])

/-- A number without digits is a point, and all of the text. -/
theorem eq_point (htext : Typable (before ++ c :: after)) (hbefore : ∀ d ∈ before.getLast?, Literal.isPart d = false)
    (hpart : Literal.isPart c) (hdigits : ∀ d ∈ (c :: after).takeWhile Literal.isPart, d.isDigit = false) :
    before ++ c :: after = ['.'] := by
  rw [List.takeWhile_cons_of_pos hpart] at hdigits
  have hpoint : c = '.' := (Literal.isPart_iff.1 hpart).resolve_left (by simp [hdigits c List.mem_cons_self])
  subst hpoint
  have hafter : after = [] := by
    rw [← List.head?_eq_none_iff, Option.eq_none_iff_forall_not_mem]
    intro d hd
    have hdigit := htext.of_append.2.isDigit_behind (by decide) d hd
    obtain ⟨more, rfl⟩ := List.head?_eq_some_iff.1 hd
    rw [List.takeWhile_cons_of_pos (Literal.isPart_of_isDigit hdigit)] at hdigits
    exact absurd hdigit (by simp [hdigits d (List.mem_cons_of_mem _ List.mem_cons_self)])
  rw [htext.eq_nil_of_joint (by decide) hbefore, hafter]
  rfl

end Typable

end Characters

/-! ### Points in typed texts -/

/-- Where the automaton can be behind a typed text: inside of one sign at most, and never between operands, since there is
no blank that could follow a number. -/
structure Typing (read : List Char) (point : Scan) : Prop where
  behindOperand_eq_nil : behindOperand point.enclosing = []
  nesting_le : nesting point.enclosing ≤ 1
  expects_ne : point.expects ≠ .operator
  not_isPart : point.expects = .operand → ∀ c ∈ read.getLast?, Literal.isPart c = false

section Points

variable {limit : Option Nat} {c : Char} {read rest : List Char} {point next : Scan} {fault : Fault}

theorem typing_of_operator {position : Nat} (hmove : Move c ⟨position, [], .operator⟩ next)
    (hc : c.isDigit ∨ c ∈ joints) (hpart : Literal.isPart c = false) : Typing (read ++ [c]) next := by
  cases hmove with
  | operatorBlank hblank => exact absurd hblank (by simp [not_isBlank_of_typable hc])
  | operator hoperator => exact ⟨rfl, Nat.zero_le _, by simp, by simpa using hpart⟩

theorem Typing.move (htext : Typable (read ++ [c])) (hpoint : Typing read point)
    (hstart : read = [] → point.enclosing = []) (hmove : Move c point next) : Typing (read ++ [c]) next := by
  have hc : c.isDigit ∨ c ∈ joints := htext.isDigit_or_mem_joints c (by simp)
  have hsettled := hpoint.behindOperand_eq_nil
  have hnesting := hpoint.nesting_le
  cases hmove with
  | number hpart => exact ⟨hsettled, hnesting, by simp, by simp⟩
  | part hpart => exact ⟨hsettled, hnesting, by simp, by simp⟩
  | operandBlank hblank => exact absurd hblank (by simp [not_isBlank_of_typable hc])
  | @opening position enclosing opening hopening =>
    -- a sign is a joint, and so stands in front of the whole text
    have hpart := Opening.not_isPart_of_ofChar? hopening
    have hjoint := mem_joints_iff.2 (.inl (mem_operators_of_not_isPart hc hpart))
    have hread : read = [] := htext.eq_nil_of_joint hjoint (hpoint.not_isPart rfl)
    have hnone : enclosing = [] := hstart hread
    subst hnone
    cases opening with
    | parenthesis =>
      rw [Opening.ofChar?_eq_parenthesis hopening] at hjoint
      exact absurd hjoint (by decide)
    | sign negative => exact ⟨rfl, Nat.le_refl _, by simp, by simpa using hpart⟩
  | @numberEnd position start enclosing first others next hpart hread hmove =>
    have hsettled : behindOperand enclosing = [] := hsettled
    rw [hsettled] at hmove
    exact typing_of_operator hmove hc hpart
  | operatorBlank => exact absurd rfl hpoint.expects_ne
  | operator => exact absurd rfl hpoint.expects_ne
  | closing => exact absurd rfl hpoint.expects_ne

theorem typing_of_feed (hread : Typable read) (hfeed : feed limit start read = .ok point) : Typing read point := by
  refine feed_induction limit start (fun read point => Typable read → Typing read point) ?_ ?_ _ _ hfeed hread
  · exact fun _ => ⟨rfl, Nat.zero_le _, by simp [start], by simp⟩
  · intro read c point next hpoint _ hmove ih hread
    refine (ih hread.of_append.1).move hread ?_ hmove
    rintro rfl
    obtain rfl := Except.ok.inj hpoint
    rfl

/-- An operand is expected exactly where no character of a literal precedes. -/
theorem expects_operand_of_feed (hread : Typable read) (hfeed : feed limit start read = .ok point)
    (hlast : ∀ c ∈ read.getLast?, Literal.isPart c = false) : point.expects = .operand := by
  cases hexpects : point.expects with
  | operand => rfl
  | operator => exact absurd hexpects (typing_of_feed hread hfeed).expects_ne
  | number position first others =>
    obtain ⟨before, rfl, hparts, -⟩ := number_of_feed rfl hfeed hexpects
    have hsome := List.getLast?_eq_some_getLast (List.cons_ne_nil first others)
    have hpart := hparts _ (List.getLast_mem (List.cons_ne_nil first others))
    rw [List.getLast?_append, hsome] at hlast
    exact absurd (hpart.symm.trans (hlast _ rfl)) (by simp)

/-- A typed character can follow an operand. -/
theorem not_refuses_of_operator {position : Nat} {look : Option Char} (hlook : ∀ c ∈ look, c ∈ operators) :
    ¬ Refuses ⟨position, [], .operator⟩ look fault := by
  intro hrefuses
  cases hrefuses with
  | @leftOver _ _ c hends _ =>
    obtain ⟨⟨-, hmultiplicative⟩, hadditive⟩ := hends
    rcases mem_operators_iff.1 (hlook c rfl) with rfl | rfl | rfl | rfl
    · exact absurd hadditive (by decide)
    · exact absurd hadditive (by decide)
    · exact absurd hmultiplicative (by decide)
    · exact absurd hmultiplicative (by decide)

/-- What can refuse to go on in a typed text: its first character, its end, or a number. -/
theorem refusal_of_typable (htext : Typable (read ++ rest)) (hfeed : feed limit start read = .ok point)
    (hrefuses : Refuses point rest.head? fault) :
    (read = [] ∧ LacksFirst rest) ∨
      (rest = [] ∧ point.expects = .operand ∧ fault = .missingOperand read.length none) ∨
      fault.kind = .malformedNumber := by
  have hposition : point.position = read.length := position_of_feed_start hfeed
  obtain ⟨hsettled, -, hexpects, hlast⟩ := typing_of_feed htext.of_append.1 hfeed
  have hlook : ∀ c ∈ rest.head?, c.isDigit ∨ c ∈ joints := fun c hc =>
    htext.of_append.2.isDigit_or_mem_joints c (List.mem_of_head? hc)
  generalize hnext : rest.head? = next at *
  cases hrefuses with
  | @missingOperand position enclosing next hfollows =>
    cases hposition
    cases next with
    | none => exact .inr (.inl ⟨List.head?_eq_none_iff.1 hnext, rfl, rfl⟩)
    | some c =>
      have hc : c = '*' ∨ c = '/' := by
        refine (hfollows c rfl).resolve_left ?_
        rintro rfl
        exact absurd (hlook ')' rfl) (by decide)
      have hjoint : c ∈ joints := by rcases hc with rfl | rfl <;> decide
      obtain ⟨more, rfl⟩ := List.head?_eq_some_iff.1 hnext
      have hread : read = [] := htext.eq_nil_of_joint hjoint (hlast rfl)
      subst hread
      exact .inl ⟨rfl, c, rfl, hc⟩
  | @noOperand position enclosing c hpart hblank hopening hfollows =>
    have hc := mem_operators_of_not_isPart (hlook c rfl) hpart
    rcases mem_operators_iff.1 hc with rfl | rfl | rfl | rfl
    · exact absurd hopening (by decide)
    · exact absurd hopening (by decide)
    · exact absurd hfollows (by decide)
    · exact absurd hfollows (by decide)
  | malformed => exact .inr (.inr rfl)
  | @numberEnd position start enclosing first others next fault hnumber hread hrefuses =>
    have hsettled : behindOperand enclosing = [] := hsettled
    rw [hsettled] at hrefuses
    have hoperators : ∀ c ∈ next, c ∈ operators := fun c hc => mem_operators_of_not_isPart (hlook c hc) (hnumber c hc)
    exact absurd hrefuses (not_refuses_of_operator hoperators)
  | unclosed => exact absurd rfl hexpects
  | unclosedBefore => exact absurd rfl hexpects
  | leftOver => exact absurd rfl hexpects

end Points

/-! ### Faults of typed texts -/

section Texts

variable {text : String} {fault : Fault} {position : Nat}

theorem nestingPeak_le_of_typable (htext : Typable text.toList) : nestingPeak text ≤ 1 := by
  refine peak_le fun read rest point hsplit hfeed => ?_
  rw [hsplit] at htext
  exact (typing_of_feed htext.of_append.1 hfeed).nesting_le

theorem evaluate_of_lacksFirst (hfirst : LacksFirst text.toList) :
    evaluate text = .error (.missingOperand 0 text.toList.head?) := by
  obtain ⟨c, hc, hfollows⟩ := hfirst
  rw [List.head?_eq_getElem?] at hc
  exact evaluate_of_lacksOperandAt ⟨awaitsOperand_of_feed feed_nil rfl, .inr ⟨c, hc, .inr hfollows⟩⟩

theorem evaluate_point : evaluate "." = .error (.malformedNumber 0 '.' []) := evaluate_eq_error_iff.2 ⟨rfl, rfl⟩

/-- A number with several points is malformed, if the text can be read as far as that. -/
theorem malformedAt_of_crowdedAt (htext : Typable text.toList) (hcrowded : CrowdedAt text.toList position)
    {point : Scan} (hfeed : feed (some nestingLimit) start (text.toList.take position) = .ok point) :
    MalformedAt text.toList position := by
  obtain ⟨hbefore, hpoints⟩ := hcrowded
  refine ⟨awaitsOperand_of_feed hfeed (expects_operand_of_feed (htext.take position) hfeed hbefore), ?_, .inr hpoints⟩
  intro hnone
  rw [hnone] at hpoints
  exact absurd hpoints (by simp)

theorem crowdedAt_or_eq_point (htext : Typable text.toList) (hmalformed : MalformedAt text.toList position) :
    CrowdedAt text.toList position ∨ text.toList = ['.'] := by
  obtain ⟨hawaits, hsome, hcounts⟩ := hmalformed
  obtain ⟨enclosing, hfeed⟩ := hawaits.exists_feed
  have hbefore := (typing_of_feed (htext.take position) hfeed).not_isPart rfl
  rcases hcounts with hdigits | hpoints
  · rw [← List.take_append_drop position text.toList] at htext ⊢
    cases hdrop : text.toList.drop position with
    | nil => exact absurd (by rw [hdrop]; rfl) hsome
    | cons first rest =>
      rw [hdrop] at htext hdigits hsome
      have hpart : Literal.isPart first := by
        by_contra hpart
        exact hsome (List.takeWhile_cons_of_neg hpart)
      exact .inr (htext.eq_point hbefore hpart hdigits)
  · exact .inl ⟨hbefore, hpoints⟩

theorem not_crowdedAt_point (position : Nat) : ¬ CrowdedAt ['.'] position := by
  rintro ⟨-, hpoints⟩
  have hcount := List.count_le_length (a := '.') (l := (List.drop position ['.']).takeWhile Literal.isPart)
  have hrun := ((List.takeWhile_sublist Literal.isPart).trans (List.drop_sublist position ['.'])).length_le
  rw [List.length_singleton] at hrun
  omega

/-- A fault of a typed text is that of its first character, or that of its end, or that of a number. -/
theorem fault_of_typable (htext : Typable text.toList) (hfault : evaluate text = .error fault) :
    LacksFirst text.toList ∨
      (∃ point, feed (some nestingLimit) start text.toList = .ok point ∧ point.expects = .operand ∧
        fault = .missingOperand text.toList.length none) ∨
      fault.kind = .malformedNumber ∧ ∃ position, MalformedAt text.toList position := by
  have hshallow : nestingPeak text ≤ nestingLimit := (nestingPeak_le_of_typable htext).trans (by decide)
  have hdeep (opened : Nat) (found : Option Char) : fault ≠ .tooDeep opened found := by
    rintro rfl
    exact evaluate_ne_tooDeep hshallow hfault
  obtain ⟨read, rest, point, hsplit, hread, hrefuses⟩ := exists_refuses hfault hdeep
  rw [hsplit] at htext
  rcases refusal_of_typable htext hread hrefuses with ⟨rfl, hfirst⟩ | ⟨rfl, hexpects, rfl⟩ | hkind
  · exact .inl (by rw [hsplit]; exact hfirst)
  · rw [List.append_nil] at hsplit
    exact .inr (.inl ⟨point, by rw [hsplit]; exact hread, hexpects, by rw [hsplit]⟩)
  · obtain ⟨before, first, others, more, enclosing, -, rfl, -⟩ := exists_malformed hfault hkind
    exact .inr (.inr ⟨rfl, before.length, malformedAt_of_kind hfault rfl rfl⟩)

theorem foremost_of_typable (htext : Typable text.toList) (hfault : evaluate text = .error fault) :
    fault.Foremost text.toList := by
  refine ⟨?_, ?_, ?_, ?_⟩
  · intro hfirst
    obtain rfl := Except.error.inj ((evaluate_of_lacksFirst hfirst).symm.trans hfault)
    exact ⟨rfl, rfl⟩
  · intro hpoint
    obtain rfl : text = "." := String.toList_inj.1 hpoint
    obtain rfl := Except.error.inj (evaluate_point.symm.trans hfault)
    exact ⟨rfl, rfl⟩
  · intro hfirst position hcrowded hearliest
    have hfeed : ∃ point, feed (some nestingLimit) start (text.toList.take position) = .ok point := by
      rcases fault_of_typable htext hfault with hother | ⟨point, hfeed, -⟩ | ⟨-, other, hmalformed⟩
      · exact absurd hother hfirst
      · exact exists_feed_of_prefix hfeed (List.take_prefix position _)
      -- what is reported is no number before the first one with several points
      · rcases crowdedAt_or_eq_point htext hmalformed with hother | hpoint
        · have hle : position ≤ other := Nat.le_of_not_lt fun hlt => hearliest other hlt hother
          obtain ⟨enclosing, hfeed⟩ := hmalformed.1.exists_feed
          exact exists_feed_of_prefix hfeed (List.take_prefix_take_left hle)
        · exact absurd (hpoint ▸ hcrowded) (not_crowdedAt_point position)
    obtain ⟨point, hfeed⟩ := hfeed
    exact (malformedNumber_iff hfault position).2 (malformedAt_of_crowdedAt htext hcrowded hfeed)
  · intro hfirst hpoint hcrowded
    rcases fault_of_typable htext hfault with hother | ⟨point, -, -, rfl⟩ | ⟨-, other, hmalformed⟩
    · exact absurd hother hfirst
    · exact ⟨rfl, rfl, rfl⟩
    · rcases crowdedAt_or_eq_point htext hmalformed with hother | hother
      · exact absurd hother (hcrowded other)
      · exact absurd hother hpoint

theorem kind_of_typable (htext : Typable text.toList) (hfault : evaluate text = .error fault) :
    fault.kind = .emptyOperand ∨ fault.kind = .malformedNumber := by
  rcases fault_of_typable htext hfault with hfirst | ⟨point, -, -, rfl⟩ | ⟨hkind, -⟩
  · exact .inl ((foremost_of_typable htext hfault).first hfirst).1
  · exact .inl rfl
  · exact .inr hkind

theorem exists_fault_iff (htext : Typable text.toList) (hsome : text.toList ≠ []) :
    (∃ fault, evaluate text = .error fault) ↔ LacksFirst text.toList ∨ text.toList = ['.'] ∨
      (∃ position, CrowdedAt text.toList position) ∨ LacksLast text.toList := by
  constructor
  · rintro ⟨fault, hfault⟩
    rcases fault_of_typable htext hfault with hfirst | ⟨point, hfeed, hexpects, -⟩ | ⟨-, position, hmalformed⟩
    · exact .inl hfirst
    · have hlast := (typing_of_feed htext hfeed).not_isPart hexpects
      have hend := List.getLast?_eq_some_getLast hsome
      have hmem := htext.isDigit_or_mem_joints _ (List.getLast_mem hsome)
      exact .inr (.inr (.inr ⟨_, hend, mem_operators_of_not_isPart hmem (hlast _ hend)⟩))
    · rcases crowdedAt_or_eq_point htext hmalformed with hcrowded | hpoint
      · exact .inr (.inr (.inl ⟨position, hcrowded⟩))
      · exact .inr (.inl hpoint)
  · intro hdefects
    cases hvalue : evaluate text with
    | error fault => exact ⟨fault, rfl⟩
    | ok value =>
      -- the whole text has been read, and none of the defects admits that
      have hrun := exists_evaluate_iff.1 ⟨value, hvalue⟩
      rw [run, bind_eq_ok_iff] at hrun
      obtain ⟨point, hfeed, hfinish⟩ := hrun
      rcases hdefects with hfirst | hpoint | ⟨position, hcrowded⟩ | ⟨c, hlast, hc⟩
      · exact absurd (hvalue.symm.trans (evaluate_of_lacksFirst hfirst)) (by simp)
      · obtain rfl : text = "." := String.toList_inj.1 hpoint
        exact absurd (hvalue.symm.trans evaluate_point) (by simp)
      · obtain ⟨before, hbefore⟩ := exists_feed_of_prefix hfeed (List.take_prefix position _)
        obtain ⟨first, others, hfault⟩ := evaluate_of_malformedAt (malformedAt_of_crowdedAt htext hcrowded hbefore)
        exact absurd (hvalue.symm.trans hfault) (by simp)
      · have hexpects : point.expects = .operand := by
          refine expects_operand_of_feed htext hfeed fun d hd => ?_
          obtain rfl := Option.some.inj (hlast.symm.trans hd)
          exact not_isPart_of_mem_operators hc
        rw [finish, hexpects] at hfinish
        exact absurd hfinish (by simp)

end Texts

/-! ### Sessions -/

namespace Session

section Steps

variable {session next : Session} {step : Step} {places : Int}

theorem Change.places_eq (hchange : Change session step next) : next.places = session.places := by
  cases hchange <;> rfl

theorem places_run (session : Session) (steps : List Step) : (session.run steps).places = session.places := by
  refine run_induction (fun _ next => next.places = session.places) rfl ?_ ?_ steps
  · exact fun _ _ _ _ hchange ih => hchange.places_eq.trans ih
  · exact fun _ _ _ _ ih => ih

theorem exists_conclude (describe : Fault → String) (hplaces : 0 ≤ session.places ∧ session.places ≤ 15) :
    ∃ next, session.conclude describe = .ok next := by
  have houtcome : ∃ shown, session.outcome = .ok shown := by
    unfold outcome
    split
    · exact ⟨_, rfl⟩
    · split
      · exact ⟨_, rfl⟩
      · rename_i value hvalue
        obtain ⟨text, htext⟩ := value.exists_fixedText ⟨hplaces.1, hplaces.2.trans (by decide)⟩
        exact ⟨.ok text, by rw [htext]; rfl⟩
  obtain ⟨shown, hshown⟩ := houtcome
  rw [conclude, hshown]
  exact ⟨_, rfl⟩

/-- Up to fifteen places no key fails, nor do the ENTER key and the theme switch. -/
theorem exists_step (hplaces : 0 ≤ session.places ∧ session.places ≤ 15)
    (hkey : ∀ label, step = .press label → (Key.ofLabel? label).isSome) : ∃ next, session.step step = .ok next := by
  cases step with
  | press label =>
    obtain ⟨key, hlabel⟩ := Option.isSome_iff_exists.1 (hkey label rfl)
    have hpressed : ∃ next, session.pressKey key = .ok next := by
      unfold pressKey
      split
      · exact exists_conclude _ hplaces
      · exact ⟨_, rfl⟩
    obtain ⟨next, hnext⟩ := hpressed
    refine ⟨next, ?_⟩
    show session.press label = .ok next
    rw [press, hlabel]
    exact mapError_eq_ok_iff.2 hnext
  | enter =>
    obtain ⟨next, hnext⟩ := exists_conclude (fun _ => "Error") hplaces
    exact ⟨next, mapError_eq_ok_iff.2 hnext⟩
  | toggle => exact ⟨_, rfl⟩
  | assign expression => exact ⟨_, rfl⟩

end Steps

theorem typable_of_run (theme : Theme) (places : Int) {steps : List Step} (hassign : ∀ text, .assign text ∉ steps) :
    Typable ((new theme places).run steps).expression.toList := by
  have hfollows := follows_typed theme places hassign
  rw [hfollows.expression_eq]
  exact ⟨fun c hc => hfollows.isDigit_or_mem_joints c (mem_of_mem_collapsed hc), apart_collapsed _⟩

/-- Which expressions of a session cannot be evaluated, and why; and that nothing else fails in its use. -/
theorem faults_of_run (theme : Theme) (places : Int) (steps : List Step) (hplaces : 0 ≤ places ∧ places ≤ 15)
    (hassign : ∀ text, .assign text ∉ steps) :
    let session := (new theme places).run steps
    let text := session.expression.toList
    (text ≠ [] → ((∃ fault, evaluate session.expression = .error fault) ↔
      LacksFirst text ∨ text = ['.'] ∨ (∃ position, CrowdedAt text position) ∨ LacksLast text)) ∧
    (∀ fault, evaluate session.expression = .error fault → fault.Foremost text ∧
      fault.kind ≠ .unexpectedCharacter ∧ fault.kind ≠ .unbalancedParenthesis ∧
      ∀ opened found, fault ≠ .tooDeep opened found) ∧
    ∀ step, (∀ label, step = .press label → (Key.ofLabel? label).isSome) → ∃ next, session.step step = .ok next := by
  have htext := typable_of_run theme places hassign
  refine ⟨exists_fault_iff htext, ?_, ?_⟩
  · intro fault hfault
    refine ⟨foremost_of_typable htext hfault, ?_⟩
    rcases kind_of_typable htext hfault with hkind | hkind
    · exact ⟨by simp [hkind], by simp [hkind], Fault.ne_tooDeep_of_kind (by simp [hkind])⟩
    · exact ⟨by simp [hkind], by simp [hkind], Fault.ne_tooDeep_of_kind (by simp [hkind])⟩
  · intro step hkey
    refine exists_step ?_ hkey
    rw [places_run]
    exact hplaces

theorem faults_of_run_crowded :
    let steps : List Step :=
      [.press "5", .press "+", .press "1", .press ".", .press "2", .press ".", .toggle, .press "3", .press "*"]
    let session := (new .dark 3).run steps
    (0 ≤ (3 : Int) ∧ (3 : Int) ≤ 15) ∧ (∀ text, .assign text ∉ steps) ∧ session.expression.toList = "5+1.2.3*".toList ∧
    ∃ fault, evaluate session.expression = .error fault ∧ fault.kind = .malformedNumber ∧ fault.position = 2 := by
  intro steps session
  have hplaces : 0 ≤ (3 : Int) ∧ (3 : Int) ≤ 15 := by decide
  have hassign : ∀ text, .assign text ∉ steps := by simp [steps]
  have hexpression : session.expression.toList = "5+1.2.3*".toList := by decide
  obtain ⟨hfails, hforemost, -⟩ := faults_of_run .dark 3 steps hplaces hassign
  have hcrowded : CrowdedAt session.expression.toList 2 := by
    rw [hexpression]
    decide
  obtain ⟨fault, hfault⟩ := (hfails (by rw [hexpression]; decide)).2 (.inr (.inr (.inl ⟨2, hcrowded⟩)))
  refine ⟨hplaces, hassign, hexpression, fault, hfault, (hforemost fault hfault).1.crowded ?_ 2 hcrowded ?_⟩
  · rw [hexpression]
    decide
  · rw [hexpression]
    decide

end Session

end Reckoner
