import Reckoner.Proofs.Binary64.Representable
import Reckoner.Proofs.Evaluation.Literals

/-!
# Integer arithmetic

Without points and divisions an expression writes an integer. As long as no part of it goes beyond `2 ^ 53`, nothing is
rounded, and the expression is evaluated to this integer.
-/

namespace Reckoner

/-- What an operator does to integers; division has no place among them. -/
def Operator.onIntegers? : Operator → Option (ℤ → ℤ → ℤ)
  | add => some fun m n => m + n
  | sub => some fun m n => m - n
  | mul => some fun m n => m * n
  | div => none

namespace Phrase

/-- The integer that is written without points and divisions. -/
def integer? : Phrase → Option ℤ
  | number numeral => if '.' ∈ numeral.run then none else some (Int.ofNat (Nat.ofDigitChars 10 numeral.run 0))
  | parenthesized inner => inner.integer?
  | signed negative operand => operand.integer?.map fun n => if negative then -n else n
  | binary operator left right =>
    operator.onIntegers?.bind fun operation => left.integer?.bind fun m => right.integer?.map fun n => operation m n

/-- The phrase and everything it is made of. -/
def nodes : Phrase → List Phrase
  | number numeral => [number numeral]
  | parenthesized inner => parenthesized inner :: inner.nodes
  | signed negative operand => signed negative operand :: operand.nodes
  | binary operator left right => binary operator left right :: (left.nodes ++ right.nodes)

theorem self_mem_nodes (phrase : Phrase) : phrase ∈ phrase.nodes := by
  cases phrase <;> exact List.mem_cons_self

end Phrase

section Exact

variable {value left right : Binary64} {m n : ℤ}

theorem Literal.rational?_value {literal : Literal} (hexact : Binary64.Representable literal.exact) :
    literal.value.rational? = some literal.exact := by
  refine Binary64.rational?_ofQuotient (Nat.pow_pos (by decide)) hexact ?_
  rw [literal.exact_eq, if_neg Bool.false_ne_true, one_mul]

/-- Without a point all characters are digits, and none of them is behind the point. -/
theorem Numeral.exact_of_whole {numeral : Numeral} (hpoint : '.' ∉ numeral.run) :
    numeral.literal.exact = Nat.ofDigitChars 10 numeral.run 0 := by
  have hdigits : ∀ c ∈ numeral.run, c.isDigit := by
    intro c hc
    refine (Literal.isPart_iff.1 (numeral.isPart_of_mem c hc)).resolve_right ?_
    rintro rfl
    exact hpoint hc
  have hbehind : numeral.run.dropWhile (· != '.') = [] := by
    rw [List.dropWhile_eq_nil_iff]
    exact fun c hc => bne_iff_ne.2 (Literal.ne_point_of_isDigit (hdigits c hc))
  rw [Literal.exact, Numeral.literal, Literal.filter_isDigit_eq_self hdigits, hbehind]
  simp

theorem Operator.rational?_apply {operator : Operator} {operation : ℤ → ℤ → ℤ}
    (hoperation : operator.onIntegers? = some operation) (hleft : left.rational? = some (m : ℚ))
    (hright : right.rational? = some (n : ℚ)) (hbound : (operation m n).natAbs ≤ 2 ^ 53) :
    (operator.apply left right).rational? = some (operation m n : ℚ) := by
  have hexact := Binary64.representable_intCast hbound
  cases operator with
  | add =>
    obtain rfl := Option.some.inj hoperation
    rw [Int.cast_add] at hexact ⊢
    exact Binary64.rational?_add hleft hright hexact
  | sub =>
    obtain rfl := Option.some.inj hoperation
    rw [Int.cast_sub] at hexact ⊢
    exact Binary64.rational?_sub hleft hright hexact
  | mul =>
    obtain rfl := Option.some.inj hoperation
    rw [Int.cast_mul] at hexact ⊢
    exact Binary64.rational?_mul hleft hright hexact
  | div => exact absurd hoperation (by simp [Operator.onIntegers?])

/-- Operands are exact before operators are applied, and then the results are. -/
theorem Phrase.rational?_value {tree : Phrase} (hn : tree.integer? = some n)
    (hbound : ∀ node ∈ tree.nodes, ∀ m ∈ node.integer?, m.natAbs ≤ 2 ^ 53) : tree.value.rational? = some (n : ℚ) := by
  induction tree generalizing n with
  | number numeral =>
    have hself := hbound _ (self_mem_nodes _) n hn
    rw [integer?] at hn
    split at hn
    · exact absurd hn (by simp)
    · rename_i hpoint
      obtain rfl := Option.some.inj hn
      have hexact := Binary64.representable_intCast hself
      rw [Int.ofNat_eq_natCast, Int.cast_natCast, ← Numeral.exact_of_whole hpoint] at hexact ⊢
      exact Literal.rational?_value hexact
  | parenthesized inner ih =>
    rw [nodes, List.forall_mem_cons] at hbound
    exact ih hn hbound.2
  | signed negative operand ih =>
    rw [nodes, List.forall_mem_cons] at hbound
    obtain ⟨m, hm, rfl⟩ := Option.map_eq_some_iff.1 hn
    have hoperand := ih hm hbound.2
    cases negative with
    | false => exact hoperand
    | true =>
      rw [value, if_pos rfl, Int.cast_neg]
      exact Binary64.rational?_neg hoperand
  | binary operator left right ihleft ihright =>
    have hself := hbound _ (self_mem_nodes _) n hn
    rw [nodes, List.forall_mem_cons, List.forall_mem_append] at hbound
    obtain ⟨-, hleft, hright⟩ := hbound
    obtain ⟨operation, hoperation, hn⟩ := Option.bind_eq_some_iff.1 hn
    obtain ⟨l, hl, hn⟩ := Option.bind_eq_some_iff.1 hn
    obtain ⟨r, hr, rfl⟩ := Option.map_eq_some_iff.1 hn
    rw [value_binary]
    exact Operator.rational?_apply hoperation (ihleft hl hleft) (ihright hr hright) hself

end Exact

/-- Integer arithmetic is exact as long as it stays within `2 ^ 53`, at every number and at every operator of the
expression. What comes out is written as an integer, whatever the number of places. -/
theorem evaluate_integer_exact (text : String) (tree : Phrase) (n : ℤ) (htree : tree.DerivedFrom text.toList)
    (hpeak : nestingPeak text ≤ nestingLimit) (hn : tree.integer? = some n)
    (hbound : ∀ node ∈ tree.nodes, ∀ m ∈ node.integer?, m.natAbs ≤ 2 ^ 53) :
    ∃ value, evaluate text = .ok value ∧ value.rational? = some (n : ℚ) ∧
      ∀ places : ℤ, 0 ≤ places → places ≤ 15 → value.fixedText places = .ok (toString n) := by
  have hexact := Phrase.rational?_value hn hbound
  refine ⟨tree.value, ?_, hexact, fun places hplaces hlimit => Binary64.fixedText_intCast hexact hplaces hlimit⟩
  rw [evaluate_eq hpeak]
  exact (evaluateUnlimited_eq_ok_iff text tree.value).2 ⟨tree, htree, rfl⟩

/-- The tree of `(1-4503599627370497)*-2`. -/
def doubledDifference : Phrase :=
  .binary .mul
    (.parenthesized (.binary .sub (.number (.ofRun "1".toList (by decide) (by decide) (by decide)))
      (.number (.ofRun "4503599627370497".toList (by decide) (by decide) (by decide)))))
    (.signed true (.number (.ofRun "2".toList (by decide) (by decide) (by decide))))

theorem doubledDifference_derivedFrom : doubledDifference.DerivedFrom "(1-4503599627370497)*-2".toList := by
  refine ⟨_, ?_, .expression (.term
    (.parenthesized (.expression (.term .number .productsEnd) (.sum (.inr rfl) (.term .number .productsEnd) .sumsEnd)))
    (.product (.inl rfl) (.signed .number) .productsEnd)) .sumsEnd⟩
  exact .cons_spelling (.cons_spelling (.cons_spelling (.cons_spelling (.cons_spelling (.cons_spelling (.cons_spelling
    (.cons_spelling (.nil (List.forall_mem_nil _)) _) _) _) _) _) _) _) _

/-- The greatest integer within the bound, through a sign, parentheses and two operators. -/
theorem evaluate_integer_exact_greatest : doubledDifference.DerivedFrom "(1-4503599627370497)*-2".toList ∧
    nestingPeak "(1-4503599627370497)*-2" ≤ nestingLimit ∧ doubledDifference.integer? = some 9007199254740992 ∧
    (∀ node ∈ doubledDifference.nodes, ∀ m ∈ node.integer?, m.natAbs ≤ 2 ^ 53) ∧
    ∃ value, evaluate "(1-4503599627370497)*-2" = .ok value ∧ value.rational? = some ((9007199254740992 : ℤ) : ℚ) ∧
      ∀ places : ℤ, 0 ≤ places → places ≤ 15 → value.fixedText places = .ok (toString (9007199254740992 : ℤ)) := by
  have hpeak : nestingPeak "(1-4503599627370497)*-2" ≤ nestingLimit := by decide
  have hn : doubledDifference.integer? = some 9007199254740992 := by decide
  have hbound : ∀ node ∈ doubledDifference.nodes, ∀ m ∈ node.integer?, m.natAbs ≤ 2 ^ 53 := by decide
  have hvalue := evaluate_integer_exact _ _ _ doubledDifference_derivedFrom hpeak hn hbound
  exact ⟨doubledDifference_derivedFrom, hpeak, hn, hbound, hvalue⟩

end Reckoner
