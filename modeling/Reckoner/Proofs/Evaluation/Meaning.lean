import Reckoner.Binary64.Bits
import Reckoner.Proofs.Evaluation.Basic
import Reckoner.Proofs.Grammar.Unambiguity

/-!
# The meaning of a text

Evaluation gives exactly the texts of the grammar a value, which is that of their only derivation tree.
-/

namespace Reckoner

theorem evaluateUnlimited_eq_ok_iff (text : String) (value : Binary64) :
    evaluateUnlimited text = .ok value ↔ ∃ tree : Phrase, tree.DerivedFrom text.toList ∧ tree.value = value := by
  constructor
  · intro hvalue
    cases hread : Expression.parse none text with
    | error fault =>
      rw [evaluateUnlimited, hread] at hvalue
      exact absurd hvalue (by simp [Except.map])
    | ok expression =>
      obtain ⟨tree, htree, rfl⟩ := exists_derivedFrom_of_parse hread
      rw [evaluateUnlimited, hread] at hvalue
      exact ⟨tree, htree, tree.value_expression.symm.trans (Except.ok.inj hvalue)⟩
  · rintro ⟨tree, htree, rfl⟩
    rw [evaluateUnlimited, parse_of_derivedFrom htree, ← tree.value_expression]
    rfl

/-- A text that has a value within some limit has it without one. -/
theorem evaluateUnlimited_of_ok {text : String} {bound : Nat} {value : Binary64} (hvalue : evaluate text bound = .ok value) :
    evaluateUnlimited text = .ok value := by
  rw [evaluateUnlimited_eq fun opened found => by rw [hvalue]; exact nofun, hvalue]

theorem exists_derivedFrom_of_evaluate {text : String} {bound : Nat} {value : Binary64}
    (hvalue : evaluate text bound = .ok value) : ∃ tree : Phrase, tree.DerivedFrom text.toList ∧ tree.value = value :=
  (evaluateUnlimited_eq_ok_iff text value).1 (evaluateUnlimited_of_ok hvalue)

/-- A text that the automaton gets through has the value of any derivation tree that it has. -/
theorem evaluate_of_derivedFrom {text : String} {bound : Nat} {tree : Phrase}
    (hrun : Scan.run (some bound) .start text.toList = .ok ()) (htree : tree.DerivedFrom text.toList) :
    evaluate text bound = .ok tree.value := by
  obtain ⟨value, hvalue⟩ := exists_evaluate_iff.2 hrun
  have htreeValue := (evaluateUnlimited_eq_ok_iff text tree.value).2 ⟨tree, htree, rfl⟩
  rw [hvalue, ← evaluateUnlimited_of_ok hvalue, htreeValue]

/-- Within the limit a text has a value if and only if it derives from the grammar. Its tree is unique, and its value is
the value of the tree. -/
theorem evaluate_eq_ok_iff_derivedFrom (text : String) (hpeak : nestingPeak text ≤ nestingLimit) :
    (∀ value, evaluate text = .ok value ↔ ∃ tree : Phrase, tree.DerivedFrom text.toList ∧ tree.value = value) ∧
    ∀ left right : Phrase, left.DerivedFrom text.toList → right.DerivedFrom text.toList → left = right := by
  constructor
  · intro value
    rw [evaluate_eq hpeak]
    exact evaluateUnlimited_eq_ok_iff text value
  · intro left right hleft hright
    exact hright.unique hleft

/-- The tree of `- 2*(3+ .5)`. -/
def negatedTwice : Phrase :=
  .binary .mul (.signed true (.number (.ofRun ['2'] rfl rfl (by decide))))
    (.parenthesized (.binary .add (.number (.ofRun ['3'] rfl rfl (by decide)))
      (.number (.ofRun ['.', '5'] rfl rfl (by decide)))))

/-- Two with its sign flipped times three and a half is minus seven. -/
theorem evaluate_eq_ok_iff_derivedFrom_signed :
    nestingPeak "- 2*(3+ .5)" ≤ nestingLimit ∧ evaluate "- 2*(3+ .5)" = .ok (.ofBits 0xC01C000000000000) ∧
      negatedTwice.DerivedFrom "- 2*(3+ .5)".toList ∧ negatedTwice.value = .ofBits 0xC01C000000000000 ∧
      ∀ tree : Phrase, tree.DerivedFrom "- 2*(3+ .5)".toList → tree = negatedTwice := by
  have hpeak : nestingPeak "- 2*(3+ .5)" ≤ nestingLimit := by decide
  have htree : negatedTwice.DerivedFrom "- 2*(3+ .5)".toList := by
    have hblank : ∀ c ∈ [' '], Text.isBlank c := List.forall_mem_singleton.2 rfl
    refine ⟨_, ?_, .expression (.term (.signed .number) (.product (.inl rfl)
      (.parenthesized (.expression (.term .number .productsEnd) (.sum (.inl rfl) (.term .number .productsEnd) .sumsEnd)))
      .productsEnd)) .sumsEnd⟩
    exact .cons_spelling (.cons hblank (.cons_spelling (.cons_spelling (.cons_spelling (.cons_spelling (.cons hblank
      (.cons_spelling (.nil (List.forall_mem_nil _)) _)) _) _) _) _)) _
  have hvalue : negatedTwice.value = .ofBits 0xC01C000000000000 := by decide +kernel
  obtain ⟨hmeaning, hunique⟩ := evaluate_eq_ok_iff_derivedFrom "- 2*(3+ .5)" hpeak
  exact ⟨hpeak, (hmeaning _).2 ⟨_, htree, hvalue⟩, htree, hvalue, fun tree hother => hunique _ _ hother htree⟩

end Reckoner
