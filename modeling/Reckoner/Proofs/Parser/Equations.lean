import Reckoner.Expression.Evaluation

/-!
# Equations of the readers

What each reader does in each of its cases, so that no proof about them has to unfold one: the two loops by whether an
operator of theirs comes next, and the reader of operands by what opens the operand. Two facts about cursors and faults
stand in front: which character was taken, and how deep an opening may lead.
-/

namespace Reckoner

theorem Cursor.rest_eq_cons_of_take? {α : Type} {classify : Char → Option α} {cursor next : Cursor} {item : α}
    (htake : cursor.take? classify = some (item, next)) :
    ∃ c, cursor.rest = c :: next.rest ∧ classify c = some item ∧ next.position = cursor.position + 1 := by
  unfold take? at htake
  split at htake
  · exact absurd htake (by simp)
  · rename_i c rest hrest
    obtain ⟨_, hitem, hpair⟩ := Option.map_eq_some_iff.1 htake
    obtain ⟨rfl, rfl⟩ := Prod.mk.inj hpair
    exact ⟨c, hrest, hitem, rfl⟩

theorem Cursor.take?_of_rest_eq_cons {α : Type} {classify : Char → Option α} (cursor : Cursor) {c : Char}
    {rest : List Char} {item : α} (hrest : cursor.rest = c :: rest) (hitem : classify c = some item) :
    cursor.take? classify = some (item, ⟨cursor.position + 1, rest⟩) := by
  simp only [take?, hrest, hitem, Option.map_some]

theorem Cursor.take?_eq_none_iff {α : Type} {classify : Char → Option α} {cursor : Cursor} :
    cursor.take? classify = none ↔ ∀ c ∈ cursor.rest.head?, classify c = none := by
  unfold take?
  split
  · rename_i hrest
    simp [hrest]
  · rename_i c rest hrest
    simp [hrest]

theorem Opening.ofChar?_of_isPart {c : Char} (hpart : Literal.isPart c) : ofChar? c = none := by
  have hne : ∀ d, Literal.isPart d = false → c ≠ d := by
    rintro d hd rfl
    rw [hpart] at hd
    exact Bool.noConfusion hd
  unfold ofChar?
  rw [if_neg (hne '(' (by decide)), if_neg (hne '-' (by decide)), if_neg (hne '+' (by decide))]

theorem Opening.not_isPart_of_ofChar? {c : Char} {opening : Opening} (hopening : ofChar? c = some opening) :
    Literal.isPart c = false := by
  cases hpart : Literal.isPart c with
  | false => rfl
  | true =>
    rw [ofChar?_of_isPart hpart] at hopening
    exact absurd hopening (by simp)

theorem Opening.ofChar?_eq_parenthesis {c : Char} (hc : ofChar? c = some parenthesis) : c = '(' := by
  unfold ofChar? at hc
  split at hc
  · assumption
  · split at hc
    · exact absurd hc (by simp)
    · split at hc <;> exact absurd hc (by simp)

theorem Opening.ofChar?_eq_sign {c : Char} {negative : Bool} (hc : ofChar? c = some (sign negative)) :
    c = if negative then '-' else '+' := by
  unfold ofChar? at hc
  split at hc
  · exact absurd hc (by simp)
  · split at hc
    · rename_i hminus
      obtain rfl := Opening.sign.inj (Option.some.inj hc)
      exact hminus
    · split at hc
      · rename_i hplus
        obtain rfl := Opening.sign.inj (Option.some.inj hc)
        exact hplus
      · exact absurd hc (by simp)

namespace Parser

variable {limit : Option Nat} {nesting : Nat} {start next : Cursor}

theorem expression_eq : expression limit nesting start = term limit nesting start >>= sums limit nesting := by
  rw [expression]

theorem term_eq : term limit nesting start = factor limit nesting start >>= products limit nesting := by
  rw [term]

theorem sums_of_none {left : Parsed start} (hnext : left.skipBlanks.after.take? Operator.additive? = none) :
    sums limit nesting left = .ok left.skipBlanks := by
  rw [sums]
  split
  · rfl
  · rename_i hsome
    rw [hnext] at hsome
    exact absurd hsome (by simp)

theorem sums_of_some {left : Parsed start} {operator : Operator}
    (hnext : left.skipBlanks.after.take? Operator.additive? = some (operator, next)) :
    sums limit nesting left = term limit nesting next >>= fun right =>
      sums limit nesting (left.skipBlanks.join operator right (Cursor.length_rest_of_take? hnext)) := by
  rw [sums]
  split
  · rename_i hnone
    rw [hnext] at hnone
    exact absurd hnone (by simp)
  · rename_i hsome
    obtain ⟨rfl, rfl⟩ := Prod.mk.inj (Option.some.inj (hnext.symm.trans hsome))
    rfl

theorem products_of_none {left : Parsed start} (hnext : left.skipBlanks.after.take? Operator.multiplicative? = none) :
    products limit nesting left = .ok left.skipBlanks := by
  rw [products]
  split
  · rfl
  · rename_i hsome
    rw [hnext] at hsome
    exact absurd hsome (by simp)

theorem products_of_some {left : Parsed start} {operator : Operator}
    (hnext : left.skipBlanks.after.take? Operator.multiplicative? = some (operator, next)) :
    products limit nesting left = factor limit nesting next >>= fun right =>
      products limit nesting (left.skipBlanks.join operator right (Cursor.length_rest_of_take? hnext)) := by
  rw [products]
  split
  · rename_i hnone
    rw [hnext] at hnone
    exact absurd hnone (by simp)
  · rename_i hsome
    obtain ⟨rfl, rfl⟩ := Prod.mk.inj (Option.some.inj (hnext.symm.trans hsome))
    rfl

theorem factor_of_none (hnext : (start.skip Text.isBlank).take? Opening.ofChar? = none) :
    factor limit nesting start = number (start.skip Text.isBlank) >>= fun operand =>
      .ok (operand.within operand.tree (start.length_rest_skip_le Text.isBlank)) := by
  rw [factor]
  split
  · rfl
  all_goals
    rename_i hsome
    rw [hnext] at hsome
    exact absurd hsome (by simp)

/-- What lies behind an opening is shorter than the text from the start on. -/
theorem length_rest_next_le {opening : Opening}
    (hnext : (start.skip Text.isBlank).take? Opening.ofChar? = some (opening, next)) :
    next.rest.length ≤ start.rest.length := by
  have htaken := Cursor.length_rest_of_take? hnext
  have hblanks := start.length_rest_skip_le Text.isBlank
  omega

theorem factor_of_parenthesis (hnext : (start.skip Text.isBlank).take? Opening.ofChar? = some (.parenthesis, next)) :
    factor limit nesting start =
      deepen limit nesting .parenthesis (start.skip Text.isBlank).position next.rest.head? >>= fun deeper =>
        expression limit deeper next >>= fun inner =>
          close (start.skip Text.isBlank).position inner >>= fun closed =>
            .ok (closed.within closed.tree (length_rest_next_le hnext)) := by
  rw [factor]
  split
  · rename_i hnone
    rw [hnext] at hnone
    exact absurd hnone (by simp)
  · rename_i hsome
    obtain ⟨-, rfl⟩ := Prod.mk.inj (Option.some.inj (hnext.symm.trans hsome))
    rfl
  · rename_i hsome
    rw [hnext] at hsome
    exact absurd hsome (by simp)

theorem factor_of_sign {negative : Bool}
    (hnext : (start.skip Text.isBlank).take? Opening.ofChar? = some (.sign negative, next)) :
    factor limit nesting start =
      deepen limit nesting (.sign negative) (start.skip Text.isBlank).position next.rest.head? >>= fun deeper =>
        factor limit deeper next >>= fun operand =>
          .ok (operand.within (.signed negative operand.tree) (length_rest_next_le hnext)) := by
  rw [factor]
  split
  · rename_i hnone
    rw [hnext] at hnone
    exact absurd hnone (by simp)
  · rename_i hsome
    rw [hnext] at hsome
    exact absurd hsome (by simp)
  · rename_i hsome
    obtain ⟨hsign, rfl⟩ := Prod.mk.inj (Option.some.inj (hnext.symm.trans hsome))
    obtain rfl := Opening.sign.inj hsign
    rfl

theorem number_of_malformed {first : Char} {others : List Char}
    (hrun : start.rest.takeWhile Literal.isPart = first :: others) (hread : Literal.ofRun? (first :: others) = none) :
    number start = .error (.malformedNumber start.position first others) := by
  unfold number
  split
  · rename_i hsame
    obtain ⟨rfl, rfl⟩ := List.cons.inj (hrun.symm.trans hsame)
    rw [hread]
  · rename_i hnil
    rw [hrun] at hnil
    exact absurd hnil (by simp)

theorem number_of_literal {first : Char} {others : List Char} {literal : Literal}
    (hrun : start.rest.takeWhile Literal.isPart = first :: others)
    (hread : Literal.ofRun? (first :: others) = some literal) :
    ∃ parsed, number start = .ok parsed ∧ parsed.tree = .literal literal ∧
      parsed.after = start.skip Literal.isPart := by
  unfold number
  split
  · rename_i hsame
    obtain ⟨rfl, rfl⟩ := List.cons.inj (hrun.symm.trans hsame)
    split
    · rename_i hnone
      rw [hread] at hnone
      exact absurd hnone (by simp)
    · rename_i hsome
      obtain rfl := Option.some.inj (hread.symm.trans hsome)
      exact ⟨_, rfl, rfl, rfl⟩
  · rename_i hnil
    rw [hrun] at hnil
    exact absurd hnil (by simp)

theorem number_of_end (hrest : start.rest = []) : number start = .error (.missingOperand start.position none) := by
  obtain ⟨position, rest⟩ := start
  subst hrest
  rfl

theorem number_of_other {found : Char} {rest : List Char} (hrest : start.rest = found :: rest)
    (hpart : Literal.isPart found = false) :
    number start = .error (if followsOperand found then .missingOperand start.position (some found)
      else .unexpected start.position found) := by
  have hrun : start.rest.takeWhile Literal.isPart = [] := by
    rw [hrest, List.takeWhile_cons_of_neg (by rw [hpart]; exact Bool.false_ne_true)]
  unfold number
  split
  · rename_i hsome
    rw [hrun] at hsome
    exact absurd hsome (by simp)
  · split
    · rename_i hnil
      rw [hrest] at hnil
      exact absurd hnil (by simp)
    · rename_i hsame
      obtain ⟨rfl, -⟩ := List.cons.inj (hrest.symm.trans hsame)
      split <;> rfl

theorem close_of_end {opened : Nat} {inner : Parsed start} (hrest : inner.after.rest = []) :
    close opened inner = .error (.unclosed opened inner.after.position) := by
  unfold close
  split
  · rfl
  · rename_i hcons
    rw [hrest] at hcons
    exact absurd hcons (by simp)

theorem close_of_closing (opened : Nat) {inner : Parsed start} {rest : List Char}
    (hrest : inner.after.rest = ')' :: rest) :
    ∃ closed, close opened inner = .ok closed ∧ closed.tree = inner.tree ∧
      closed.after = ⟨inner.after.position + 1, rest⟩ := by
  unfold close
  split
  · rename_i hnil
    rw [hrest] at hnil
    exact absurd hnil (by simp)
  · rename_i hcons
    obtain ⟨rfl, rfl⟩ := List.cons.inj (hrest.symm.trans hcons)
    exact ⟨_, rfl, rfl, rfl⟩

theorem close_of_other {opened : Nat} {inner : Parsed start} {found : Char} {rest : List Char}
    (hrest : inner.after.rest = found :: rest) (hfound : found ≠ ')') :
    close opened inner = .error (.unclosedBefore inner.after.position found) := by
  unfold close
  split
  · rename_i hnil
    rw [hrest] at hnil
    exact absurd hnil (by simp)
  · rename_i hcons
    obtain ⟨rfl, rfl⟩ := List.cons.inj (hrest.symm.trans hcons)
    rw [if_neg hfound]

theorem deepen_none (opening : Opening) (opened : Nat) (found : Option Char) :
    deepen none nesting opening opened found = .ok (nesting + opening.cost) := rfl

theorem deepen_eq_ok {opening : Opening} {opened deeper : Nat} {found : Option Char}
    (hdeepen : deepen limit nesting opening opened found = .ok deeper) : deeper = nesting + opening.cost := by
  unfold deepen at hdeepen
  dsimp only at hdeepen
  split at hdeepen
  · exact (Except.ok.inj hdeepen).symm
  · exact absurd hdeepen (by simp)

theorem deepen_eq_error {opening : Opening} {opened : Nat} {found : Option Char} {fault : Fault}
    (hdeepen : deepen limit nesting opening opened found = .error fault) : fault = .tooDeep opened found := by
  unfold deepen at hdeepen
  dsimp only at hdeepen
  split at hdeepen
  · exact absurd hdeepen (by simp)
  · exact (Except.error.inj hdeepen).symm

end Parser

end Reckoner
