import Reckoner.Proofs.Parser.Equations
import Reckoner.Proofs.Sequencing

/-!
# Where reading stops

A term is read up to a character that is neither blank nor a multiplicative operator, and an expression up to one that is
no additive operator either. This is what makes a character left over behind an expression a fault.
-/

namespace Reckoner

/-- Not blank, and not an operator between factors. -/
def EndsTerm (c : Char) : Prop := Text.isBlank c = false ∧ Operator.multiplicative? c = none

/-- Not blank, and no operator. -/
def EndsExpression (c : Char) : Prop := EndsTerm c ∧ Operator.additive? c = none

theorem Cursor.head_skip (p : Char → Bool) (cursor : Cursor) : ∀ c ∈ (cursor.skip p).rest.head?, p c = false := by
  intro c hc
  have hhead := List.head?_dropWhile_not p cursor.rest
  change (cursor.rest.dropWhile p).head? = some c at hc
  rw [hc] at hhead
  simpa using hhead

theorem Cursor.isBlank_of_head_skip (cursor : Cursor) :
    ∀ c ∈ (cursor.skip Text.isBlank).rest.head?, Text.isBlank c = false :=
  cursor.head_skip Text.isBlank

theorem Cursor.skip_of_head {p : Char → Bool} {cursor : Cursor} (hhead : ∀ c ∈ cursor.rest.head?, p c = false) :
    cursor.skip p = cursor := by
  obtain ⟨position, rest⟩ := cursor
  cases rest with
  | nil => rfl
  | cons c rest =>
    have hc : ¬ p c = true := by simp [hhead c rfl]
    simp only [skip, List.takeWhile_cons_of_neg hc, List.dropWhile_cons_of_neg hc, List.length_nil, Nat.add_zero]

theorem Cursor.head_of_takeWhile_eq_nil {p : Char → Bool} {cursor : Cursor} (hrun : cursor.rest.takeWhile p = []) :
    ∀ c ∈ cursor.rest.head?, p c = false := by
  cases hrest : cursor.rest with
  | nil => exact nofun
  | cons c rest =>
    rintro _ ⟨⟩
    cases hpart : p c with
    | false => rfl
    | true =>
      rw [hrest, List.takeWhile_cons_of_pos hpart] at hrun
      exact absurd hrun (by simp)

namespace Parser

variable {limit : Option Nat} {nesting : Nat} {start next : Cursor}

/-- A loop goes on with less text to read. -/
theorem length_join_lt {classify : Char → Option Operator} {left : Parsed start} {operator : Operator}
    (hnext : left.skipBlanks.after.take? classify = some (operator, next)) (right : Parsed next) :
    (left.skipBlanks.join operator right (Cursor.length_rest_of_take? hnext)).after.rest.length <
      left.after.rest.length := by
  have htaken := Cursor.length_rest_of_take? hnext
  have hblanks := left.after.length_rest_skip_le Text.isBlank
  have hright := right.shorter
  dsimp only [Parsed.skipBlanks, Parsed.join, Parsed.within] at htaken ⊢
  omega

theorem endsTerm_of_products (left : Parsed start) {parsed : Parsed start}
    (hread : products limit nesting left = .ok parsed) : ∀ c ∈ parsed.after.rest.head?, EndsTerm c := by
  cases hnext : left.skipBlanks.after.take? Operator.multiplicative? with
  | none =>
    rw [products_of_none hnext] at hread
    obtain rfl := Except.ok.inj hread
    intro c hc
    exact ⟨left.after.isBlank_of_head_skip c hc, Cursor.take?_eq_none_iff.1 hnext c hc⟩
  | some taken =>
    obtain ⟨operator, next⟩ := taken
    rw [products_of_some hnext] at hread
    obtain ⟨right, -, hothers⟩ := bind_eq_ok_iff.1 hread
    exact endsTerm_of_products _ hothers
termination_by left.after.rest.length
decreasing_by exact length_join_lt hnext right

theorem endsTerm_of_term {parsed : Parsed start} (hread : term limit nesting start = .ok parsed) :
    ∀ c ∈ parsed.after.rest.head?, EndsTerm c := by
  rw [term_eq] at hread
  obtain ⟨first, -, hothers⟩ := bind_eq_ok_iff.1 hread
  exact endsTerm_of_products first hothers

theorem endsExpression_of_sums (left : Parsed start) {parsed : Parsed start}
    (hleft : ∀ c ∈ left.after.rest.head?, EndsTerm c) (hread : sums limit nesting left = .ok parsed) :
    ∀ c ∈ parsed.after.rest.head?, EndsExpression c := by
  cases hnext : left.skipBlanks.after.take? Operator.additive? with
  | none =>
    have hskip : left.skipBlanks.after = left.after := Cursor.skip_of_head fun c hc => (hleft c hc).1
    rw [sums_of_none hnext] at hread
    obtain rfl := Except.ok.inj hread
    intro c hc
    refine ⟨hleft c ?_, Cursor.take?_eq_none_iff.1 hnext c hc⟩
    rwa [hskip] at hc
  | some taken =>
    obtain ⟨operator, next⟩ := taken
    rw [sums_of_some hnext] at hread
    obtain ⟨right, hright, hothers⟩ := bind_eq_ok_iff.1 hread
    have hjoined : ∀ c ∈ right.after.rest.head?, EndsTerm c := endsTerm_of_term hright
    exact endsExpression_of_sums (left.skipBlanks.join operator right _) hjoined hothers
termination_by left.after.rest.length
decreasing_by exact length_join_lt hnext right

theorem endsExpression_of_expression {parsed : Parsed start} (hread : expression limit nesting start = .ok parsed) :
    ∀ c ∈ parsed.after.rest.head?, EndsExpression c := by
  rw [expression_eq] at hread
  obtain ⟨first, hfirst, hothers⟩ := bind_eq_ok_iff.1 hread
  exact endsExpression_of_sums first (endsTerm_of_term hfirst) hothers

end Parser

end Reckoner
