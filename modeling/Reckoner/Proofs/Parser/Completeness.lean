import Reckoner.Proofs.Grammar.Basic
import Reckoner.Proofs.Parser.Stops

/-!
# What derives from the grammar is read

On a text that is spelled by the tokens of a phrase and then by further tokens with which the phrase cannot go on, a
reader without a limit reads that phrase, and leaves a text that the further tokens spell. The induction is on the
derivation; the loops are followed from the operand that has been read already.
-/

namespace Reckoner

namespace Operator

theorem additive?_symbol {operator : Operator} (hadditive : operator.Additive) :
    additive? operator.symbol = some operator := by
  rcases hadditive with rfl | rfl <;> rfl

theorem multiplicative?_symbol {operator : Operator} (hmultiplicative : operator.Multiplicative) :
    multiplicative? operator.symbol = some operator := by
  rcases hmultiplicative with rfl | rfl <;> rfl

theorem multiplicative?_symbol_of_additive {operator : Operator} (hadditive : operator.Additive) :
    multiplicative? operator.symbol = none := by
  rcases hadditive with rfl | rfl <;> rfl

end Operator

theorem Opening.ofChar?_parenthesis : ofChar? '(' = some parenthesis := rfl

theorem Opening.ofChar?_sign (negative : Bool) :
    ofChar? (Operator.symbol (if negative then .sub else .add)) = some (sign negative) := by
  cases negative <;> rfl

namespace Spells

variable {tokens : List Token} {text : List Char}

theorem dropWhile (htext : Spells tokens text) : Spells tokens (text.dropWhile Text.isBlank) := by
  cases tokens with
  | nil =>
    rw [htext.dropWhile_nil]
    exact .nil (by simp)
  | cons token tokens =>
    obtain ⟨rest, hdrop, hrest⟩ := htext.dropWhile_cons
    rw [hdrop]
    exact hrest.cons_spelling token

theorem additive?_head (htext : Spells tokens text) (hends : Form.expression.Ends tokens) :
    ∀ c ∈ (text.dropWhile Text.isBlank).head?, Operator.additive? c = none := by
  intro c hc
  match tokens with
  | [] =>
    rw [htext.dropWhile_nil] at hc
    exact absurd hc (by simp)
  | .closing :: _ =>
    obtain ⟨rest, hdrop, -⟩ := htext.dropWhile_symbol rfl
    rw [hdrop, List.head?_cons, Option.mem_some] at hc
    subst hc
    rfl

theorem multiplicative?_head (htext : Spells tokens text) (hends : Form.term.Ends tokens) :
    ∀ c ∈ (text.dropWhile Text.isBlank).head?, Operator.multiplicative? c = none := by
  intro c hc
  match tokens with
  | [] =>
    rw [htext.dropWhile_nil] at hc
    exact absurd hc (by simp)
  | .closing :: _ =>
    obtain ⟨rest, hdrop, -⟩ := htext.dropWhile_symbol rfl
    rw [hdrop, List.head?_cons, Option.mem_some] at hc
    subst hc
    rfl
  | .operator joining :: _ =>
    obtain ⟨rest, hdrop, -⟩ := htext.dropWhile_symbol rfl
    rw [hdrop, List.head?_cons, Option.mem_some] at hc
    subst hc
    exact Operator.multiplicative?_symbol_of_additive hends

end Spells

namespace Parser

variable {start : Cursor} {more : List Token}

/-- A reader has read a phrase, and left a text that further tokens spell. -/
def Reaches (outcome : Except Fault (Parsed start)) (tree : Phrase) (more : List Token) : Prop :=
  ∃ parsed, outcome = .ok parsed ∧ parsed.tree = tree.expression ∧ Spells more parsed.after.rest

/-- The reader for a form of phrases reads a phrase of this form; a loop does when its left operand is read. -/
def Completes : Form → List Token → Phrase → Prop
  | .expression, tokens, tree => ∀ nesting (start : Cursor) more, Spells (tokens ++ more) start.rest →
      Form.expression.Ends more → Reaches (expression none nesting start) tree more
  | .sums left, tokens, tree => ∀ nesting (start : Cursor) (operand : Parsed start) more,
      operand.tree = left.expression → Spells (tokens ++ more) operand.after.rest → Form.expression.Ends more →
        Reaches (sums none nesting operand) tree more
  | .term, tokens, tree => ∀ nesting (start : Cursor) more, Spells (tokens ++ more) start.rest →
      Form.term.Ends more → Reaches (term none nesting start) tree more
  | .products left, tokens, tree => ∀ nesting (start : Cursor) (operand : Parsed start) more,
      operand.tree = left.expression → Spells (tokens ++ more) operand.after.rest → Form.term.Ends more →
        Reaches (products none nesting operand) tree more
  | .factor, tokens, tree => ∀ nesting (start : Cursor) more, Spells (tokens ++ more) start.rest →
      Form.factor.Ends more → Reaches (factor none nesting start) tree more

theorem reaches_number {numeral : Numeral} (nesting : Nat) (hspells : Spells (.number numeral :: more) start.rest)
    (hends : Form.factor.Ends more) : Reaches (factor none nesting start) (.number numeral) more := by
  obtain ⟨rest, hdrop, hrest⟩ := hspells.dropWhile_cons
  change (start.skip Text.isBlank).rest = numeral.run ++ rest at hdrop
  obtain ⟨digit, hmem, -⟩ := numeral.exists_isDigit
  obtain ⟨first, others, hrun⟩ := List.exists_cons_of_ne_nil (List.ne_nil_of_mem hmem)
  have hhead : (start.skip Text.isBlank).take? Opening.ofChar? = none := by
    rw [Cursor.take?_eq_none_iff, hdrop, hrun]
    rintro c hc
    obtain rfl := Option.some.inj hc
    exact Opening.ofChar?_of_isPart (numeral.isPart_of_mem first (hrun ▸ List.mem_cons_self))
  -- The run ends with the numeral, since no literal character follows.
  have hstop : rest.takeWhile Literal.isPart = [] ∧ rest.dropWhile Literal.isPart = rest := by
    cases rest with
    | nil => exact ⟨rfl, rfl⟩
    | cons c rest =>
      have hc : ¬ Literal.isPart c = true := by simp [hrest.not_isPart_head hends c rfl]
      exact ⟨List.takeWhile_cons_of_neg hc, List.dropWhile_cons_of_neg hc⟩
  have htake : (start.skip Text.isBlank).rest.takeWhile Literal.isPart = first :: others := by
    rw [hdrop, List.takeWhile_append_of_pos numeral.isPart_of_mem, hstop.1, List.append_nil, hrun]
  obtain ⟨parsed, hread, htree, hafter⟩ := number_of_literal htake (hrun ▸ Literal.ofRun?_numeral numeral)
  refine ⟨_, by rw [factor_of_none hhead, hread]; rfl, htree, ?_⟩
  change Spells more parsed.after.rest
  rw [hafter, Cursor.skip, hdrop, List.dropWhile_append_of_pos numeral.isPart_of_mem, hstop.2]
  exact hrest

theorem reaches_signed {negative : Bool} {operands : List Token} {operand : Phrase} (nesting : Nat)
    (hoperand : Completes .factor operands operand)
    (hspells : Spells (.operator (if negative then .sub else .add) :: (operands ++ more)) start.rest)
    (hends : Form.factor.Ends more) : Reaches (factor none nesting start) (.signed negative operand) more := by
  obtain ⟨rest, hdrop, hrest⟩ := hspells.dropWhile_symbol rfl
  have hnext := (start.skip Text.isBlank).take?_of_rest_eq_cons hdrop (Opening.ofChar?_sign negative)
  obtain ⟨parsed, hread, htree, hmore⟩ := hoperand (nesting + 1) ⟨_, rest⟩ more hrest hends
  refine ⟨_, by rw [factor_of_sign hnext, deepen_none, ok_bind, Opening.cost, hread]; rfl, ?_, hmore⟩
  exact congrArg (Expression.signed negative) htree

theorem reaches_parenthesized {inners : List Token} {inner : Phrase} (nesting : Nat)
    (hinner : Completes .expression inners inner)
    (hspells : Spells (.opening :: (inners ++ .closing :: more)) start.rest) :
    Reaches (factor none nesting start) (.parenthesized inner) more := by
  obtain ⟨rest, hdrop, hrest⟩ := hspells.dropWhile_symbol rfl
  have hnext := (start.skip Text.isBlank).take?_of_rest_eq_cons hdrop Opening.ofChar?_parenthesis
  obtain ⟨parsed, hread, htree, hmore⟩ := hinner (nesting + 3) ⟨_, rest⟩ (.closing :: more) hrest trivial
  -- Behind the inner expression the blanks have been skipped, so that the parenthesis comes at once.
  obtain ⟨after, hafter, hclosed⟩ := hmore.dropWhile_symbol rfl
  have hskipped := Cursor.skip_of_head fun c hc => (endsExpression_of_expression hread c hc).1.1
  have hclosing : parsed.after.rest = ')' :: after := by
    rw [← hskipped]
    exact hafter
  obtain ⟨closed, hclose, hsame, hend⟩ := close_of_closing (start.skip Text.isBlank).position hclosing
  refine ⟨_, by rw [factor_of_parenthesis hnext, deepen_none, ok_bind, Opening.cost, hread, ok_bind, hclose]; rfl,
    hsame.trans htree, ?_⟩
  change Spells more closed.after.rest
  rw [hend]
  exact hclosed

theorem completes_of_derives {form : Form} {tokens : List Token} {tree : Phrase} (hderives : Derives form tokens tree) :
    Completes form tokens tree := by
  induction hderives with
  | expression hfirst hothers ihfirst ihothers =>
    intro nesting start more hspells hends
    rw [List.append_assoc] at hspells
    obtain ⟨first, hread, htree, hmore⟩ := ihfirst nesting start _ hspells (hothers.ends_sums hends)
    rw [expression_eq, hread]
    exact ihothers nesting start first more htree hmore hends
  | sumsEnd =>
    intro nesting start operand more htree hspells hends
    have hnext : operand.skipBlanks.after.take? Operator.additive? = none :=
      Cursor.take?_eq_none_iff.2 (hspells.additive?_head hends)
    exact ⟨_, sums_of_none hnext, htree, hspells.dropWhile⟩
  | sum hoperator hright hothers ihright ihothers =>
    intro nesting start operand more htree hspells hends
    rw [List.cons_append, List.append_assoc] at hspells
    obtain ⟨rest, hdrop, hrest⟩ := hspells.dropWhile_symbol rfl
    have hnext := operand.skipBlanks.after.take?_of_rest_eq_cons hdrop (Operator.additive?_symbol hoperator)
    obtain ⟨right, hread, hjoined, hmore⟩ := ihright nesting ⟨_, rest⟩ _ hrest (hothers.ends_sums hends)
    rw [sums_of_some hnext, hread]
    refine ihothers nesting start _ more ?_ hmore hends
    exact congrArg₂ (Expression.binary _) htree hjoined
  | term hfirst hothers ihfirst ihothers =>
    intro nesting start more hspells hends
    rw [List.append_assoc] at hspells
    obtain ⟨first, hread, htree, hmore⟩ := ihfirst nesting start _ hspells (hothers.ends_products hends)
    rw [term_eq, hread]
    exact ihothers nesting start first more htree hmore hends
  | productsEnd =>
    intro nesting start operand more htree hspells hends
    have hnext : operand.skipBlanks.after.take? Operator.multiplicative? = none :=
      Cursor.take?_eq_none_iff.2 (hspells.multiplicative?_head hends)
    exact ⟨_, products_of_none hnext, htree, hspells.dropWhile⟩
  | product hoperator hright hothers ihright ihothers =>
    intro nesting start operand more htree hspells hends
    rw [List.cons_append, List.append_assoc] at hspells
    obtain ⟨rest, hdrop, hrest⟩ := hspells.dropWhile_symbol rfl
    have hnext := operand.skipBlanks.after.take?_of_rest_eq_cons hdrop (Operator.multiplicative?_symbol hoperator)
    obtain ⟨right, hread, hjoined, hmore⟩ := ihright nesting ⟨_, rest⟩ _ hrest (hothers.ends_products hends)
    rw [products_of_some hnext, hread]
    refine ihothers nesting start _ more ?_ hmore hends
    exact congrArg₂ (Expression.binary _) htree hjoined
  | parenthesized hinner ihinner =>
    intro nesting start more hspells _
    rw [List.cons_append, List.append_assoc] at hspells
    exact reaches_parenthesized nesting ihinner hspells
  | signed hoperand ihoperand =>
    intro nesting start more hspells hends
    exact reaches_signed nesting ihoperand hspells hends
  | number =>
    intro nesting start more hspells hends
    exact reaches_number nesting hspells hends

end Parser

/-- Without a limit, a text that derives is read as the expression of its derivation tree. -/
theorem parse_of_derivedFrom {text : String} {phrase : Phrase} (hderived : phrase.DerivedFrom text.toList) :
    Expression.parse none text = .ok phrase.expression := by
  obtain ⟨tokens, hspells, hderives⟩ := hderived
  rw [← List.append_nil tokens] at hspells
  obtain ⟨parsed, hread, htree, hend⟩ :=
    Parser.completes_of_derives hderives 0 (.ofText text) [] hspells trivial
  have hskipped := Cursor.skip_of_head fun c hc => (Parser.endsExpression_of_expression hread c hc).1.1
  have hrest : parsed.after.rest = [] := by
    rw [← hskipped]
    exact hend.dropWhile_nil
  rw [Expression.parse, hread, ok_bind, hrest, ← htree]
  rfl

end Reckoner
