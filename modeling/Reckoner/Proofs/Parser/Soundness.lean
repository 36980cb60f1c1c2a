import Reckoner.Proofs.Grammar.Basic
import Reckoner.Proofs.Parser.Equations
import Reckoner.Proofs.Sequencing

/-!
# What is read derives from the grammar

A reader that succeeds has gone over the tokens of a phrase, and its tree is the expression of that phrase. What it has
gone over is said by what it leaves: however the rest of the text is spelled, the tokens of the phrase in front of it
spell the text from the start on. With nothing left, the whole text derives.
-/

namespace Reckoner

/-- The text goes on with a phrase of a form, which stands for an expression, and then with a rest. -/
def Reads (form : Form) (text : List Char) (tree : Expression) (rest : List Char) : Prop :=
  ∃ tokens phrase, Derives form tokens phrase ∧ phrase.expression = tree ∧
    ∀ more, Spells more rest → Spells (tokens ++ more) text

namespace Reads

variable {form : Form} {text middle rest : List Char} {tree first right : Expression} {left : Phrase}

theorem of_dropWhile (hreads : Reads form (text.dropWhile Text.isBlank) tree rest) : Reads form text tree rest := by
  obtain ⟨tokens, phrase, hderives, htree, hspells⟩ := hreads
  exact ⟨tokens, phrase, hderives, htree, fun more hmore => (hspells more hmore).of_dropWhile⟩

theorem expression (hfirst : Reads .term text first middle)
    (hothers : ∀ phrase : Phrase, phrase.expression = first → Reads (.sums phrase) middle tree rest) :
    Reads .expression text tree rest := by
  obtain ⟨firsts, phrase, hphrase, hexpression, hspells⟩ := hfirst
  obtain ⟨others, whole, hwhole, htree, hmore⟩ := hothers phrase hexpression
  refine ⟨firsts ++ others, whole, .expression hphrase hwhole, htree, fun more hrest => ?_⟩
  rw [List.append_assoc]
  exact hspells _ (hmore more hrest)

theorem term (hfirst : Reads .factor text first middle)
    (hothers : ∀ phrase : Phrase, phrase.expression = first → Reads (.products phrase) middle tree rest) :
    Reads .term text tree rest := by
  obtain ⟨firsts, phrase, hphrase, hexpression, hspells⟩ := hfirst
  obtain ⟨others, whole, hwhole, htree, hmore⟩ := hothers phrase hexpression
  refine ⟨firsts ++ others, whole, .term hphrase hwhole, htree, fun more hrest => ?_⟩
  rw [List.append_assoc]
  exact hspells _ (hmore more hrest)

theorem sumsEnd : Reads (.sums left) text left.expression (text.dropWhile Text.isBlank) :=
  ⟨[], left, .sumsEnd, rfl, fun _ hmore => hmore.of_dropWhile⟩

theorem productsEnd : Reads (.products left) text left.expression (text.dropWhile Text.isBlank) :=
  ⟨[], left, .productsEnd, rfl, fun _ hmore => hmore.of_dropWhile⟩

theorem sum {operator : Operator} (hoperator : operator.Additive)
    (hright : Reads .term text right middle)
    (hothers : ∀ phrase : Phrase, phrase.expression = .binary operator left.expression right →
      Reads (.sums phrase) middle tree rest) :
    Reads (.sums left) (operator.symbol :: text) tree rest := by
  obtain ⟨rights, phrase, hphrase, rfl, hspells⟩ := hright
  obtain ⟨others, whole, hwhole, htree, hmore⟩ := hothers (.binary operator left phrase) rfl
  refine ⟨.operator operator :: (rights ++ others), whole, .sum hoperator hphrase hwhole, htree, fun more hrest => ?_⟩
  rw [List.cons_append, List.append_assoc]
  exact (hspells _ (hmore more hrest)).cons_spelling (.operator operator)

theorem product {operator : Operator} (hoperator : operator.Multiplicative)
    (hright : Reads .factor text right middle)
    (hothers : ∀ phrase : Phrase, phrase.expression = .binary operator left.expression right →
      Reads (.products phrase) middle tree rest) :
    Reads (.products left) (operator.symbol :: text) tree rest := by
  obtain ⟨rights, phrase, hphrase, rfl, hspells⟩ := hright
  obtain ⟨others, whole, hwhole, htree, hmore⟩ := hothers (.binary operator left phrase) rfl
  refine ⟨.operator operator :: (rights ++ others), whole, .product hoperator hphrase hwhole, htree,
    fun more hrest => ?_⟩
  rw [List.cons_append, List.append_assoc]
  exact (hspells _ (hmore more hrest)).cons_spelling (.operator operator)

theorem parenthesized (hinner : Reads .expression text tree (')' :: rest)) : Reads .factor ('(' :: text) tree rest := by
  obtain ⟨inners, inner, hderives, htree, hspells⟩ := hinner
  refine ⟨.opening :: (inners ++ [.closing]), .parenthesized inner, .parenthesized hderives, htree,
    fun more hrest => ?_⟩
  rw [List.cons_append, List.append_assoc]
  exact (hspells _ (hrest.cons_spelling .closing)).cons_spelling .opening

theorem signed {negative : Bool} {c : Char} (hsign : c = if negative then '-' else '+')
    (hoperand : Reads .factor text tree rest) : Reads .factor (c :: text) (.signed negative tree) rest := by
  obtain ⟨operands, operand, hderives, rfl, hspells⟩ := hoperand
  refine ⟨_, .signed negative operand, .signed hderives, rfl, fun more hrest => ?_⟩
  have hspelling := (hspells more hrest).cons_spelling (.operator (if negative then .sub else .add))
  subst hsign
  cases negative <;> exact hspelling

theorem number (numeral : Numeral) (rest : List Char) :
    Reads .factor (numeral.run ++ rest) (.literal numeral.literal) rest :=
  ⟨[.number numeral], .number numeral, .number, rfl, fun _ hrest => hrest.cons_spelling (.number numeral)⟩

end Reads

namespace Operator

theorem additive?_eq_some {c : Char} {operator : Operator} (hc : additive? c = some operator) :
    operator.Additive ∧ c = operator.symbol := by
  unfold additive? at hc
  split at hc
  · rename_i hplus
    obtain rfl := Option.some.inj hc
    exact ⟨.inl rfl, hplus⟩
  · split at hc
    · rename_i hminus
      obtain rfl := Option.some.inj hc
      exact ⟨.inr rfl, hminus⟩
    · exact absurd hc (by simp)

theorem multiplicative?_eq_some {c : Char} {operator : Operator} (hc : multiplicative? c = some operator) :
    operator.Multiplicative ∧ c = operator.symbol := by
  unfold multiplicative? at hc
  split at hc
  · rename_i htimes
    obtain rfl := Option.some.inj hc
    exact ⟨.inl rfl, htimes⟩
  · split at hc
    · rename_i hover
      obtain rfl := Option.some.inj hc
      exact ⟨.inr rfl, hover⟩
    · exact absurd hc (by simp)

end Operator

namespace Parser

theorem reads_of_number {start : Cursor} {parsed : Parsed start} (hread : number start = .ok parsed) :
    Reads .factor start.rest parsed.tree parsed.after.rest := by
  unfold number at hread
  split at hread
  · rename_i first others hrun
    split at hread
    · exact absurd hread (by simp)
    · rename_i literal hliteral
      obtain rfl := Except.ok.inj hread
      have hparts : ∀ c ∈ first :: others, Literal.isPart c := by
        rw [← hrun]
        exact fun c hc => List.mem_takeWhile_imp hc
      obtain ⟨numeral, hnumeral, rfl⟩ := Literal.exists_numeral_of_ofRun? hparts hliteral
      have hsplit := start.takeWhile_append_rest_skip Literal.isPart
      rw [hrun, ← hnumeral] at hsplit
      have hreads := Reads.number numeral (start.skip Literal.isPart).rest
      rw [hsplit] at hreads
      exact hreads
  · split at hread
    · exact absurd hread (by simp)
    · split at hread <;> exact absurd hread (by simp)

theorem rest_of_close {start : Cursor} {opened : Nat} {inner closed : Parsed start}
    (hclose : close opened inner = .ok closed) :
    closed.tree = inner.tree ∧ inner.after.rest = ')' :: closed.after.rest := by
  unfold close at hclose
  split at hclose
  · exact absurd hclose (by simp)
  · rename_i found rest hrest
    split at hclose
    · rename_i hfound
      obtain rfl := Except.ok.inj hclose
      exact ⟨rfl, hfound ▸ hrest⟩
    · exact absurd hclose (by simp)

/-- Every reader succeeds only on a phrase of its form, and the loops only on what continues their left operand. -/
theorem reads_of_ok (limit : Option Nat) :
    (∀ nesting start, ∀ parsed, expression limit nesting start = .ok parsed →
      Reads .expression start.rest parsed.tree parsed.after.rest) ∧
    (∀ nesting start (left : Parsed start), ∀ parsed, sums limit nesting left = .ok parsed →
      ∀ phrase : Phrase, phrase.expression = left.tree →
        Reads (.sums phrase) left.after.rest parsed.tree parsed.after.rest) ∧
    (∀ nesting start, ∀ parsed, term limit nesting start = .ok parsed →
      Reads .term start.rest parsed.tree parsed.after.rest) ∧
    (∀ nesting start (left : Parsed start), ∀ parsed, products limit nesting left = .ok parsed →
      ∀ phrase : Phrase, phrase.expression = left.tree →
        Reads (.products phrase) left.after.rest parsed.tree parsed.after.rest) ∧
    ∀ nesting start, ∀ parsed, factor limit nesting start = .ok parsed →
      Reads .factor start.rest parsed.tree parsed.after.rest := by
  -- in order: an expression, its loop at the end and at an operator, a term, its loop likewise, and the three factors
  apply expression.mutual_induct
  case case1 =>
    intro nesting start hterm hsums parsed hread
    rw [expression_eq] at hread
    obtain ⟨first, hfirst, hothers⟩ := bind_eq_ok_iff.1 hread
    exact (hterm first hfirst).expression (hsums first parsed hothers)
  case case2 =>
    intro nesting start left hnext parsed hread phrase htree
    rw [sums_of_none hnext] at hread
    obtain rfl := Except.ok.inj hread
    rw [Parsed.skipBlanks, ← htree]
    exact .sumsEnd
  case case3 =>
    intro nesting start left operator next hnext hterm hsums parsed hread phrase htree
    rw [sums_of_some hnext] at hread
    obtain ⟨right, hright, hothers⟩ := bind_eq_ok_iff.1 hread
    obtain ⟨c, hrest, hoperator, -⟩ := Cursor.rest_eq_cons_of_take? hnext
    obtain ⟨hadditive, rfl⟩ := Operator.additive?_eq_some hoperator
    apply Reads.of_dropWhile
    change left.after.rest.dropWhile Text.isBlank = _ at hrest
    rw [hrest]
    refine .sum hadditive (hterm right hright) fun joined hjoined => ?_
    exact hsums right parsed hothers joined (by rw [hjoined, htree]; rfl)
  case case4 =>
    intro nesting start hfactor hproducts parsed hread
    rw [term_eq] at hread
    obtain ⟨first, hfirst, hothers⟩ := bind_eq_ok_iff.1 hread
    exact (hfactor first hfirst).term (hproducts first parsed hothers)
  case case5 =>
    intro nesting start left hnext parsed hread phrase htree
    rw [products_of_none hnext] at hread
    obtain rfl := Except.ok.inj hread
    rw [Parsed.skipBlanks, ← htree]
    exact .productsEnd
  case case6 =>
    intro nesting start left operator next hnext hfactor hproducts parsed hread phrase htree
    rw [products_of_some hnext] at hread
    obtain ⟨right, hright, hothers⟩ := bind_eq_ok_iff.1 hread
    obtain ⟨c, hrest, hoperator, -⟩ := Cursor.rest_eq_cons_of_take? hnext
    obtain ⟨hmultiplicative, rfl⟩ := Operator.multiplicative?_eq_some hoperator
    apply Reads.of_dropWhile
    change left.after.rest.dropWhile Text.isBlank = _ at hrest
    rw [hrest]
    refine .product hmultiplicative (hfactor right hright) fun joined hjoined => ?_
    exact hproducts right parsed hothers joined (by rw [hjoined, htree]; rfl)
  case case7 =>
    intro nesting start here _ hnext parsed hread
    rw [factor_of_none hnext] at hread
    obtain ⟨operand, hoperand, hwithin⟩ := bind_eq_ok_iff.1 hread
    obtain rfl := Except.ok.inj hwithin
    exact (reads_of_number hoperand).of_dropWhile
  case case8 =>
    intro nesting start here _ next hnext hexpression parsed hread
    rw [factor_of_parenthesis hnext] at hread
    obtain ⟨deeper, -, hread⟩ := bind_eq_ok_iff.1 hread
    obtain ⟨inner, hinner, hread⟩ := bind_eq_ok_iff.1 hread
    obtain ⟨closed, hclose, hwithin⟩ := bind_eq_ok_iff.1 hread
    obtain rfl := Except.ok.inj hwithin
    obtain ⟨htree, hclosing⟩ := rest_of_close hclose
    obtain ⟨c, hrest, hopening, -⟩ := Cursor.rest_eq_cons_of_take? hnext
    obtain rfl := Opening.ofChar?_eq_parenthesis hopening
    have hreads := hexpression deeper inner hinner
    rw [hclosing, ← htree] at hreads
    apply Reads.of_dropWhile
    change start.rest.dropWhile Text.isBlank = _ at hrest
    rw [hrest]
    exact hreads.parenthesized
  case case9 =>
    intro nesting start here _ negative next hnext hfactor parsed hread
    rw [factor_of_sign hnext] at hread
    obtain ⟨deeper, -, hread⟩ := bind_eq_ok_iff.1 hread
    obtain ⟨operand, hoperand, hwithin⟩ := bind_eq_ok_iff.1 hread
    obtain rfl := Except.ok.inj hwithin
    obtain ⟨c, hrest, hopening, -⟩ := Cursor.rest_eq_cons_of_take? hnext
    apply Reads.of_dropWhile
    change start.rest.dropWhile Text.isBlank = _ at hrest
    rw [hrest]
    exact (hfactor deeper operand hoperand).signed (Opening.ofChar?_eq_sign hopening)

end Parser

/-- Whatever the limit, a text that is read derives, and its expression is that of the derivation tree. -/
theorem exists_derivedFrom_of_parse {limit : Option Nat} {text : String} {tree : Expression}
    (hparse : Expression.parse limit text = .ok tree) :
    ∃ phrase : Phrase, phrase.DerivedFrom text.toList ∧ phrase.expression = tree := by
  obtain ⟨parsed, hread, hend⟩ := bind_eq_ok_iff.1 hparse
  split at hend
  · rename_i hrest
    obtain rfl := Except.ok.inj hend
    obtain ⟨tokens, phrase, hderives, htree, hspells⟩ := (Parser.reads_of_ok limit).1 0 (.ofText text) parsed hread
    refine ⟨phrase, ⟨tokens, ?_, hderives⟩, htree⟩
    have hspelling := hspells [] (hrest ▸ .nil (by simp))
    rwa [List.append_nil] at hspelling
  · exact absurd hend (by simp [throw, throwThe, MonadExceptOf.throw])

end Reckoner
