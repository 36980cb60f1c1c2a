import Reckoner.Proofs.Grammar.Basic

/-!
# The grammar is unambiguous

Two derivations of one form from one text build the same tree, provided that neither could go on with the tokens behind
it. The text decides at each token: which token comes first, where a number ends, and whether a repetition goes on.
-/

namespace Reckoner

namespace Token

/-- The character of a token that is none of a literal. -/
def symbol? : Token → Option Char
  | number _ => none
  | operator joining => some joining.symbol
  | opening => some '('
  | closing => some ')'

theorem spelling_of_symbol? {token : Token} {c : Char} (hsymbol : token.symbol? = some c) : token.spelling = [c] := by
  cases token with
  | number numeral => exact absurd hsymbol (by simp [symbol?])
  | operator joining => rw [spelling, Option.some.inj hsymbol]
  | opening => rw [spelling, Option.some.inj hsymbol]
  | closing => rw [spelling, Option.some.inj hsymbol]

theorem not_isPart_of_symbol? {token : Token} {c : Char} (hsymbol : token.symbol? = some c) :
    Literal.isPart c = false := by
  cases token with
  | number numeral => exact absurd hsymbol (by simp [symbol?])
  | operator joining =>
    obtain rfl := Option.some.inj hsymbol
    cases joining <;> decide
  | opening =>
    obtain rfl := Option.some.inj hsymbol
    decide
  | closing =>
    obtain rfl := Option.some.inj hsymbol
    decide

/-- The token with a symbol, if there is one. -/
def ofSymbol? (c : Char) : Option Token :=
  if c = '(' then some opening
  else if c = ')' then some closing
  else ([.add, .sub, .mul, .div].find? fun joining : Operator => joining.symbol = c).map operator

theorem ofSymbol?_of_symbol? {token : Token} {c : Char} (hsymbol : token.symbol? = some c) :
    ofSymbol? c = some token := by
  cases token with
  | number numeral => exact absurd hsymbol (by simp [symbol?])
  | operator joining =>
    obtain rfl := Option.some.inj hsymbol
    cases joining <;> rfl
  | opening =>
    obtain rfl := Option.some.inj hsymbol
    rfl
  | closing =>
    obtain rfl := Option.some.inj hsymbol
    rfl

theorem eq_of_symbol? {left right : Token} {c : Char} (hleft : left.symbol? = some c) (hright : right.symbol? = some c) :
    left = right :=
  Option.some.inj ((ofSymbol?_of_symbol? hleft).symm.trans (ofSymbol?_of_symbol? hright))

end Token

namespace Spells

variable {token other : Token} {tokens others : List Token} {text : List Char}

theorem exists_numeral_head {numeral : Numeral} (htext : Spells (.number numeral :: tokens) text) :
    ∃ c ∈ (text.dropWhile Text.isBlank).head?, Literal.isPart c := by
  obtain ⟨rest, hdrop, -⟩ := htext.dropWhile_cons
  obtain ⟨digit, hmem, -⟩ := numeral.exists_isDigit
  obtain ⟨c, more, hrun⟩ := List.exists_cons_of_ne_nil (List.ne_nil_of_mem hmem)
  refine ⟨c, ?_, numeral.isPart_of_mem c (hrun ▸ List.mem_cons_self)⟩
  rw [hdrop, Token.spelling, hrun]
  rfl

/-- A text that begins with a symbol begins with no other token. -/
theorem eq_of_symbol {c : Char} (hsymbol : token.symbol? = some c) (htext : Spells (token :: tokens) text)
    (hother : Spells (other :: others) text) : other = token ∧ ∃ rest, Spells tokens rest ∧ Spells others rest := by
  obtain ⟨rest, hdrop, hrest⟩ := htext.dropWhile_symbol (Token.spelling_of_symbol? hsymbol)
  cases hcase : other.symbol? with
  | none =>
    cases other with
    | number numeral =>
      obtain ⟨d, hd, hpart⟩ := hother.exists_numeral_head
      rw [hdrop, List.head?_cons, Option.mem_some] at hd
      rw [← hd, Token.not_isPart_of_symbol? hsymbol] at hpart
      exact absurd hpart Bool.false_ne_true
    | operator => exact absurd hcase (by simp [Token.symbol?])
    | opening => exact absurd hcase (by simp [Token.symbol?])
    | closing => exact absurd hcase (by simp [Token.symbol?])
  | some d =>
    obtain ⟨rest', hdrop', hrest'⟩ := hother.dropWhile_symbol (Token.spelling_of_symbol? hcase)
    obtain ⟨rfl, rfl⟩ := List.cons.inj (hdrop.symm.trans hdrop')
    exact ⟨Token.eq_of_symbol? hcase hsymbol, rest, hrest, hrest'⟩

theorem exists_eq_cons_of_symbol {more : List Token} {c : Char} (hsymbol : token.symbol? = some c)
    (htext : Spells (token :: tokens) text) (hmore : Spells more text) : ∃ others, more = token :: others := by
  cases more with
  | nil =>
    obtain ⟨rest, hdrop, -⟩ := htext.dropWhile_symbol (Token.spelling_of_symbol? hsymbol)
    rw [hmore.dropWhile_nil] at hdrop
    exact absurd hdrop (by simp)
  | cons other others =>
    obtain ⟨rfl, -⟩ := eq_of_symbol hsymbol htext hmore
    exact ⟨others, rfl⟩

/-- A number at the start of a text is the whole run of literal characters there. -/
theorem numeral_eq {left right : Numeral} (hleft : Spells (.number left :: tokens) text)
    (hright : Spells (.number right :: others) text) (htokens : Form.factor.Ends tokens)
    (hothers : Form.factor.Ends others) : right = left ∧ ∃ rest, Spells tokens rest ∧ Spells others rest := by
  have hsplit : ∀ {numeral : Numeral} {more : List Token}, Spells (.number numeral :: more) text →
      Form.factor.Ends more → (text.dropWhile Text.isBlank).takeWhile Literal.isPart = numeral.run ∧
        Spells more ((text.dropWhile Text.isBlank).dropWhile Literal.isPart) := by
    intro numeral more htext hends
    obtain ⟨rest, hdrop, hrest⟩ := htext.dropWhile_cons
    have hhead := hrest.not_isPart_head hends
    rw [hdrop, Token.spelling, List.takeWhile_append_of_pos numeral.isPart_of_mem,
      List.dropWhile_append_of_pos numeral.isPart_of_mem]
    cases rest with
    | nil => exact ⟨List.append_nil _, hrest⟩
    | cons c rest =>
      have hc : ¬ Literal.isPart c = true := by simp [hhead c rfl]
      rw [List.takeWhile_cons_of_neg hc, List.dropWhile_cons_of_neg hc]
      exact ⟨List.append_nil _, hrest⟩
  obtain ⟨hrun, hrest⟩ := hsplit hleft htokens
  obtain ⟨hrun', hrest'⟩ := hsplit hright hothers
  exact ⟨Numeral.ext_run (hrun'.symm.trans hrun), _, hrest, hrest'⟩

end Spells

theorem Operator.Additive.not_multiplicative {operator : Operator} (hadditive : operator.Additive) :
    ¬ operator.Multiplicative := by
  rcases hadditive with rfl | rfl <;> simp [Operator.Multiplicative]

/-- A repetition of terms that may end before a text does not go on there. -/
theorem Spells.not_ends_expression {tokens more : List Token} {operator : Operator} {text : List Char}
    (htext : Spells (.operator operator :: tokens) text) (hmore : Spells more text) : ¬ Form.expression.Ends more := by
  obtain ⟨others, rfl⟩ := htext.exists_eq_cons_of_symbol rfl hmore
  exact id

/-- A repetition of factors that may end before a text does not go on there. -/
theorem Spells.not_ends_term {tokens more : List Token} {operator : Operator} {text : List Char}
    (hoperator : operator.Multiplicative) (htext : Spells (.operator operator :: tokens) text)
    (hmore : Spells more text) : ¬ Form.term.Ends more := by
  obtain ⟨others, rfl⟩ := htext.exists_eq_cons_of_symbol rfl hmore
  exact fun hadditive => hadditive.not_multiplicative hoperator

/-- The first derivation is followed by induction, and the second one cannot part from it. -/
theorem Derives.unique {form : Form} {lefts : List Token} {left : Phrase} (hleft : Derives form lefts left) :
    ∀ {rights more others : List Token} {right : Phrase} {text : List Char}, Derives form rights right →
      Spells (lefts ++ more) text → Spells (rights ++ others) text → form.Ends more → form.Ends others →
        right = left ∧ ∃ rest, Spells more rest ∧ Spells others rest := by
  induction hleft with
  | expression hfirst hothers ihfirst ihothers =>
    intro rights more others right text hright hspells hspells' hends hends'
    cases hright with
    | expression hfirst' hothers' =>
      rw [List.append_assoc] at hspells hspells'
      obtain ⟨rfl, middle, hmore, hmore'⟩ := ihfirst hfirst' hspells hspells' (hothers.ends_sums hends)
        (hothers'.ends_sums hends')
      exact ihothers hothers' hmore hmore' hends hends'
  | sumsEnd =>
    intro rights more others right text hright hspells hspells' hends hends'
    cases hright with
    | sumsEnd => exact ⟨rfl, text, hspells, hspells'⟩
    | sum hoperator' hright' hothers' => exact absurd hends (hspells'.not_ends_expression hspells)
  | sum hoperator hright hothers ihright ihothers =>
    intro rights more others right text hright' hspells hspells' hends hends'
    cases hright' with
    | sumsEnd => exact absurd hends' (hspells.not_ends_expression hspells')
    | sum hoperator' hright' hothers' =>
      rw [List.cons_append, List.append_assoc] at hspells hspells'
      obtain ⟨hsame, rest, hrest, hrest'⟩ := hspells.eq_of_symbol rfl hspells'
      obtain rfl := Token.operator.inj hsame
      obtain ⟨rfl, middle, hmore, hmore'⟩ := ihright hright' hrest hrest' (hothers.ends_sums hends)
        (hothers'.ends_sums hends')
      exact ihothers hothers' hmore hmore' hends hends'
  | term hfirst hothers ihfirst ihothers =>
    intro rights more others right text hright hspells hspells' hends hends'
    cases hright with
    | term hfirst' hothers' =>
      rw [List.append_assoc] at hspells hspells'
      obtain ⟨rfl, middle, hmore, hmore'⟩ := ihfirst hfirst' hspells hspells' (hothers.ends_products hends)
        (hothers'.ends_products hends')
      exact ihothers hothers' hmore hmore' hends hends'
  | productsEnd =>
    intro rights more others right text hright hspells hspells' hends hends'
    cases hright with
    | productsEnd => exact ⟨rfl, text, hspells, hspells'⟩
    | product hoperator' hright' hothers' => exact absurd hends (hspells'.not_ends_term hoperator' hspells)
  | product hoperator hright hothers ihright ihothers =>
    intro rights more others right text hright' hspells hspells' hends hends'
    cases hright' with
    | productsEnd => exact absurd hends' (hspells.not_ends_term hoperator hspells')
    | product hoperator' hright' hothers' =>
      rw [List.cons_append, List.append_assoc] at hspells hspells'
      obtain ⟨hsame, rest, hrest, hrest'⟩ := hspells.eq_of_symbol rfl hspells'
      obtain rfl := Token.operator.inj hsame
      obtain ⟨rfl, middle, hmore, hmore'⟩ := ihright hright' hrest hrest' (hothers.ends_products hends)
        (hothers'.ends_products hends')
      exact ihothers hothers' hmore hmore' hends hends'
  | parenthesized hinner ihinner =>
    intro rights more others right text hright hspells hspells' hends hends'
    rw [List.cons_append] at hspells
    cases hright with
    | parenthesized hinner' =>
      rw [List.cons_append] at hspells'
      obtain ⟨-, rest, hrest, hrest'⟩ := hspells.eq_of_symbol rfl hspells'
      rw [List.append_assoc] at hrest hrest'
      obtain ⟨rfl, after, hafter, hafter'⟩ := ihinner hinner' hrest hrest' trivial trivial
      obtain ⟨-, behind, hbehind, hbehind'⟩ := hafter.eq_of_symbol rfl hafter'
      exact ⟨rfl, behind, hbehind, hbehind'⟩
    | signed => exact absurd (hspells.eq_of_symbol rfl hspells').1 (by simp)
    | number => exact absurd (hspells.eq_of_symbol rfl hspells').1 (by simp)
  | @signed negative operands operand hoperand ihoperand =>
    intro rights more others right text hright hspells hspells' hends hends'
    rw [List.cons_append] at hspells
    cases hright with
    | parenthesized => exact absurd (hspells.eq_of_symbol rfl hspells').1 (by simp)
    | @signed negative' _ _ hoperand' =>
      obtain ⟨hsame, rest, hrest, hrest'⟩ := hspells.eq_of_symbol rfl hspells'
      obtain rfl : negative' = negative := by
        cases negative <;> cases negative' <;> first | rfl | exact absurd hsame (by simp)
      obtain ⟨rfl, after, hafter, hafter'⟩ := ihoperand hoperand' hrest hrest' hends hends'
      exact ⟨rfl, after, hafter, hafter'⟩
    | number => exact absurd (hspells.eq_of_symbol rfl hspells').1 (by simp)
  | number =>
    intro rights more others right text hright hspells hspells' hends hends'
    cases hright with
    | parenthesized => exact absurd (hspells'.eq_of_symbol rfl hspells).1 (by simp)
    | signed => exact absurd (hspells'.eq_of_symbol rfl hspells).1 (by simp)
    | number =>
      obtain ⟨rfl, hrest⟩ := hspells.numeral_eq hspells' hends hends'
      exact ⟨rfl, hrest⟩

/-- A text has at most one derivation tree. -/
theorem Phrase.DerivedFrom.unique {left right : Phrase} {text : List Char} (hleft : left.DerivedFrom text)
    (hright : right.DerivedFrom text) : right = left := by
  obtain ⟨lefts, hlefts, hderives⟩ := hleft
  obtain ⟨rights, hrights, hderives'⟩ := hright
  rw [← List.append_nil lefts] at hlefts
  rw [← List.append_nil rights] at hrights
  exact (hderives.unique hderives' hlefts hrights trivial trivial).1

end Reckoner
