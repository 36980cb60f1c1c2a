import Reckoner.Expression.Basic
import Reckoner.Proofs.Grammar.Numeral

/-!
# The grammar of expressions

    expression := term (('+' | '-') term)*
    term       := factor (('*' | '/') factor)*
    factor     := '(' expression ')' | ('-' | '+') factor | number

The grammar speaks of tokens, and `Spells` says how tokens are written: blanks may stand before and after every token,
and a token is written without any. A derivation builds the tree of what it derives, so that operators which bind
equally associate to the left. The two repetitions are forms of their own, which carry the tree built so far.
-/

namespace Reckoner

namespace Operator

def symbol : Operator → Char
  | add => '+'
  | sub => '-'
  | mul => '*'
  | div => '/'

def Additive (operator : Operator) : Prop := operator = add ∨ operator = sub

def Multiplicative (operator : Operator) : Prop := operator = mul ∨ operator = div

end Operator

inductive Token
  | number (numeral : Numeral)
  | operator (operator : Operator)
  | opening
  | closing

def Token.spelling : Token → List Char
  | number numeral => numeral.run
  | operator joining => [joining.symbol]
  | opening => ['(']
  | closing => [')']

/-- A text that consists of some tokens with any blanks before, between and behind them. -/
inductive Spells : List Token → List Char → Prop
  | nil {blanks : List Char} (hblanks : ∀ c ∈ blanks, Text.isBlank c) : Spells [] blanks
  | cons {blanks text : List Char} {token : Token} {tokens : List Token} (hblanks : ∀ c ∈ blanks, Text.isBlank c)
      (htext : Spells tokens text) : Spells (token :: tokens) (blanks ++ (token.spelling ++ text))

/-- A derivation tree, in which parentheses are kept and numbers are as they were written. -/
inductive Phrase
  | number (numeral : Numeral)
  | parenthesized (inner : Phrase)
  | signed (negative : Bool) (operand : Phrase)
  | binary (operator : Operator) (left right : Phrase)

namespace Phrase

/-- The value of a derivation tree, from its leaves upwards: a number stands for itself, parentheses change nothing, a minus
sign flips the sign, a plus sign keeps it, and the four operators are the four operations. -/
def value : Phrase → Binary64
  | number numeral => numeral.literal.value
  | parenthesized inner => inner.value
  | signed true operand => Binary64.neg operand.value
  | signed false operand => operand.value
  | binary .add left right => Binary64.add left.value right.value
  | binary .sub left right => Binary64.sub left.value right.value
  | binary .mul left right => Binary64.mul left.value right.value
  | binary .div left right => Binary64.div left.value right.value

/-- The expression that a derivation tree stands for. -/
def expression : Phrase → Expression
  | number numeral => .literal numeral.literal
  | parenthesized inner => inner.expression
  | signed negative operand => .signed negative operand.expression
  | binary operator left right => .binary operator left.expression right.expression

theorem value_signed (negative : Bool) (operand : Phrase) :
    (signed negative operand).value = if negative then operand.value.neg else operand.value := by
  cases negative <;> rfl

theorem value_binary (operator : Operator) (left right : Phrase) :
    (binary operator left right).value = operator.apply left.value right.value := by
  cases operator <;> rfl

/-- An expression has the value of any derivation tree that it stands for. -/
theorem value_expression (phrase : Phrase) : phrase.expression.value = phrase.value := by
  induction phrase with
  | number numeral => rfl
  | parenthesized inner ih => exact ih
  | signed negative operand ih => rw [expression, Expression.value, value_signed, ih]
  | binary operator left right ihleft ihright => rw [expression, Expression.value, value_binary, ihleft, ihright]

end Phrase

inductive Form
  | expression
  | sums (left : Phrase)
  | term
  | products (left : Phrase)
  | factor

inductive Derives : Form → List Token → Phrase → Prop
  | expression {firsts others : List Token} {first tree : Phrase} (hfirst : Derives .term firsts first)
      (hothers : Derives (.sums first) others tree) : Derives .expression (firsts ++ others) tree
  | sumsEnd {left : Phrase} : Derives (.sums left) [] left
  | sum {operator : Operator} {rights others : List Token} {left right tree : Phrase} (hoperator : operator.Additive)
      (hright : Derives .term rights right) (hothers : Derives (.sums (.binary operator left right)) others tree) :
      Derives (.sums left) (.operator operator :: (rights ++ others)) tree
  | term {firsts others : List Token} {first tree : Phrase} (hfirst : Derives .factor firsts first)
      (hothers : Derives (.products first) others tree) : Derives .term (firsts ++ others) tree
  | productsEnd {left : Phrase} : Derives (.products left) [] left
  | product {operator : Operator} {rights others : List Token} {left right tree : Phrase}
      (hoperator : operator.Multiplicative) (hright : Derives .factor rights right)
      (hothers : Derives (.products (.binary operator left right)) others tree) :
      Derives (.products left) (.operator operator :: (rights ++ others)) tree
  | parenthesized {inners : List Token} {inner : Phrase} (hinner : Derives .expression inners inner) :
      Derives .factor (.opening :: (inners ++ [.closing])) (.parenthesized inner)
  | signed {negative : Bool} {operands : List Token} {operand : Phrase} (hoperand : Derives .factor operands operand) :
      Derives .factor (.operator (if negative then .sub else .add) :: operands) (.signed negative operand)
  | number {numeral : Numeral} : Derives .factor [.number numeral] (.number numeral)

/-- Whether a text derives from the grammar as an expression with this tree. -/
def Phrase.DerivedFrom (tree : Phrase) (text : List Char) : Prop :=
  ∃ tokens, Spells tokens text ∧ Derives .expression tokens tree

/-! ### Where a phrase ends

The tokens that stand behind a phrase of some form in an expression are never those with which it could go on. -/

def Form.Ends (form : Form) : List Token → Prop
  | [] => True
  | .number _ :: _ => False
  | .opening :: _ => False
  | .closing :: _ => True
  | .operator operator :: _ =>
    match form with
    | .expression | .sums _ => False
    | .term | .products _ => operator.Additive
    | .factor => True

theorem Form.Ends.term_of_expression {more : List Token} (hends : Form.expression.Ends more) : Form.term.Ends more := by
  match more with
  | [] => trivial
  | .closing :: _ => trivial

theorem Form.Ends.factor_of_term {more : List Token} (hends : Form.term.Ends more) : Form.factor.Ends more := by
  match more with
  | [] => trivial
  | .closing :: _ => trivial
  | .operator _ :: _ => trivial

theorem Derives.ends_sums {left tree : Phrase} {others more : List Token} (hothers : Derives (.sums left) others tree)
    (hends : Form.expression.Ends more) : Form.term.Ends (others ++ more) := by
  cases hothers with
  | sumsEnd => exact hends.term_of_expression
  | sum hoperator => exact hoperator

theorem Derives.ends_products {left tree : Phrase} {others more : List Token}
    (hothers : Derives (.products left) others tree) (hends : Form.term.Ends more) :
    Form.factor.Ends (others ++ more) := by
  cases hothers with
  | productsEnd => exact hends.factor_of_term
  | product => trivial

/-! ### Reading tokens off a text -/

theorem Spells.append_blanks {tokens : List Token} {blanks text : List Char} (hblanks : ∀ c ∈ blanks, Text.isBlank c)
    (htext : Spells tokens text) : Spells tokens (blanks ++ text) := by
  cases htext with
  | nil hmore => exact .nil (List.forall_mem_append.2 ⟨hblanks, hmore⟩)
  | cons hmore hrest =>
    rw [← List.append_assoc]
    exact .cons (List.forall_mem_append.2 ⟨hblanks, hmore⟩) hrest

theorem Spells.of_dropWhile {tokens : List Token} {text : List Char}
    (htext : Spells tokens (text.dropWhile Text.isBlank)) : Spells tokens text := by
  rw [← List.takeWhile_append_dropWhile (p := Text.isBlank) (l := text)]
  exact htext.append_blanks fun c hc => List.mem_takeWhile_imp hc

theorem Spells.cons_spelling {tokens : List Token} {text : List Char} (htext : Spells tokens text) (token : Token) :
    Spells (token :: tokens) (token.spelling ++ text) := by
  rw [← List.nil_append (token.spelling ++ text)]
  exact .cons (by simp) htext

theorem Token.exists_spelling_eq_cons (token : Token) :
    ∃ c more, token.spelling = c :: more ∧ Text.isBlank c = false := by
  match token with
  | .number numeral =>
    obtain ⟨digit, hmem, -⟩ := numeral.exists_isDigit
    obtain ⟨c, more, hrun⟩ := List.exists_cons_of_ne_nil (List.ne_nil_of_mem hmem)
    exact ⟨c, more, hrun, Literal.isBlank_of_isPart (numeral.isPart_of_mem c (hrun ▸ List.mem_cons_self))⟩
  | .operator joining => exact ⟨joining.symbol, [], rfl, by cases joining <;> decide⟩
  | .opening => exact ⟨'(', [], rfl, by decide⟩
  | .closing => exact ⟨')', [], rfl, by decide⟩

theorem Spells.dropWhile_nil {text : List Char} (htext : Spells [] text) : text.dropWhile Text.isBlank = [] := by
  cases htext with
  | nil hblanks => exact List.dropWhile_eq_nil_iff.2 hblanks

theorem Spells.dropWhile_cons {token : Token} {tokens : List Token} {text : List Char}
    (htext : Spells (token :: tokens) text) :
    ∃ rest, text.dropWhile Text.isBlank = token.spelling ++ rest ∧ Spells tokens rest := by
  cases htext with
  | @cons blanks rest _ _ hblanks hrest =>
    obtain ⟨c, more, hspelling, hblank⟩ := token.exists_spelling_eq_cons
    refine ⟨rest, ?_, hrest⟩
    rw [List.dropWhile_append_of_pos hblanks, hspelling, List.cons_append,
      List.dropWhile_cons_of_neg (by rw [hblank]; exact Bool.false_ne_true)]

theorem Spells.dropWhile_symbol {token : Token} {tokens : List Token} {text : List Char} {c : Char}
    (htext : Spells (token :: tokens) text) (hspelling : token.spelling = [c]) :
    ∃ rest, text.dropWhile Text.isBlank = c :: rest ∧ Spells tokens rest := by
  obtain ⟨rest, hdrop, hrest⟩ := htext.dropWhile_cons
  rw [hspelling] at hdrop
  exact ⟨rest, hdrop, hrest⟩

/-- Behind a factor no literal character follows directly, so that a number is written by a whole run of them. -/
theorem Spells.not_isPart_head {tokens : List Token} {text : List Char} (htext : Spells tokens text)
    (hends : Form.factor.Ends tokens) : ∀ c ∈ text.head?, Literal.isPart c = false := by
  have hfirst : ∀ c, (text.dropWhile Text.isBlank).head? = some c → Literal.isPart c = false := by
    intro c hc
    match tokens with
    | [] =>
      rw [htext.dropWhile_nil] at hc
      exact absurd hc (by simp)
    | .closing :: _ =>
      obtain ⟨rest, hdrop, -⟩ := htext.dropWhile_symbol rfl
      rw [hdrop, List.head?_cons, Option.some_inj] at hc
      subst hc
      decide
    | .operator joining :: _ =>
      obtain ⟨rest, hdrop, -⟩ := htext.dropWhile_symbol rfl
      rw [hdrop, List.head?_cons, Option.some_inj] at hc
      subst hc
      cases joining <;> decide
  match text with
  | [] => simp
  | c :: rest =>
    intro d hd
    obtain rfl : c = d := Option.some.inj hd
    cases hc : Text.isBlank c with
    | true => exact Literal.isPart_of_isBlank hc
    | false => exact hfirst c (by rw [List.dropWhile_cons_of_neg (by simp [hc])]; rfl)

end Reckoner
