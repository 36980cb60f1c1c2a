import Mathlib.Algebra.Group.Nat.Defs
import Mathlib.Data.List.Basic
import Reckoner.Proofs.Text.Quoted

/-!
# Reading quoted texts back

A quoted text is read character by character up to the mark that it began with. No character before that is taken for the mark,
and every escape says by its first letter how long it is. So a quoted text is read back whatever stands behind it.
-/

namespace Reckoner.Text

variable {c mark : Char} {cs rest : List Char}

/-! ### Hexadecimal codes -/

/-- The value of a hexadecimal digit in lower case. -/
def hexadecimalValue (c : Char) : Nat := if c.isDigit then c.toNat - 48 else c.toNat - 87

/-- The number that hexadecimal digits stand for. -/
def ofHexadecimal (digits : List Char) : Nat := digits.foldl (fun value c => 16 * value + hexadecimalValue c) 0

theorem hexadecimalValue_digitChar : ∀ digit < 16, hexadecimalValue (Nat.digitChar digit) = digit := by decide

theorem ofHexadecimal_concat (digits : List Char) (c : Char) :
    ofHexadecimal (digits ++ [c]) = 16 * ofHexadecimal digits + hexadecimalValue c := by
  rw [ofHexadecimal, List.foldl_append]
  rfl

theorem ofHexadecimal_toDigits (n : Nat) : ofHexadecimal (Nat.toDigits 16 n) = n := by
  induction n using Nat.strongRecOn with
  | _ n ih =>
    rw [Nat.toDigits_eq_if (by decide)]
    split
    · rename_i hdigit
      exact (ofHexadecimal_concat [] _).trans (by rw [hexadecimalValue_digitChar n hdigit]; exact Nat.zero_add n)
    · rw [ofHexadecimal_concat, ih (n / 16) (by omega), hexadecimalValue_digitChar _ (Nat.mod_lt n (by decide))]
      omega

theorem ofHexadecimal_hexadecimal (width code : Nat) : ofHexadecimal (hexadecimal width code) = code := by
  have hzeros (count : Nat) : (List.replicate count '0').foldl (fun value c => 16 * value + hexadecimalValue c) 0 = 0 := by
    induction count with
    | zero => rfl
    | succ count ih => rwa [List.replicate_succ, List.foldl_cons]
  rw [hexadecimal, List.leftpad, ofHexadecimal, List.foldl_append, hzeros]
  exact ofHexadecimal_toDigits code

theorem length_hexadecimal {width code : Nat} (hwidth : 0 < width) (hcode : code < 16 ^ width) :
    (hexadecimal width code).length = width := by
  rw [hexadecimal, List.length_leftpad]
  exact Nat.max_eq_left ((Nat.length_toDigits_le_iff (by decide) hwidth).2 hcode)

/-! ### Single characters -/

/-- The character whose code is given by some digits in front, and what stands behind them. -/
def readCode (width : Nat) (cs : List Char) : Char × List Char :=
  (Char.ofNat (ofHexadecimal (cs.take width)), cs.drop width)

/-- The character that stands behind a backslash, as it is or by a letter or a code. -/
def readEscaped? : List Char → Option (Char × List Char)
  | [] => none
  | 't' :: rest => some ('\t', rest)
  | 'n' :: rest => some ('\n', rest)
  | 'r' :: rest => some ('\r', rest)
  | 'x' :: rest => some (readCode 2 rest)
  | 'u' :: rest => some (readCode 4 rest)
  | 'U' :: rest => some (readCode 8 rest)
  | c :: rest => some (c, rest)

def readCharacter? : List Char → Option (Char × List Char)
  | [] => none
  | '\\' :: rest => readEscaped? rest
  | c :: rest => some (c, rest)

theorem length_of_readCharacter? (hread : readCharacter? cs = some (c, rest)) : rest.length < cs.length := by
  have hescaped {cs : List Char} (hread : readEscaped? cs = some (c, rest)) : rest.length < cs.length := by
    unfold readEscaped? readCode at hread
    split at hread <;> simp only [Option.some.injEq, Prod.mk.injEq, reduceCtorEq] at hread <;> obtain ⟨-, rfl⟩ := hread <;>
      simp only [List.length_cons, List.length_drop] <;> omega
  unfold readCharacter? at hread
  split at hread
  · exact absurd hread (by simp)
  · exact Nat.lt_succ_of_lt (hescaped hread)
  · obtain ⟨-, rfl⟩ := Prod.mk.inj (Option.some.inj hread)
    exact Nat.lt_succ_self _

theorem readCode_hexadecimal {width : Nat} (hwidth : 0 < width) (hcode : c.toNat < 16 ^ width) (rest : List Char) :
    readCode width (hexadecimal width c.toNat ++ rest) = (c, rest) := by
  have hlength := length_hexadecimal hwidth hcode
  rw [readCode, List.take_left' hlength, List.drop_left' hlength, ofHexadecimal_hexadecimal, Char.ofNat_toNat]

theorem quoteMark_cases (cs : List Char) : quoteMark cs = '\'' ∨ quoteMark cs = '"' := by
  unfold quoteMark
  split
  · exact .inr rfl
  · exact .inl rfl

/-- A character is read back as it stands between marks. -/
theorem readCharacter?_escape (hmark : mark = '\'' ∨ mark = '"') (c : Char) (rest : List Char) :
    readCharacter? (escape mark c ++ rest) = some (c, rest) := by
  unfold escape
  split
  · rename_i hplain
    rcases hplain with rfl | rfl
    · rfl
    · rcases hmark with rfl | rfl <;> rfl
  · rename_i hplain
    split_ifs with htab hfeed hreturn hprintable htwo hfour
    · rw [htab]; rfl
    · rw [hfeed]; rfl
    · rw [hreturn]; rfl
    · rw [List.singleton_append, readCharacter?]
      exact fun hslash => hplain (.inl hslash)
    · show some (readCode 2 (hexadecimal 2 c.toNat ++ rest)) = _
      rw [readCode_hexadecimal (by decide) htwo]
    · show some (readCode 4 (hexadecimal 4 c.toNat ++ rest)) = _
      rw [readCode_hexadecimal (by decide) hfour]
    · show some (readCode 8 (hexadecimal 8 c.toNat ++ rest)) = _
      have hcode : c.toNat < 16 ^ 8 := UInt32.toNat_lt c.val
      rw [readCode_hexadecimal (by decide) hcode]

theorem head?_escape_ne (hmark : mark = '\'' ∨ mark = '"') (c : Char) (rest : List Char) :
    (escape mark c ++ rest).head? ≠ some mark := by
  have hslash : '\\' ≠ mark := by
    rintro rfl
    exact absurd hmark (by decide)
  unfold escape
  split
  · simpa using hslash
  · split_ifs <;> simp_all

/-! ### Texts -/

/-- A text up to a mark, and what stands behind the mark. -/
def readUntil? (mark : Char) (cs : List Char) : Option (List Char × List Char) :=
  if cs.head? = some mark then some ([], cs.tail)
  else
    match _ : readCharacter? cs with
    | none => none
    | some (c, rest) => (readUntil? mark rest).map fun read => (c :: read.1, read.2)
termination_by cs.length
decreasing_by exact length_of_readCharacter? ‹_›

/-- The text that is quoted in front, and what stands behind it. -/
def unquote? : List Char → Option (List Char × List Char)
  | [] => none
  | mark :: rest => if mark = '\'' ∨ mark = '"' then readUntil? mark rest else none

theorem readUntil?_escape (hmark : mark = '\'' ∨ mark = '"') (cs rest : List Char) :
    readUntil? mark (cs.flatMap (escape mark) ++ mark :: rest) = some (cs, rest) := by
  induction cs with
  | nil =>
    rw [readUntil?]
    exact if_pos rfl
  | cons c more ih =>
    have hread := readCharacter?_escape hmark c (more.flatMap (escape mark) ++ mark :: rest)
    rw [List.flatMap_cons, List.append_assoc, readUntil?, if_neg (head?_escape_ne hmark c _)]
    split
    · rename_i hnone
      exact absurd (hread.symm.trans hnone) (by simp)
    · rename_i d behind hsome
      obtain ⟨rfl, rfl⟩ := Prod.mk.inj (Option.some.inj (hread.symm.trans hsome))
      rw [ih]
      rfl

theorem unquote?_quoted (cs rest : List Char) : unquote? (quoted cs ++ rest) = some (cs, rest) := by
  have hmark := quoteMark_cases cs
  rw [quoted, List.cons_append, unquote?, if_pos hmark, List.append_assoc]
  exact readUntil?_escape hmark cs rest

end Reckoner.Text
