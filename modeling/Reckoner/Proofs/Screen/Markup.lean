import Reckoner.Proofs.Screen.Emoji
import Reckoner.Screen.Markup

/-!
# Escaped texts as mark-up

Mark-up shows an escaped text without the backslashes that stand right before an opening bracket that belongs to no tag.
Escaping leaves such a bracket and what stands before it alone, but mark-up takes one backslash there for its own. A text
that has no backslash in such a place, and no name of an emoji, is shown as it is.
-/

namespace Reckoner.Markup

variable {cs rest : List Char}

/-- Whether a text begins with an opening bracket that belongs to no tag. -/
def beginsLone : List Char → Bool
  | '[' :: rest => !opensTag rest
  | _ => false

/-- A text without the backslashes that stand right before an opening bracket that belongs to no tag. -/
def withoutLoneSlashes : List Char → List Char
  | [] => []
  | c :: rest => if c = '\\' ∧ beginsLone rest then withoutLoneSlashes rest else c :: withoutLoneSlashes rest

/-! ### Brackets of escaped texts -/

/-- Escaping adds only backslashes, which do not decide whether a bracket opens a tag. -/
theorem find?_escapeAfter (slashes : Nat) (cs : List Char) :
    (escapeAfter slashes cs).find? (fun d => d == '[' || d == ']') = cs.find? (fun d => d == '[' || d == ']') := by
  have hslashes (count : Nat) (rest : List Char) :
      (List.replicate count '\\' ++ rest).find? (fun d => d == '[' || d == ']') =
        rest.find? (fun d => d == '[' || d == ']') := by
    simp [List.find?_append]
  fun_induction escapeAfter slashes cs with
  | case1 slashes => simp
  | case2 slashes rest ih => rw [ih, List.find?_cons_of_neg (by decide)]
  | case3 slashes rest before ih => rw [hslashes, List.find?_cons_of_pos (by decide), List.find?_cons_of_pos (by decide)]
  | case4 slashes c rest _ _ ih => rw [hslashes, List.find?_cons, List.find?_cons, ih]

theorem escape_cons {c : Char} (hslash : c ≠ '\\') (hbracket : c ≠ '[') (rest : List Char) :
    escape (c :: rest) = c :: escape rest := by
  rw [escape, escapeAfter]
  · rfl
  · exact hslash
  · exact hbracket

theorem head?_escapeAfter_succ (slashes : Nat) (cs : List Char) : (escapeAfter (slashes + 1) cs).head? = some '\\' := by
  induction cs generalizing slashes with
  | nil => rfl
  | cons c rest ih =>
    by_cases hslash : c = '\\'
    · rw [hslash, escapeAfter]
      exact ih (slashes + 1)
    · by_cases hbracket : c = '['
      · rw [hbracket, escapeAfter]
        cases opensTag rest <;> rfl
      · rw [escapeAfter]
        · rfl
        · exact hslash
        · exact hbracket

/-- The bracket that ends a tag comes before any other one. -/
theorem find?_of_opensTag (htag : opensTag cs) : cs.find? (fun d => d == '[' || d == ']') = some ']' := by
  cases cs with
  | nil => exact absurd htag Bool.false_ne_true
  | cons c rest =>
    rw [opensTag, Bool.and_eq_true, beq_iff_eq] at htag
    have hbrackets : ['[', ']'].all fun c => !beginsTag c := by decide
    have hc : c ∉ ['[', ']'] := fun hmem => by simpa [htag.1] using List.all_eq_true.1 hbrackets c hmem
    rw [List.mem_cons, List.mem_singleton, not_or] at hc
    rw [List.find?_cons_of_neg (by simp [hc]), htag.2]

theorem opensTag_escape (cs : List Char) : opensTag (escape cs) = opensTag cs := by
  cases cs with
  | nil => rfl
  | cons c rest =>
    by_cases hslash : c = '\\'
    · -- A bracket before a backslash opens no tag, and a backslash comes first in either text.
      obtain ⟨more, hmore⟩ := List.head?_eq_some_iff.1 (head?_escapeAfter_succ 0 rest)
      rw [hslash, escape, escapeAfter, hmore]
      rfl
    · by_cases hbracket : c = '['
      · rw [hbracket, escape, escapeAfter]
        cases opensTag rest <;> rfl
      · rw [escape_cons hslash hbracket, opensTag, opensTag, escape, find?_escapeAfter]

/-! ### What is shown -/

theorem partsAfter_slashes (slashes count : Nat) (rest : List Char) :
    partsAfter slashes (List.replicate count '\\' ++ rest) = partsAfter (slashes + count) rest := by
  induction count generalizing slashes with
  | zero => rfl
  | succ count ih =>
    rw [List.replicate_succ, List.cons_append, partsAfter, ih]
    congr 1
    omega

/-- A tag that is shown has the characters that it has as a text, but makes a part of its own. -/
theorem reduceOption_partsAfter_of_closed (hclosed : cs.find? (fun d => d == '[' || d == ']') = some ']') (slashes : Nat) :
    (partsAfter slashes cs).reduceOption = List.replicate slashes '\\' ++ (partsInTag true cs).reduceOption := by
  induction cs generalizing slashes with
  | nil => exact absurd hclosed (by simp)
  | cons c rest ih =>
    by_cases hslash : c = '\\'
    · subst hslash
      rw [List.find?_cons_of_neg (by decide)] at hclosed
      rw [partsAfter, ih hclosed, partsInTag_cons (by decide), List.reduceOption_cons_of_some, List.replicate_succ',
        List.append_assoc]
      rfl
    · by_cases hopen : c = '['
      · rw [hopen, List.find?_cons_of_pos (by decide)] at hclosed
        exact absurd hclosed (by decide)
      · rw [partsAfter_cons hslash hopen, List.reduceOption_append, reduceOption_replicate_some,
          List.reduceOption_cons_of_some]
        by_cases hclose : c = ']'
        · rw [hclose, partsInTag, if_pos rfl, List.reduceOption_cons_of_some, List.reduceOption_cons_of_none]
        · rw [List.find?_cons_of_neg (by simp [hopen, hclose])] at hclosed
          rw [ih hclosed, partsInTag_cons hclose, List.reduceOption_cons_of_some]
          rfl

theorem beginsLone_slashes {count : Nat} (hsome : count ≠ 0) (rest : List Char) :
    beginsLone (List.replicate count '\\' ++ rest) = false := by
  obtain ⟨fewer, rfl⟩ := Nat.exists_eq_succ_of_ne_zero hsome
  rfl

theorem withoutLoneSlashes_slashes (count : Nat) (rest : List Char) :
    withoutLoneSlashes (List.replicate count '\\' ++ rest) =
      List.replicate (if beginsLone rest then count - 1 else count) '\\' ++ withoutLoneSlashes rest := by
  induction count with
  | zero => simp
  | succ count ih =>
    rw [List.replicate_succ, List.cons_append, withoutLoneSlashes, ih]
    by_cases hfirst : count = 0
    · subst hfirst
      cases hlone : beginsLone rest <;> simp [hlone]
    · rw [beginsLone_slashes hfirst]
      obtain ⟨fewer, rfl⟩ := Nat.exists_eq_succ_of_ne_zero hfirst
      cases beginsLone rest <;> rfl

theorem withoutLoneSlashes_cons {c : Char} (hslash : c ≠ '\\') (rest : List Char) :
    withoutLoneSlashes (c :: rest) = c :: withoutLoneSlashes rest := if_neg fun hc => hslash hc.1

theorem reduceOption_parts_escapeAfter (slashes : Nat) (cs : List Char) :
    (parts (escapeAfter slashes cs)).reduceOption = withoutLoneSlashes (List.replicate slashes '\\' ++ cs) := by
  have hempty (rest : List Char) : withoutLoneSlashes (List.replicate 0 '\\' ++ rest) = withoutLoneSlashes rest := rfl
  rw [parts]
  fun_induction escapeAfter slashes cs with
  | case1 slashes =>
    have hparts := partsAfter_slashes 0 slashes []
    rw [List.append_nil, partsAfter, Nat.zero_add] at hparts
    rw [hparts, withoutLoneSlashes_slashes, reduceOption_replicate_some]
    exact (List.append_nil _).symm
  | case2 slashes rest ih => rw [ih, List.replicate_succ', List.append_assoc, List.singleton_append]
  | case3 slashes rest before ih =>
    rw [← escape, hempty] at ih
    rw [partsAfter_slashes, Nat.zero_add, partsAfter, ← escape, opensTag_escape, withoutLoneSlashes_slashes,
      withoutLoneSlashes_cons (by decide), beginsLone, ← ih]
    by_cases htag : opensTag rest
    · -- The bracket of a tag is behind an odd number of backslashes, of which half are shown.
      have hodd : (2 * slashes + 1) % 2 = 1 := by omega
      have hhalf : (2 * slashes + 1) / 2 = slashes := by omega
      have hclosed := find?_of_opensTag htag
      rw [← find?_escapeAfter 0, ← escape] at hclosed
      have hinside := reduceOption_partsAfter_of_closed hclosed 0
      rw [List.replicate_zero, List.nil_append] at hinside
      simp [before, htag, hodd, hhalf, hinside, List.reduceOption_append, reduceOption_replicate_some]
    · simp [before, htag, List.reduceOption_append, reduceOption_replicate_some]
  | case4 slashes c rest hslash hbracket ih =>
    have hlone : beginsLone (c :: rest) = false := by
      rw [beginsLone]
      rintro _ hopen
      exact hbracket (List.cons.inj hopen).1
    rw [hempty] at ih
    rw [partsAfter_slashes, Nat.zero_add, partsAfter_cons hslash hbracket, List.reduceOption_append,
      reduceOption_replicate_some, List.reduceOption_cons_of_some, ih, withoutLoneSlashes_slashes, hlone,
      withoutLoneSlashes_cons hslash]
    rfl

theorem reduceOption_parts_escape (cs : List Char) : (parts (escape cs)).reduceOption = withoutLoneSlashes cs :=
  reduceOption_parts_escapeAfter 0 cs

section Shown

variable [EmojiNames]

theorem shown_eq (hnames : NamesNoEmoji (parts cs).reduceOption) : shown cs = (parts cs).reduceOption :=
  withEmoji_eq (fun _ hname => absurd hname (by simp)) hnames

/-- Text without brackets and names is shown as it is. -/
theorem shown_eq_self (hbracket : '[' ∉ cs) (hnames : NamesNoEmoji cs) : shown cs = cs := by
  have hparts : (parts cs).reduceOption = cs := by rw [parts_eq_map hbracket, reduceOption_map_some]
  rw [shown_eq (by rwa [hparts]), hparts]

/-- An escaped text is shown without the backslashes that stand right before an opening bracket that belongs to no tag. -/
theorem shown_escape_eq (hnames : NamesNoEmoji (withoutLoneSlashes cs)) : shown (escape cs) = withoutLoneSlashes cs := by
  rw [← reduceOption_parts_escape] at hnames ⊢
  exact shown_eq hnames

end Shown

/-! ### Texts that are shown as they are -/

/-- Every opening bracket right behind a backslash belongs to a tag. -/
def Faithful (cs : List Char) : Prop := ∀ before rest, cs = before ++ '\\' :: '[' :: rest → opensTag rest

theorem withoutLoneSlashes_sublist (cs : List Char) : (withoutLoneSlashes cs).Sublist cs := by
  fun_induction withoutLoneSlashes cs with
  | case1 => exact .slnil
  | case2 c rest hlone ih => exact ih.cons c
  | case3 c rest _ ih => exact ih.cons_cons c

theorem head?_withoutLoneSlashes (cs : List Char) :
    (withoutLoneSlashes cs).head? = cs.head? ∨ (withoutLoneSlashes cs).head? = some '[' := by
  cases cs with
  | nil => exact .inl rfl
  | cons c rest =>
    rw [withoutLoneSlashes]
    split
    · rename_i hlone
      have hbracket := hlone.2
      unfold beginsLone at hbracket
      split at hbracket
      · exact .inr (congrArg List.head? (withoutLoneSlashes_cons (by decide) _))
      · exact absurd hbracket Bool.false_ne_true
    · exact .inl rfl

theorem faithful_cons_iff {c : Char} : Faithful (c :: rest) ↔ ¬ (c = '\\' ∧ beginsLone rest) ∧ Faithful rest := by
  constructor
  · intro hfaithful
    refine ⟨?_, fun before behind hrest => hfaithful (c :: before) behind (by rw [hrest, List.cons_append])⟩
    rintro ⟨rfl, hlone⟩
    unfold beginsLone at hlone
    split at hlone
    · rename_i behind
      rw [hfaithful [] behind rfl] at hlone
      exact Bool.false_ne_true hlone
    · exact Bool.false_ne_true hlone
  · rintro ⟨hfirst, hrest⟩ before behind heq
    cases before with
    | nil =>
      obtain ⟨rfl, rfl⟩ := List.cons.inj heq
      cases htag : opensTag behind with
      | true => rfl
      | false => exact absurd ⟨rfl, by simp [beginsLone, htag]⟩ hfirst
    | cons _ before => exact hrest before behind (List.cons.inj heq).2

theorem withoutLoneSlashes_eq_self (hfaithful : Faithful cs) : withoutLoneSlashes cs = cs := by
  fun_induction withoutLoneSlashes cs with
  | case1 => rfl
  | case2 c rest hlone _ => exact absurd hlone (faithful_cons_iff.1 hfaithful).1
  | case3 c rest _ ih => rw [ih (faithful_cons_iff.1 hfaithful).2]

/-- Only a faithful text has all of its backslashes shown. -/
theorem faithful_of_count (hcount : (withoutLoneSlashes cs).count '\\' = cs.count '\\') : Faithful cs := by
  fun_induction withoutLoneSlashes cs with
  | case1 =>
    intro before behind heq
    simp at heq
  | case2 c rest hlone _ =>
    have hfewer := (withoutLoneSlashes_sublist rest).count_le '\\'
    rw [hlone.1, List.count_cons_self] at hcount
    omega
  | case3 c rest hkept ih =>
    refine faithful_cons_iff.2 ⟨hkept, ih ?_⟩
    rw [List.count_cons, List.count_cons] at hcount
    omega

theorem faithful_of_plain (hplain : '\\' ∉ cs ∨ '[' ∉ cs) : Faithful cs := by
  rintro before behind rfl
  rcases hplain with hslash | hbracket
  · simp at hslash
  · simp at hbracket

/-- Escaping keeps what is shown of a text without names that has no backslashes or no brackets. -/
theorem shown_escape [EmojiNames] (hplain : '\\' ∉ cs ∨ '[' ∉ cs) (hnames : NamesNoEmoji cs) : shown (escape cs) = cs := by
  have hkept := withoutLoneSlashes_eq_self (faithful_of_plain hplain)
  rw [shown_escape_eq (by rwa [hkept]), hkept]

end Reckoner.Markup
