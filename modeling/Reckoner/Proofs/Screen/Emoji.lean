import Mathlib.Data.List.ReduceOption
import Reckoner.Screen.Emoji

/-!
# Texts without emoji

A text in which nothing between two colons is the name of an emoji is shown as it is, however it is divided in parts. Where every
two colons have a blank between them, this is so on any console.
-/

namespace Reckoner.Markup

variable {cs more right : List Char}

theorem reduceOption_map_some (cs : List Char) : (cs.map some).reduceOption = cs := by
  rw [List.reduceOption, List.filterMap_map]
  exact List.filterMap_some

theorem reduceOption_replicate_some (count : Nat) (c : Char) :
    (List.replicate count (some c)).reduceOption = List.replicate count c := by
  rw [← List.map_replicate, reduceOption_map_some]

/-! ### Colons -/

/-- A text that begins with other characters has a character only behind them. -/
theorem exists_eq_append_of_notMem {c : Char} {front rest before after : List Char} (hnot : c ∉ front)
    (hsplit : front ++ rest = before ++ c :: after) : ∃ more, before = front ++ more ∧ rest = more ++ c :: after := by
  rcases List.append_eq_append_iff.1 hsplit with ⟨more, rfl, hrest⟩ | ⟨more, rfl, hmore⟩
  · exact ⟨more, rfl, hrest⟩
  · cases more with
    | nil => exact ⟨[], by rw [List.append_nil, List.append_nil], hmore.symm⟩
    | cons d more =>
      obtain ⟨rfl, -⟩ := List.cons.inj hmore
      exact absurd (List.mem_append_right _ List.mem_cons_self) hnot

/-- Neither a colon nor a blank, so that it can stand in a name. -/
def InName (c : Char) : Prop := c ≠ ':' ∧ Text.isBlank c = false

/-- Nothing between two colons is the name of an emoji. -/
def NamesNoEmoji [EmojiNames] (cs : List Char) : Prop :=
  ∀ before name after, cs = before ++ ':' :: (name ++ ':' :: after) → (∀ c ∈ name, InName c) → EmojiNames.emoji? name = none

/-- Every two colons have a blank between them. -/
def Apart (cs : List Char) : Prop :=
  ∀ before between after, cs = before ++ ':' :: (between ++ ':' :: after) → ∃ c ∈ between, Text.isBlank c

namespace Apart

theorem namesNoEmoji [EmojiNames] (hcs : Apart cs) : NamesNoEmoji cs := by
  intro before name after hsplit hname
  obtain ⟨c, hc, hblank⟩ := hcs before name after hsplit
  rw [(hname c hc).2] at hblank
  exact absurd hblank Bool.false_ne_true

theorem of_count_le_one (hcount : cs.count ':' ≤ 1) : Apart cs := by
  rintro before between after rfl
  simp only [List.count_append, List.count_cons_self] at hcount
  omega

theorem of_notMem (hcolon : ':' ∉ cs) : Apart cs :=
  of_count_le_one (by rw [List.count_eq_zero.2 hcolon]; exact Nat.zero_le 1)

theorem append_notMem (hcs : Apart cs) (hcolon : ':' ∉ more) : Apart (cs ++ more) := by
  intro before between after hsplit
  have hsplit : cs ++ more = (before ++ ':' :: between) ++ ':' :: after := by
    rw [hsplit, List.append_assoc, List.cons_append]
  rcases List.append_eq_append_iff.1 hsplit with ⟨inner, -, rfl⟩ | ⟨inner, rfl, hafter⟩
  · simp at hcolon
  · cases inner with
    | nil =>
      rw [List.nil_append] at hafter
      simp [← hafter] at hcolon
    | cons d inner =>
      obtain ⟨rfl, -⟩ := List.cons.inj hafter
      exact hcs before between inner (by rw [List.append_assoc, List.cons_append])

theorem notMem_append (hcolon : ':' ∉ more) (hcs : Apart cs) : Apart (more ++ cs) := by
  intro before between after hsplit
  obtain ⟨inner, -, hrest⟩ := exists_eq_append_of_notMem hcolon hsplit
  exact hcs inner between after hrest

/-- A colon with a blank behind it begins no name. -/
theorem colon_blank {c : Char} (hblank : Text.isBlank c) (hcs : Apart cs) : Apart (':' :: c :: cs) := by
  have hcolon : ':' ≠ c := by
    rintro rfl
    exact absurd hblank (by decide)
  intro before between after hsplit
  cases before with
  | nil =>
    have hbehind : c :: cs = between ++ ':' :: after := (List.cons.inj hsplit).2
    cases between with
    | nil => exact absurd (List.cons.inj hbehind).1.symm hcolon
    | cons d between =>
      obtain ⟨rfl, -⟩ := List.cons.inj hbehind
      exact ⟨c, List.mem_cons_self, hblank⟩
  | cons d before =>
    have hbehind : Apart ([c] ++ cs) := notMem_append (by simpa using hcolon) hcs
    exact hbehind before between after (List.cons.inj hsplit).2

end Apart

/-! ### What is shown -/

section Shown

variable [EmojiNames]

theorem NamesNoEmoji.of_append (left : List Char) (hcs : NamesNoEmoji (left ++ right)) : NamesNoEmoji right := by
  rintro before name after rfl hname
  exact hcs (left ++ before) name after (by rw [List.append_assoc]) hname

/-- Text in which there is no name is shown as it is. -/
theorem withEmoji_eq {name? : Option (List Char)} {parts : List (Option Char)} (hname : ∀ name ∈ name?, ∀ c ∈ name, InName c)
    (hcs : NamesNoEmoji (pending name? ++ parts.reduceOption)) :
    withEmoji name? parts = pending name? ++ parts.reduceOption := by
  have hnone : ∀ name ∈ (none : Option (List Char)), ∀ c ∈ name, InName c := fun _ hmem => absurd hmem (by simp)
  fun_induction withEmoji name? parts with
  | case1 name? => rw [List.reduceOption_nil, List.append_nil]
  | case2 name? rest ih =>
    rw [List.reduceOption_cons_of_none] at hcs ⊢
    rw [ih hnone (.of_append _ hcs)]
    rfl
  | case3 rest ih => exact ih (by simp) hcs
  | case4 c rest _ ih =>
    rw [List.reduceOption_cons_of_some] at hcs ⊢
    rw [ih hnone (.of_append [c] hcs)]
    rfl
  | case5 rest name ih =>
    rw [List.reduceOption_cons_of_some] at hcs ⊢
    have hunknown : EmojiNames.emoji? name = none := hcs [] name rest.reduceOption rfl (hname name rfl)
    have hrest : NamesNoEmoji rest.reduceOption := .of_append (pending (some name) ++ [':']) (by simpa using hcs)
    rw [hunknown, ih hnone hrest]
    simp [pending]
  | case6 c rest name _ _ ih =>
    rw [List.reduceOption_cons_of_some] at hcs ⊢
    have hrest : NamesNoEmoji rest.reduceOption := .of_append (pending (some name) ++ [c]) (by simpa using hcs)
    rw [ih hnone hrest]
    rfl
  | case7 c rest name hcolon hblank ih =>
    have hmore : ∀ more ∈ some (name ++ [c]), ∀ d ∈ more, InName d := by
      rintro more ⟨⟩
      exact List.forall_mem_append.2 ⟨hname name rfl, List.forall_mem_singleton.2 ⟨hcolon, Bool.eq_false_iff.2 hblank⟩⟩
    have hread : pending (some (name ++ [c])) ++ rest.reduceOption = pending (some name) ++ (some c :: rest).reduceOption := by
      simp [pending]
    rw [← hread] at hcs ⊢
    exact ih hmore hcs

end Shown

end Reckoner.Markup
