import Mathlib.Data.List.TakeWhile
import Reckoner.Text.Trim

/-!
# Ends of trimmed lists

Trimming takes a run off an end of a list, and no more than that: it stops at an element that is wanted.
-/

namespace Reckoner.Text

variable {α : Type} {p : α → Bool} {x : α} {xs front back lead core trail : List α}

/-! ### Behind -/

theorem exists_eq_dropTrailing_append (p : α → Bool) (xs : List α) :
    ∃ run, xs = dropTrailing p xs ++ run ∧ ∀ x ∈ run, p x := by
  refine ⟨_, (dropTrailing_append_run p xs).symm, fun x hx => ?_⟩
  exact List.mem_takeWhile_imp (List.mem_reverse.1 hx)

theorem mem_of_mem_dropTrailing (hx : x ∈ dropTrailing p xs) : x ∈ xs := by
  obtain ⟨run, hxs, -⟩ := exists_eq_dropTrailing_append p xs
  rw [hxs]
  exact List.mem_append_left _ hx

theorem dropTrailing_append_of_pos (hback : ∀ x ∈ back, p x) : dropTrailing p (front ++ back) = dropTrailing p front := by
  rw [dropTrailing, List.reverse_append, List.dropWhile_append_of_pos fun x hx => hback x (List.mem_reverse.1 hx)]
  rfl

theorem dropTrailing_eq_nil (hall : ∀ x ∈ xs, p x) : dropTrailing p xs = [] := by
  show dropTrailing p ([] ++ xs) = []
  exact dropTrailing_append_of_pos hall

/-- Elements are dropped no further than to one that is wanted. -/
theorem dropTrailing_append (hfront : ∀ x ∈ front.getLast?, p x = false) (back : List α) :
    dropTrailing p (front ++ back) = front ++ dropTrailing p back := by
  have hkept : front.reverse.dropWhile p = front.reverse := by
    rw [← List.head?_reverse] at hfront
    cases hreverse : front.reverse with
    | nil => rfl
    | cons x rest =>
      rw [hreverse] at hfront
      exact List.dropWhile_cons_of_neg (by simp [hfront x rfl])
  rw [dropTrailing, dropTrailing, List.reverse_append, List.dropWhile_append]
  split
  · rename_i hnone
    rw [hkept, List.reverse_reverse, List.isEmpty_iff.1 hnone, List.reverse_nil, List.append_nil]
  · rw [List.reverse_append, List.reverse_reverse]

theorem dropTrailing_eq_self (hlast : ∀ x ∈ xs.getLast?, p x = false) : dropTrailing p xs = xs := by
  have hkept := dropTrailing_append hlast []
  rwa [List.append_nil, dropTrailing_eq_nil (List.forall_mem_nil _), List.append_nil] at hkept

/-! ### On both sides -/

theorem exists_eq_append_trim (p : α → Bool) (xs : List α) :
    ∃ lead trail, xs = lead ++ trim p xs ++ trail ∧ (∀ x ∈ lead, p x) ∧ ∀ x ∈ trail, p x := by
  obtain ⟨trail, hrest, htrail⟩ := exists_eq_dropTrailing_append p (xs.dropWhile p)
  refine ⟨xs.takeWhile p, trail, ?_, fun x hx => List.mem_takeWhile_imp hx, htrail⟩
  rw [trim, List.append_assoc, ← hrest, List.takeWhile_append_dropWhile]

theorem trim_append_of_pos (hlead : ∀ x ∈ lead, p x) (htrail : ∀ x ∈ trail, p x) :
    trim p (lead ++ core ++ trail) = trim p core := by
  rw [trim, List.append_assoc, List.dropWhile_append_of_pos hlead, List.dropWhile_append]
  split
  · rename_i hnone
    rw [List.dropWhile_eq_nil_iff.2 htrail, trim, List.isEmpty_iff.1 hnone]
  · rw [dropTrailing_append_of_pos htrail, trim]

theorem trim_append (hlead : ∀ x ∈ lead, p x) (hcore : ∀ x ∈ core, p x = false) (hsome : core ≠ [])
    (htrail : ∀ x ∈ trail, p x) : trim p (lead ++ core ++ trail) = core := by
  have hhead : (core ++ trail).dropWhile p = core ++ trail := by
    obtain ⟨x, more, rfl⟩ := List.exists_cons_of_ne_nil hsome
    exact List.dropWhile_cons_of_neg (by simp [hcore x List.mem_cons_self])
  rw [trim, List.append_assoc, List.dropWhile_append_of_pos hlead, hhead, dropTrailing_append_of_pos htrail,
    dropTrailing_eq_self fun x hx => hcore x (List.mem_of_getLast? hx)]

end Reckoner.Text
