/-!
# Sequencing

How two steps that may fail come to a result: the first failure is the failure of both.
-/

namespace Reckoner

variable {ε α β : Type}

@[simp] theorem ok_bind (result : α) (next : α → Except ε β) : (Except.ok result >>= next) = next result := rfl

@[simp] theorem error_bind (fault : ε) (next : α → Except ε β) : (Except.error fault >>= next) = .error fault := rfl

theorem bind_eq_ok_iff {first : Except ε α} {next : α → Except ε β} {result : β} :
    first >>= next = .ok result ↔ ∃ middle, first = .ok middle ∧ next middle = .ok result := by
  cases first <;> simp

theorem bind_eq_error_iff {first : Except ε α} {next : α → Except ε β} {fault : ε} :
    first >>= next = .error fault ↔
      first = .error fault ∨ ∃ middle, first = .ok middle ∧ next middle = .error fault := by
  cases first <;> simp

theorem map_eq_error_iff {first : Except ε α} {next : α → β} {fault : ε} :
    first.map next = .error fault ↔ first = .error fault := by
  cases first <;> simp [Except.map]

theorem map_bind_eq {γ : Type} {first : Except ε α} {next : α → Except ε β} {after : β → γ} :
    (first >>= next).map after = first >>= fun middle => (next middle).map after := by
  cases first <;> rfl

@[simp] theorem mapError_ok {φ : Type} (result : α) (relabel : ε → φ) :
    (Except.ok result).mapError relabel = .ok result := rfl

theorem mapError_bind {φ : Type} {first : Except ε α} {next : α → Except ε β} {relabel : ε → φ} :
    (first >>= next).mapError relabel = first.mapError relabel >>= fun middle => (next middle).mapError relabel := by
  cases first <;> rfl

theorem mapError_eq_error_iff {φ : Type} {first : Except ε α} {relabel : ε → φ} {fault : φ} :
    first.mapError relabel = .error fault ↔ ∃ cause, first = .error cause ∧ relabel cause = fault := by
  cases first with
  | error cause =>
    change Except.error (relabel cause) = .error fault ↔ _
    simp
  | ok value => exact iff_of_false (by rintro ⟨⟩) (by simp)

theorem mapError_eq_ok_iff {φ : Type} {first : Except ε α} {relabel : ε → φ} {result : α} :
    first.mapError relabel = .ok result ↔ first = .ok result := by
  cases first with
  | error fault => exact iff_of_false (by rintro ⟨⟩) (by rintro ⟨⟩)
  | ok value =>
    constructor
    · rintro ⟨⟩
      rfl
    · rintro ⟨⟩
      rfl

end Reckoner
