import Mathlib.Data.List.Forall2
import Mathlib.Data.List.Induction
import Mathlib.Order.Lattice
import Mathlib.Order.MinMax

/-!
# Running means

A mean of two values is between them and grows with each of them (`IsMean`). A running mean starts
at the first sample and is afterwards the mean of itself and the next sample (`Mean.record`), so it
stays between two of its samples and grows with every one of them.
-/

/-- `m` is between its arguments, and grows with both. -/
structure IsMean {α : Type _} [LinearOrder α] (m : α → α → α) : Prop where
  min_le : ∀ a x, min a x ≤ m a x
  le_max : ∀ a x, m a x ≤ max a x
  mono : ∀ {a a' x x'}, a ≤ a' → x ≤ x' → m a x ≤ m a' x'

/-- A mean is one in the reversed order too. -/
theorem IsMean.dual {α : Type _} [LinearOrder α] {m : α → α → α} (hm : IsMean m) :
    @IsMean αᵒᵈ _ m where
  min_le := hm.le_max
  le_max := hm.min_le
  mono ha hx := hm.mono ha hx

namespace Mean

section
variable {α : Type _} (m : α → α → α)

/-- The running mean after one more sample. -/
def record (avg : Option α) (x : α) : Option α := some (avg.elim x (m · x))

/-- The running mean of the samples, in order. -/
def running (samples : List α) : Option α := samples.foldl (record m) none

@[simp] theorem running_nil : running m [] = none := rfl

@[simp] theorem running_concat (samples : List α) (x : α) :
    running m (samples ++ [x]) = some ((running m samples).elim x (m · x)) := by
  rw [running, List.foldl_append]
  rfl

/-- The mean after a first sample. -/
theorem foldl_record_some (a : α) (samples : List α) :
    samples.foldl (record m) (some a) = some (samples.foldl m a) := by
  induction samples generalizing a with
  | nil => rfl
  | cons x samples ih => exact ih (m a x)

/-- The first sample is blended with the others. -/
theorem running_cons (x : α) (samples : List α) :
    running m (x :: samples) = some (samples.foldl m x) :=
  foldl_record_some m x samples

variable {m}

/-- There is a mean exactly when there is a sample. -/
theorem running_eq_none {samples : List α} : running m samples = none ↔ samples = [] := by
  cases samples with
  | nil => simp
  | cons x samples =>
    rw [running_cons]
    simp

variable [LinearOrder α]

/-- The running mean is no less than one of the samples. -/
theorem exists_le_running (hm : IsMean m) {samples : List α} {avg : α}
    (h : running m samples = some avg) : ∃ x ∈ samples, x ≤ avg := by
  induction samples using List.reverseRecOn generalizing avg with
  | nil => cases h
  | append_singleton samples x ih =>
    rw [running_concat] at h
    cases hr : running m samples with
    | none =>
      rw [hr] at h
      cases h
      exact ⟨x, by simp, le_rfl⟩
    | some a =>
      rw [hr] at h
      cases h
      obtain ⟨y, hy, hya⟩ := ih hr
      rcases min_le_iff.1 (hm.min_le a x) with ha | hx
      · exact ⟨y, by simp [hy], hya.trans ha⟩
      · exact ⟨x, by simp, hx⟩

/-- The running mean is no more than one of the samples. -/
theorem exists_running_le (hm : IsMean m) {samples : List α} {avg : α}
    (h : running m samples = some avg) : ∃ x ∈ samples, avg ≤ x :=
  @exists_le_running αᵒᵈ m _ hm.dual samples avg h

/-- Larger samples have a larger mean. -/
theorem foldl_mono (hm : IsMean m) {samples samples' : List α}
    (h : List.Forall₂ (· ≤ ·) samples samples') {a a' : α} (ha : a ≤ a') :
    samples.foldl m a ≤ samples'.foldl m a' := by
  induction h generalizing a a' with
  | nil => exact ha
  | cons hx _ ih => exact ih (hm.mono ha hx)

/-- Larger samples have a larger mean. -/
theorem running_mono (hm : IsMean m) {samples samples' : List α}
    (h : List.Forall₂ (· ≤ ·) samples samples') (a : α) :
    (running m samples).getD a ≤ (running m samples').getD a := by
  cases h with
  | nil => exact le_rfl
  | cons hx hrest =>
    rw [running_cons, running_cons]
    exact foldl_mono hm hrest hx

end

end Mean
