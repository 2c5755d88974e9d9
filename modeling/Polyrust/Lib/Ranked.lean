import Mathlib.Data.List.Induction
import Mathlib.Data.List.MinMax
import Mathlib.Data.List.Sort

/-!
# Ranked lists

Elements are collected into a list with strictly increasing keys; an element whose key is there
already is merged into the one that has it (`Ranked.insert`). Of a list that is cut to its first
`n` elements after every insertion nothing is lost that belongs to them (`take_insert`): what was
cut off has `n` elements before it for good. The first element is the least one of all
(`head?_eq_least`).
-/

namespace Ranked

section
variable {α K : Type _} [LinearOrder K] (key : α → K) (merge : α → α → α)

/-- The list with one more element. -/
def insert (x : α) : List α → List α
  | [] => [x]
  | y :: l =>
    if key x < key y then x :: y :: l
    else if key x = key y then merge y x :: l
    else y :: insert x l

/-- The elements collected one by one, in order. -/
def collect (xs : List α) : List α := xs.foldl (fun l x => insert key merge x l) []

/-- The elements merged one by one, in order. -/
def combine (xs : List α) : Option α := xs.foldl (fun o x => some (o.elim x (merge · x))) none

/-- The first of the elements that have the least key. -/
def least (xs : List α) : Option α := xs.argmin key

/-- The keys increase. -/
def Sorted (l : List α) : Prop := l.Pairwise fun x y => key x < key y

variable {key merge} {x : α} {l xs : List α} {k : K} {n : Nat}

@[simp] theorem collect_nil : collect key merge [] = [] := rfl

@[simp] theorem collect_concat (xs : List α) (x : α) :
    collect key merge (xs ++ [x]) = insert key merge x (collect key merge xs) := by
  rw [collect, List.foldl_append]
  rfl

@[simp] theorem combine_nil : combine merge ([] : List α) = none := rfl

@[simp] theorem combine_concat (xs : List α) (x : α) :
    combine merge (xs ++ [x]) = some ((combine merge xs).elim x (merge · x)) := by
  rw [combine, List.foldl_append]
  rfl

@[simp] theorem least_nil : least key ([] : List α) = none := rfl

@[simp] theorem least_concat (xs : List α) (x : α) :
    least key (xs ++ [x]) =
      some ((least key xs).elim x fun y => if key x < key y then x else y) := by
  rw [least, List.argmin_concat, least]
  cases xs.argmin key with
  | none => rfl
  | some y => exact (apply_ite some _ _ _).symm

/-- Only no items have no combination. -/
theorem combine_eq_none : combine merge xs = none ↔ xs = [] := by
  induction xs using List.reverseRecOn with
  | nil => simp
  | append_singleton xs x _ => simp

/-- An element of a new key makes the list longer by one. -/
theorem length_insert (h : key x ∉ l.map key) :
    (insert key merge x l).length = l.length + 1 := by
  induction l with
  | nil => rfl
  | cons y l ih =>
    rw [List.map_cons, List.mem_cons, not_or] at h
    rw [insert]
    split_ifs with hlt heq
    · rfl
    · exact absurd heq h.1
    · rw [List.length_cons, ih h.2, List.length_cons]

/-- An element of a key that is there already does not. -/
theorem length_insert_of_mem (hl : Sorted key l) (h : key x ∈ l.map key) :
    (insert key merge x l).length = l.length := by
  induction l with
  | nil => cases h
  | cons y l ih =>
    obtain ⟨hy, hl⟩ := List.pairwise_cons.1 hl
    rw [insert]
    split_ifs with hlt heq
    · obtain ⟨z, hz, hzx⟩ := List.mem_map.1 h
      rw [← hzx] at hlt
      rcases List.mem_cons.1 hz with rfl | hz
      · exact absurd hlt (lt_irrefl _)
      · exact absurd (hy z hz) hlt.not_gt
    · rfl
    · rw [List.length_cons, List.length_cons, ih hl]
      exact (List.mem_cons.1 h).resolve_left heq

/-- In a sorted list an element is found by its key. -/
theorem find_of_mem (hl : Sorted key l) (h : x ∈ l) :
    l.find? (fun y => key y = key x) = some x := by
  induction l with
  | nil => cases h
  | cons y l ih =>
    obtain ⟨hy, hl⟩ := List.pairwise_cons.1 hl
    rcases List.mem_cons.1 h with rfl | hmem
    · simp
    · rw [List.find?_cons_of_neg (by simpa using (hy x hmem).ne), ih hl hmem]

/-- The first element of a sorted list is the least of its elements, however they are listed. -/
theorem head?_eq_least (hl : Sorted key l) (hmem : ∀ y, y ∈ l ↔ y ∈ xs) :
    l.head? = least key xs := by
  rw [least]
  cases l with
  | nil =>
    have hxs : xs = [] := List.eq_nil_iff_forall_not_mem.2 fun y hy => by
      cases (hmem y).2 hy
    rw [hxs]
    rfl
  | cons y l =>
    have hy := (List.pairwise_cons.1 hl).1
    cases hm : xs.argmin key with
    | none =>
      have hmemy := (hmem y).1 (List.mem_cons_self ..)
      rw [List.argmin_eq_none.1 hm] at hmemy
      cases hmemy
    | some z =>
      have hle := List.le_of_mem_argmin ((hmem y).1 (List.mem_cons_self ..)) hm
      rcases List.mem_cons.1 ((hmem z).2 (List.argmin_mem hm)) with rfl | hz
      · rfl
      · exact absurd hle (hy z hz).not_ge

/-! ## The first elements -/

/-- What is cut off before an insertion would be cut off after it. -/
theorem take_insert (x : α) (l : List α) (n : Nat) :
    (insert key merge x (l.take n)).take n = (insert key merge x l).take n := by
  induction l generalizing n with
  | nil => rw [List.take_nil]
  | cons y l ih =>
    cases n with
    | zero => rw [List.take_zero, List.take_zero]
    | succ n =>
      rw [List.take_succ_cons, insert, insert]
      split_ifs
      · cases n <;> simp [List.take_take]
      · rw [List.take_succ_cons, List.take_succ_cons, List.take_take, min_self]
      · rw [List.take_succ_cons, List.take_succ_cons, ih]

/-! ## Keys -/

section
variable (hkey : ∀ y x, key (merge y x) = key y)
include hkey

/-- The keys after an insertion. -/
theorem mem_keys_insert : k ∈ (insert key merge x l).map key ↔ k = key x ∨ k ∈ l.map key := by
  induction l with
  | nil => simp [insert]
  | cons y l ih =>
    rw [insert]
    split_ifs with hlt heq
    · simp
    · simp [hkey, heq]
    · simp only [List.map_cons, List.mem_cons, ih]
      tauto

/-- An insertion keeps the order. -/
theorem Sorted.insert (h : Sorted key l) : Sorted key (insert key merge x l) := by
  induction l with
  | nil => exact List.pairwise_singleton _ x
  | cons y l ih =>
    obtain ⟨hy, hl⟩ := List.pairwise_cons.1 h
    rw [Ranked.insert]
    split_ifs with hlt heq
    · refine List.pairwise_cons.2 ⟨fun z hz => ?_, h⟩
      rcases List.mem_cons.1 hz with rfl | hz
      · exact hlt
      · exact hlt.trans (hy z hz)
    · refine List.pairwise_cons.2 ⟨fun z hz => ?_, hl⟩
      rw [hkey]
      exact hy z hz
    · refine List.pairwise_cons.2 ⟨fun z hz => ?_, ih hl⟩
      rcases (mem_keys_insert hkey).1 (List.mem_map_of_mem hz) with hzx | hzl
      · rw [hzx]
        exact lt_of_le_of_ne (not_lt.1 hlt) (Ne.symm heq)
      · obtain ⟨w, hw, hwz⟩ := List.mem_map.1 hzl
        rw [← hwz]
        exact hy w hw

/-- What was collected is sorted. -/
theorem sorted_collect (xs : List α) : Sorted key (collect key merge xs) := by
  induction xs using List.reverseRecOn with
  | nil => exact List.Pairwise.nil
  | append_singleton xs x ih =>
    rw [collect_concat]
    exact ih.insert hkey

/-- It has the keys of the elements. -/
theorem mem_keys_collect : k ∈ (collect key merge xs).map key ↔ k ∈ xs.map key := by
  induction xs using List.reverseRecOn with
  | nil => exact Iff.rfl
  | append_singleton xs x ih =>
    rw [collect_concat, mem_keys_insert hkey, ih]
    simp [or_comm]

/-! ## The element of a key -/

/-- The other keys find what they found. -/
theorem find_insert_ne (hk : key x ≠ k) :
    (insert key merge x l).find? (fun y => key y = k) = l.find? fun y => key y = k := by
  induction l with
  | nil => simp [insert, hk]
  | cons y l ih =>
    rw [insert]
    split_ifs with hlt heq
    · simp [hk]
    · rw [heq] at hk
      simp [hkey, hk]
    · rw [List.find?_cons, List.find?_cons, ih]

/-- The key finds the item, merged with what was there. -/
theorem find_insert_self (h : Sorted key l) :
    (insert key merge x l).find? (fun y => key y = key x) =
      some ((l.find? fun y => key y = key x).elim x (merge · x)) := by
  induction l with
  | nil => simp [insert]
  | cons y l ih =>
    obtain ⟨hy, hl⟩ := List.pairwise_cons.1 h
    rw [insert]
    split_ifs with hlt heq
    · have hnone : ((y :: l).find? fun z => key z = key x) = none := by
        refine List.find?_eq_none.2 fun z hz => ?_
        rcases List.mem_cons.1 hz with rfl | hz
        · simpa using hlt.ne'
        · simpa using (hlt.trans (hy z hz)).ne'
      rw [hnone]
      simp
    · simp [hkey, heq]
    · rw [List.find?_cons, List.find?_cons, ih hl]
      simp [Ne.symm heq]

/-- The element of a key is what the elements of that key make when they are merged. -/
theorem find_collect (xs : List α) (k : K) :
    (collect key merge xs).find? (fun y => key y = k) =
      combine merge (xs.filter fun y => key y = k) := by
  induction xs using List.reverseRecOn with
  | nil => rfl
  | append_singleton xs x ih =>
    rw [collect_concat, List.filter_append]
    by_cases hk : key x = k
    · subst hk
      rw [find_insert_self hkey (sorted_collect hkey xs), ih]
      simp
    · rw [find_insert_ne hkey hk, ih]
      simp [hk]

end

end

end Ranked
