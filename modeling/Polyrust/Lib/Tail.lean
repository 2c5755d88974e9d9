import Mathlib.Data.List.DropRight
import Mathlib.Order.Basic

/-!
# The end of a list

What a bounded buffer holds of the list of all that was put in it: the last `n` elements
(`List.rtake`), or those from some point on. A test that every element passes from some point on
(`Onwards`) finds the same in the end of the list as in the list, as far as the end has room.
-/

section
variable {α : Type _} {l : List α} {n : Nat} {p : α → Bool}

/-- From an element that passes the test on, every element passes it. -/
def Onwards (p : α → Bool) (l : List α) : Prop := l.Pairwise fun x y => p x = true → p y = true

/-- The elements that pass such a test are at the end of the list. -/
theorem Onwards.filter_rtake (h : Onwards p l) (n : Nat) :
    (l.rtake n).filter p = (l.filter p).rtake n := by
  induction l using List.reverseRecOn generalizing n with
  | nil => simp
  | append_singleton l x ih =>
    obtain ⟨hl, -, hx⟩ := List.pairwise_append.1 h
    cases n with
    | zero => simp
    | succ n =>
      rw [List.rtake_concat_succ, List.filter_append, List.filter_append, ih hl]
      by_cases hpx : p x = true
      · rw [List.filter_cons_of_pos hpx, List.filter_nil, List.rtake_concat_succ]
      · have hnone : l.filter p = [] := by
          refine List.filter_eq_nil_iff.2 fun y hy hpy => hpx ?_
          exact hx y hy x (List.mem_singleton_self x) hpy
        rw [List.filter_cons_of_neg hpx, hnone]
        simp

/-- The first element to pass a test is the same in the whole list and in its end exactly when the
end has room for all that pass, or the first of those equals the first that there is room for. -/
theorem Onwards.find_rtake_iff (h : Onwards p l) :
    (l.rtake n).find? p = l.find? p ↔
      (l.filter p).length ≤ n ∨ (l.filter p)[(l.filter p).length - n]? = (l.filter p).head? := by
  rw [← List.head?_filter, ← List.head?_filter, h.filter_rtake, List.rtake, List.head?_drop]
  refine ⟨?_, ?_⟩
  · exact .inr
  · rintro (hle | he)
    · rw [Nat.sub_eq_zero_of_le hle, List.head?_eq_getElem?]
    · exact he

/-- Dropping elements as long as they fail such a test keeps those that pass it. -/
theorem Onwards.dropWhile_not (h : Onwards p l) : l.dropWhile (fun x => !p x) = l.filter p := by
  induction l with
  | nil => rfl
  | cons x l ih =>
    obtain ⟨hx, hl⟩ := List.pairwise_cons.1 h
    by_cases hpx : p x = true
    · have hall : ∀ y ∈ x :: l, p y = true := by
        intro y hy
        rcases List.mem_cons.1 hy with rfl | hy
        · exact hpx
        · exact hx y hy hpx
      rw [List.dropWhile_cons_of_neg (by simpa using hpx), List.filter_eq_self.2 hall]
    · rw [List.dropWhile_cons_of_pos (by simpa using hpx), List.filter_cons_of_neg hpx, ih hl]

/-- The end of a list without its first element, where it has as many as it can. -/
theorem drop_rtake_succ (l : List α) (n : Nat) :
    (l.rtake (n + 1)).drop ((l.rtake (n + 1)).length + 1 - (n + 1)) = l.rtake n := by
  simp only [List.rtake, List.drop_drop, List.length_drop]
  congr 1
  omega

/-- The end of a list ends with the same element, where it has room for one. -/
theorem getLast?_rtake_succ (l : List α) (n : Nat) : (l.rtake (n + 1)).getLast? = l.getLast? := by
  rcases List.eq_nil_or_concat l with rfl | ⟨l, x, rfl⟩
  · rw [List.rtake_nil]
  · rw [List.concat_eq_append, List.rtake_concat_succ, List.getLast?_concat, List.getLast?_concat]

/-- How many of the last items there are. -/
theorem length_rtake (l : List α) (n : Nat) : (l.rtake n).length = min l.length n := by
  rw [List.rtake, List.length_drop]
  omega

/-! ## Lists in order -/

variable {β : Type _} [Preorder β] (key : α → β)

/-- An element that comes after the last one comes after all. -/
theorem pairwise_lt_concat {x : α} (h : l.Pairwise fun y z => key y < key z)
    (hx : ∀ y, l.getLast? = some y → key y < key x) :
    (l ++ [x]).Pairwise fun y z => key y < key z := by
  refine List.pairwise_append.2 ⟨h, List.pairwise_singleton _ _, fun y hy z hz => ?_⟩
  obtain rfl := List.mem_singleton.1 hz
  rcases List.eq_nil_or_concat l with rfl | ⟨l, last, rfl⟩
  · cases hy
  rw [List.concat_eq_append] at h hx hy
  have hlast : key last < key z := hx last List.getLast?_concat
  rcases List.mem_append.1 hy with hy | hy
  · exact ((List.pairwise_append.1 h).2.2 y hy last (List.mem_singleton_self last)).trans hlast
  · rwa [List.mem_singleton.1 hy]

/-- The last element of a list in order is the greatest. -/
theorem le_getLast?_of_pairwise {x y : α} (h : l.Pairwise fun y z => key y < key z)
    (hx : l.getLast? = some x) (hy : y ∈ l) : key y ≤ key x := by
  obtain ⟨l, rfl⟩ := List.getLast?_eq_some_iff.1 hx
  rcases List.mem_append.1 hy with hy | hy
  · exact ((List.pairwise_append.1 h).2.2 y hy x (List.mem_singleton_self x)).le
  · rw [List.mem_singleton.1 hy]

/-- Of a list in order the first element to pass a test is the least one that passes it. -/
theorem find?_eq_some_iff_least {x : α} (h : l.Pairwise fun y z => key y < key z) :
    l.find? p = some x ↔ x ∈ l ∧ p x = true ∧ ∀ y ∈ l, p y = true → key x ≤ key y := by
  induction l with
  | nil => simp
  | cons z l ih =>
    obtain ⟨hz, hl⟩ := List.pairwise_cons.1 h
    by_cases hpz : p z = true
    · rw [List.find?_cons_of_pos hpz]
      refine ⟨?_, ?_⟩
      · intro he
        cases he
        refine ⟨List.mem_cons_self, hpz, fun y hy _ => ?_⟩
        rcases List.mem_cons.1 hy with rfl | hy
        · exact le_rfl
        · exact (hz y hy).le
      · rintro ⟨hx, -, hle⟩
        rcases List.mem_cons.1 hx with rfl | hx
        · rfl
        · exact absurd (hz x hx) (hle z List.mem_cons_self hpz).not_gt
    · rw [List.find?_cons_of_neg hpz, ih hl]
      refine ⟨?_, ?_⟩
      · rintro ⟨hx, hpx, hle⟩
        refine ⟨List.mem_cons_of_mem z hx, hpx, fun y hy hpy => ?_⟩
        rcases List.mem_cons.1 hy with rfl | hy
        · exact absurd hpy hpz
        · exact hle y hy hpy
      · rintro ⟨hx, hpx, hle⟩
        rcases List.mem_cons.1 hx with rfl | hx
        · exact absurd hpx hpz
        · exact ⟨hx, hpx, fun y hy => hle y (List.mem_cons_of_mem z hy)⟩

end
