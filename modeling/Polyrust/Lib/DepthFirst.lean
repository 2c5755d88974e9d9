import Mathlib.Data.List.FinRange
import Mathlib.Data.List.Lex
import Mathlib.Order.Fin.Basic

/-!
# Depth-first search

A search of a tree whose nodes have up to `n` children, some of which carry a label: the label of a
node before those below it, and the children in order. Paths from the root, ordered
lexicographically, are the nodes in the order of the search, so that a search finds the label at the
end of the least path that leads to one (`find_eq_some_iff`).
-/

namespace DepthFirst

section
variable {α β : Type _} {n : Nat} (child : α → Fin n → Option α) (label : α → Option β)

/-- The node at the end of a path. -/
def follow : α → List (Fin n) → Option α
  | a, [] => some a
  | a, i :: path => (child a i).bind (follow · path)

/-- The label at the end of a path. -/
def labelAt (a : α) (path : List (Fin n)) : Option β := (follow child a path).bind label

/-- The label at the end of the least path that leads to one. -/
def IsFirst (a : α) (b : β) : Prop :=
  ∃ path, labelAt child label a path = some b ∧
    ∀ path', path' < path → labelAt child label a path' = none

variable {child label} {a c : α} {b b' : β} {i : Fin n} {path : List (Fin n)}

@[simp] theorem labelAt_nil (a : α) : labelAt child label a [] = label a := rfl

/-- A path goes to a child first. -/
theorem labelAt_cons (a : α) (i : Fin n) (path : List (Fin n)) :
    labelAt child label a (i :: path) =
      (child a i).bind fun c => labelAt child label c path := by
  rw [labelAt, follow]
  cases child a i <;> rfl

/-- There is one such label at most. -/
theorem IsFirst.unique (h : IsFirst child label a b) (h' : IsFirst child label a b') : b = b' := by
  obtain ⟨path, hb, hfirst⟩ := h
  obtain ⟨path', hb', hfirst'⟩ := h'
  rcases lt_trichotomy path path' with hlt | rfl | hlt
  · cases hb.symm.trans (hfirst' path hlt)
  · exact Option.some.inj (hb.symm.trans hb')
  · cases hb'.symm.trans (hfirst path' hlt)

/-- A label at the root comes first. -/
theorem isFirst_of_label (h : label a = some b) : IsFirst child label a b :=
  ⟨[], h, fun path' hlt => absurd hlt (List.not_lt_nil path')⟩

/-- The first label below a node is that below the first child that has one. -/
theorem isFirst_of_child (hroot : label a = none) (hc : child a i = some c)
    (hbefore : ∀ j < i, ∀ path, labelAt child label a (j :: path) = none)
    (h : IsFirst child label c b) : IsFirst child label a b := by
  obtain ⟨path, hb, hfirst⟩ := h
  refine ⟨i :: path, ?_, fun path' hlt => ?_⟩
  · rw [labelAt_cons, hc]
    exact hb
  · cases path' with
    | nil => exact hroot
    | cons j path' =>
      rcases List.cons_lt_cons_iff.1 hlt with hj | ⟨rfl, hpath⟩
      · exact hbefore j hj path'
      · rw [labelAt_cons, hc]
        exact hfirst path' hpath

/-! ## The search -/

variable {find : α → Option β}

section
variable (hfind : ∀ a, find a =
  (label a).or ((List.finRange n).findSome? fun i => (child a i).bind find))

include hfind

/-- Where the search finds nothing, there is nothing. -/
theorem labelAt_of_find_none (h : find a = none) (path : List (Fin n)) :
    labelAt child label a path = none := by
  induction path generalizing a with
  | nil =>
    rw [hfind, Option.or_eq_none_iff] at h
    exact h.1
  | cons i path ih =>
    rw [hfind, Option.or_eq_none_iff, List.findSome?_eq_none_iff] at h
    have hi := h.2 i (List.mem_finRange i)
    rw [labelAt_cons]
    cases hc : child a i with
    | none => rfl
    | some c =>
      rw [hc] at hi
      exact ih hi

variable (size : α → Nat) (hsize : ∀ a i c, child a i = some c → size c < size a)

include hsize

/-- What the search finds is the first label. -/
theorem isFirst_of_find (h : find a = some b) : IsFirst child label a b := by
  -- by induction on the size of the tree
  induction hn : size a using Nat.strong_induction_on generalizing a b with
  | _ m ih =>
    rw [hfind] at h
    cases hl : label a with
    | some b' =>
      rw [hl] at h
      cases h
      exact isFirst_of_label hl
    | none =>
      rw [hl, Option.none_or, List.findSome?_eq_some_iff] at h
      obtain ⟨before, i, after, hrange, hi, hnone⟩ := h
      obtain ⟨c, hc, hfound⟩ := Option.bind_eq_some_iff.1 hi
      have hsorted : (before ++ i :: after).Pairwise (· < ·) := hrange ▸ List.pairwise_lt_finRange n
      refine isFirst_of_child hl hc (fun j hj path => ?_)
        (ih (size c) (hn ▸ hsize a i c hc) hfound rfl)
      -- a child before the one found has been searched
      have hmem : j ∈ before := by
        have hj' : j ∈ before ++ i :: after := hrange ▸ List.mem_finRange j
        rcases List.mem_append.1 hj' with hj' | hj'
        · exact hj'
        · rcases List.mem_cons.1 hj' with rfl | hj'
          · exact absurd hj (lt_irrefl j)
          · have := (List.pairwise_cons.1 (List.pairwise_append.1 hsorted).2.1).1 j hj'
            exact absurd hj this.not_gt
      have hjnone := hnone j hmem
      rw [labelAt_cons]
      cases hcj : child a j with
      | none => rfl
      | some d =>
        rw [hcj] at hjnone
        exact labelAt_of_find_none hfind hjnone path

/-- The search finds exactly the first label. -/
theorem find_eq_some_iff : find a = some b ↔ IsFirst child label a b := by
  refine ⟨isFirst_of_find hfind size hsize, fun h => ?_⟩
  cases hf : find a with
  | none =>
    obtain ⟨path, hb, -⟩ := h
    cases hb.symm.trans (labelAt_of_find_none hfind hf path)
  | some b' => rw [(isFirst_of_find hfind size hsize hf).unique h]

/-- The search finds something exactly when a path leads to a label. -/
theorem find_isSome_iff : (find a).isSome = true ↔ ∃ path, (labelAt child label a path).isSome := by
  refine ⟨?_, ?_⟩
  · intro h
    obtain ⟨b, hb⟩ := Option.isSome_iff_exists.1 h
    obtain ⟨path, hpath, -⟩ := isFirst_of_find hfind size hsize hb
    exact ⟨path, by rw [hpath]; rfl⟩
  · rintro ⟨path, hpath⟩
    by_contra hnone
    rw [labelAt_of_find_none hfind (Option.not_isSome_iff_eq_none.1 hnone)] at hpath
    cases hpath

end

end

end DepthFirst
