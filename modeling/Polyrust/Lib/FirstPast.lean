import Mathlib.Data.List.Basic

/-!
# Searches and readings of a list

A search goes over the items of a list until one is found; some are passed over, and the others end
it (`FirstPast`). It is taken apart at the first item (`firstPast_cons`). A reading keeps what the
items stand for, and leaves out those that stand for nothing (`Collects`). Both say what the
functions on lists do by a relation between an item and what is found in it.
-/

/-- An item with a property, and before it items that are passed over. -/
def FirstPast {α : Type} (passed found : α → Prop) (l : List α) : Prop :=
  ∃ before a after, l = before ++ a :: after ∧ (∀ x ∈ before, passed x) ∧ found a

/-- Nothing is found in no list. -/
theorem firstPast_nil {α : Type} {passed found : α → Prop} : ¬FirstPast passed found [] := by
  rintro ⟨before, a, after, he, -⟩
  cases before <;> cases he

/-- The first item is found, or passed. -/
theorem firstPast_cons {α : Type} {passed found : α → Prop} {a : α} {l : List α} :
    FirstPast passed found (a :: l) ↔ found a ∨ passed a ∧ FirstPast passed found l := by
  refine ⟨?_, ?_⟩
  · rintro ⟨before, x, after, he, hbefore, hx⟩
    cases before with
    | nil =>
      cases he
      exact .inl hx
    | cons y before =>
      cases he
      obtain ⟨hy, hbefore⟩ := List.forall_mem_cons.1 hbefore
      exact .inr ⟨hy, before, x, after, rfl, hbefore, hx⟩
  · rintro (hx | ⟨ha, before, x, after, rfl, hbefore, hx⟩)
    · exact ⟨[], a, l, rfl, by simp, hx⟩
    · exact ⟨a :: before, x, after, rfl, List.forall_mem_cons.2 ⟨ha, hbefore⟩, hx⟩

/-- The first item that satisfies a test. -/
theorem find?_eq_some_iff_firstPast {α : Type} {p : α → Bool} {q : α → Prop}
    (hp : ∀ a, p a = true ↔ q a) {l : List α} {a : α} :
    l.find? p = some a ↔ FirstPast (fun x => ¬q x) (fun x => x = a ∧ q x) l := by
  rw [List.find?_eq_some_iff_append]
  refine ⟨?_, ?_⟩
  · rintro ⟨ha, before, after, rfl, hbefore⟩
    refine ⟨before, a, after, rfl, fun x hx hq => ?_, rfl, (hp a).1 ha⟩
    have hnot := hbefore x hx
    rw [(hp x).2 hq] at hnot
    cases hnot
  · rintro ⟨before, x, after, rfl, hbefore, rfl, hq⟩
    refine ⟨(hp x).2 hq, before, after, rfl, fun y hy => ?_⟩
    rw [Bool.not_eq_true', Bool.eq_false_iff]
    exact fun hy' => hbefore y hy ((hp y).1 hy')

/-- The first item that has a value. -/
theorem findSome?_eq_some_iff_firstPast {α β : Type} {f : α → Option β} {l : List α} {b : β} :
    l.findSome? f = some b ↔ FirstPast (f · = none) (f · = some b) l := by
  rw [List.findSome?_eq_some_iff]
  refine ⟨?_, ?_⟩
  · rintro ⟨before, a, after, rfl, ha, hbefore⟩
    exact ⟨before, a, after, rfl, hbefore, ha⟩
  · rintro ⟨before, a, after, rfl, hbefore, ha⟩
    exact ⟨before, a, after, rfl, ha, hbefore⟩

/-- What the items stand for, in their order. -/
inductive Collects {α β : Type} (R : α → β → Prop) : List α → List β → Prop where
  | nil : Collects R [] []
  | skip {a : α} {as : List α} {bs : List β} (ha : ∀ b, ¬R a b) (h : Collects R as bs) :
    Collects R (a :: as) bs
  | take {a : α} {b : β} {as : List α} {bs : List β} (ha : R a b) (h : Collects R as bs) :
    Collects R (a :: as) (b :: bs)

/-- A reading item by item. -/
theorem filterMap_eq_iff_collects {α β : Type} {R : α → β → Prop} {f : α → Option β}
    (hf : ∀ a b, f a = some b ↔ R a b) {as : List α} {bs : List β} :
    as.filterMap f = bs ↔ Collects R as bs := by
  refine ⟨?_, fun h => ?_⟩
  · rintro rfl
    induction as with
    | nil => exact .nil
    | cons a as ih =>
      cases ha : f a with
      | none =>
        rw [List.filterMap_cons_none ha]
        refine .skip (fun b hb => ?_) ih
        rw [(hf a b).2 hb] at ha
        cases ha
      | some b =>
        rw [List.filterMap_cons_some ha]
        exact .take ((hf a b).1 ha) ih
  · induction h with
    | nil => rfl
    | skip ha h ih =>
      rw [List.filterMap_cons_none, ih]
      exact Option.eq_none_iff_forall_ne_some.2 fun b hb => ha b ((hf _ b).1 hb)
    | take ha h ih => rw [List.filterMap_cons_some ((hf _ _).2 ha), ih]
