import Polyrust.Lib.Arith

/-!
# Computations that are refused, return or abort

`ExceptT ε (Except δ) α` is a computation that aborts the program (`δ`), is refused with an error of
its own (`ε`), or returns. `Refuses` and `Returns` are two of the three outcomes, with one rule for
each way to build such a computation; `Ensures` says what every result satisfies.

A list of checks, each of which may abort, is refused when the first check that does not pass is one
that fails (`FirstFails`). `Checks x c` says that the check `c` is what decides whether `x` is
refused; a sequence of such steps is refused when the list of their checks is
(`refuses_bind_checks`).
-/

namespace ExceptT

section
variable {ε δ α β : Type}

/-- The computation returns an error of its own. -/
def Refuses (x : ExceptT ε (Except δ) α) : Prop := ∃ e, x.run = .ok (.error e)

/-- The computation returns the value. -/
def Returns (x : ExceptT ε (Except δ) α) (a : α) : Prop := x.run = .ok (.ok a)

/-- Two steps are refused if one of them is. -/
theorem refuses_bind {x : ExceptT ε (Except δ) α} {f : α → ExceptT ε (Except δ) β} :
    (x >>= f).Refuses ↔ x.Refuses ∨ ∃ a, x.Returns a ∧ (f a).Refuses := by
  unfold Refuses Returns
  rw [ExceptT.run_bind]
  cases x.run with
  | error d => simp [bind, Except.bind]
  | ok r => cases r <;> simp [bind, Except.bind, pure, Except.pure]

/-- A value is not refused. -/
theorem refuses_pure {a : α} : ¬ (pure a : ExceptT ε (Except δ) α).Refuses := by
  rintro ⟨e, h⟩
  cases h

/-- Two steps return what the second one returns of the result of the first. -/
theorem returns_bind {x : ExceptT ε (Except δ) α} {f : α → ExceptT ε (Except δ) β} {b : β} :
    (x >>= f).Returns b ↔ ∃ a, x.Returns a ∧ (f a).Returns b := by
  unfold Returns
  rw [ExceptT.run_bind]
  cases x.run with
  | error d => simp [bind, Except.bind]
  | ok r => cases r <;> simp [bind, Except.bind, pure, Except.pure]

/-- Whatever the computation returns satisfies `p`. -/
def Ensures (p : α → Prop) (x : ExceptT ε (Except δ) α) : Prop := ∀ a, x.Returns a → p a

/-- In a sequence the second part may rely on what the first part ensures. -/
theorem ensures_bind {p : α → Prop} {q : β → Prop} {x : ExceptT ε (Except δ) α}
    {f : α → ExceptT ε (Except δ) β} (hx : x.Ensures p) (hf : ∀ a, p a → (f a).Ensures q) :
    (x >>= f).Ensures q := by
  intro b hb
  obtain ⟨a, ha, hb⟩ := returns_bind.1 hb
  exact hf a (hx a ha) b hb

/-- What holds of a value is ensured of it. -/
theorem ensures_pure {p : α → Prop} {a : α} (h : p a) :
    (pure a : ExceptT ε (Except δ) α).Ensures p := by
  rintro _ ⟨⟩
  exact h

/-- Every computation ensures what is always true. -/
theorem ensures_true (x : ExceptT ε (Except δ) α) : x.Ensures fun _ => True := fun _ _ => trivial

end

/-! ## Checks in order -/

/-- The first check that does not pass fails, and does not abort. -/
def FirstFails {δ : Type} : List (Except δ Bool) → Prop
  | [] => False
  | .ok true :: checks => FirstFails checks
  | .ok false :: _ => True
  | .error _ :: _ => False

/-- Of the checks of a list one fails, and none before it aborts. -/
theorem firstFails_map {ρ δ : Type} {check : ρ → Except δ Bool} {rs : List ρ} :
    FirstFails (rs.map check) ↔ ∃ before r after, rs = before ++ r :: after ∧
      check r = .ok false ∧ ∀ q ∈ before, ∃ ok, check q = .ok ok := by
  induction rs with
  | nil =>
    refine ⟨False.elim, ?_⟩
    rintro ⟨before, r, after, h, -⟩
    exact absurd h.symm (List.append_ne_nil_of_right_ne_nil before (List.cons_ne_nil r after))
  | cons r rs ih =>
    rw [List.map_cons]
    constructor
    · intro h
      rcases hr : check r with d | (_ | _) <;> rw [hr] at h
      · exact h.elim
      · exact ⟨[], r, rs, rfl, hr, nofun⟩
      · obtain ⟨before, q, after, rfl, hq, hbefore⟩ := ih.1 h
        exact ⟨r :: before, q, after, rfl, hq, List.forall_mem_cons.2 ⟨⟨true, hr⟩, hbefore⟩⟩
    · rintro ⟨before, q, after, hsplit, hq, hbefore⟩
      cases before with
      | nil =>
        cases hsplit
        rw [hq]
        trivial
      | cons p before =>
        cases hsplit
        obtain ⟨⟨ok, hr⟩, hbefore⟩ := List.forall_mem_cons.1 hbefore
        rw [hr]
        cases ok with
        | false => trivial
        | true => exact ih.2 ⟨before, q, after, rfl, hq, hbefore⟩

section
variable {ε δ α β : Type}

/-- The check passes where the computation returns, and fails where it is refused. -/
structure Checks (x : ExceptT ε (Except δ) α) (check : Except δ Bool) : Prop where
  refuses : x.Refuses ↔ check = .ok false
  returns : (∃ a, x.Returns a) ↔ check = .ok true

/-- Where a value was returned, its check has passed. -/
theorem Checks.returned {x : ExceptT ε (Except δ) α} {check : Except δ Bool} (h : Checks x check)
    {a : α} (ha : x.Returns a) : check = .ok true := h.returns.1 ⟨a, ha⟩

/-- A step and its check, before steps and their checks. -/
theorem refuses_bind_checks {x : ExceptT ε (Except δ) α} {f : α → ExceptT ε (Except δ) β}
    {check : Except δ Bool} {checks : List (Except δ Bool)} (hx : Checks x check)
    (hf : ∀ a, x.Returns a → ((f a).Refuses ↔ FirstFails checks)) :
    (x >>= f).Refuses ↔ FirstFails (check :: checks) := by
  rw [refuses_bind]
  refine ⟨?_, ?_⟩
  · rintro (h | ⟨a, ha, h⟩)
    · rw [hx.refuses.1 h]
      trivial
    · rw [hx.returned ha]
      exact (hf a ha).1 h
  · intro h
    rcases check with d | (_ | _)
    · exact h.elim
    · exact .inl (hx.refuses.2 rfl)
    · obtain ⟨a, ha⟩ := hx.returns.2 rfl
      exact .inr ⟨a, ha, (hf a ha).2 h⟩

/-- A step that is not refused itself, before steps and their checks. -/
theorem refuses_lift_checks {x : Except δ α} {f : α → ExceptT ε (Except δ) β} {p : α → Bool}
    {checks : List (Except δ Bool)}
    (hf : ∀ a, x = .ok a → ((f a).Refuses ↔ FirstFails (.ok (p a) :: checks))) :
    ((liftM x : ExceptT ε (Except δ) α) >>= f).Refuses ↔ FirstFails (x.map p :: checks) := by
  cases x with
  | error d => exact ⟨nofun, False.elim⟩
  | ok a => exact hf a rfl

end

end ExceptT
