import Polyrust.Lib.Run

/-!
# Machines that move other machines

A machine refines another one when each of its steps is, on the state of the other one, a run of it.
Then so is each of its runs, and every invariant of the runs of the other machine holds along the
runs of the first. The runs of the other machine may be restricted to operations that are allowed
where they are performed (`ReachesAlong`), and its steps may abort (`ReachesM`).
-/

namespace Machine

/-! ## Runs of allowed operations -/

section
variable {σ α : Type _}

/-- Operations, each allowed where it is performed, lead from `s` to `s'`. -/
def ReachesAlong (step : σ → α → σ) (ok : σ → α → Prop) (s s' : σ) : Prop :=
  ∃ l, Along step ok s l ∧ s' = run step s l

variable {step : σ → α → σ} {ok : σ → α → Prop} {s s' s'' : σ}

/-- Every state is reached from itself. -/
theorem ReachesAlong.refl (s : σ) : ReachesAlong step ok s s := ⟨[], trivial, rfl⟩

/-- An allowed step is reached. -/
theorem ReachesAlong.one {a : α} (h : ok s a) : ReachesAlong step ok s (step s a) :=
  ⟨[a], ⟨h, trivial⟩, rfl⟩

/-- Operations that are allowed in every state. -/
theorem ReachesAlong.of_forall {l : List α} (h : ∀ a ∈ l, ∀ s, ok s a) :
    ReachesAlong step ok s (run step s l) :=
  ⟨l, along_of_forall h s, rfl⟩

/-- What is reached from what is reached is reached. -/
theorem ReachesAlong.trans (h : ReachesAlong step ok s s') (h' : ReachesAlong step ok s' s'') :
    ReachesAlong step ok s s'' := by
  obtain ⟨l, hl, rfl⟩ := h
  obtain ⟨l', hl', rfl⟩ := h'
  exact ⟨l ++ l', along_append.2 ⟨hl, hl'⟩, (run_append ..).symm⟩

end

/-! ## Runs that do not abort -/

section
variable {σ τ α β ε ε' : Type _}

/-- Some operations, none of which aborts, lead from `s` to `s'`. -/
def ReachesM (step : σ → α → Except ε σ) (s s' : σ) : Prop := ∃ l, runM step s l = .ok s'

variable {step : σ → α → Except ε σ} {s s' s'' : σ}

/-- Every state is reached from itself. -/
theorem ReachesM.refl (s : σ) : ReachesM step s s := ⟨[], rfl⟩

/-- A step that does not abort is reached. -/
theorem ReachesM.one {a : α} (h : step s a = .ok s') : ReachesM step s s' :=
  ⟨[a], runM_cons.2 ⟨s', h, rfl⟩⟩

/-- What is reached from what is reached is reached. -/
theorem ReachesM.trans (h : ReachesM step s s') (h' : ReachesM step s' s'') :
    ReachesM step s s'' := by
  obtain ⟨l, hl⟩ := h
  obtain ⟨l', hl'⟩ := h'
  exact ⟨l ++ l', runM_append.2 ⟨s', hl, hl'⟩⟩

/-- A property that holds at the start, and that every step keeps unless it aborts, holds wherever a
run leads. -/
theorem ReachesM.invariant {I : σ → Prop} (h : ReachesM step s s')
    (hstep : ∀ s a s', I s → step s a = .ok s' → I s') (hs : I s) : I s' := by
  obtain ⟨l, hl⟩ := h
  exact runM_invariant (fun s a s' hs _ ha => hstep s a s' hs ha) hs (alongM_true s l) hl

/-- A machine that keeps `I`, and each of whose steps is a run of the other one where `I` holds,
reaches only what the other one reaches. -/
theorem ReachesM.refines {step' : τ → β → Except ε' τ} {abs : σ → τ} {I : σ → Prop}
    (h : ReachesM step s s') (hs : I s)
    (hstep : ∀ s a s', I s → step s a = .ok s' → I s' ∧ ReachesM step' (abs s) (abs s')) :
    I s' ∧ ReachesM step' (abs s) (abs s') := by
  refine h.invariant (I := fun s' => I s' ∧ ReachesM step' (abs s) (abs s')) ?_ ⟨hs, .refl _⟩
  rintro s₁ a s₂ ⟨hi, hr⟩ ha
  obtain ⟨hi', hr'⟩ := hstep s₁ a s₂ hi ha
  exact ⟨hi', hr.trans hr'⟩

/-- A run that is continued after a run that did not abort. -/
theorem alongM_append {ok : σ → α → Prop} {l l' : List α} (hr : runM step s l = .ok s') :
    AlongM step ok s (l ++ l') ↔ AlongM step ok s l ∧ AlongM step ok s' l' := by
  induction l generalizing s with
  | nil =>
    cases hr
    simp [AlongM]
  | cons a l ih =>
    obtain ⟨t, ha, hr⟩ := runM_cons.1 hr
    rw [List.cons_append, alongM_cons ha, alongM_cons ha, ih hr, and_assoc]

/-- A property that may count the steps: it holds at the start, and a step keeps it with one step
more, so it holds at the end with all of them. -/
theorem runM_counted {I : Nat → σ → Prop}
    (hstep : ∀ n s a s', I n s → step s a = .ok s' → I (n + 1) s') {n : Nat} {s r : σ} (h : I n s)
    {l : List α} (hr : runM step s l = .ok r) : I (n + l.length) r := by
  induction l generalizing n s with
  | nil =>
    cases hr
    exact h
  | cons a l ih =>
    obtain ⟨s', ha, hr⟩ := runM_cons.1 hr
    have := ih (hstep n s a s' h ha) hr
    rwa [Nat.add_assoc, Nat.add_comm 1] at this

end

end Machine
