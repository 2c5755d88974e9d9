import Mathlib.Data.List.Induction

/-!
# Runs of a state machine

A machine is a step function `step : σ → α → σ`; `run` folds it over a list of operations. An
operation may be allowed in some states only: `Along ok` says that every operation of a run is
allowed by `ok` in the state it is performed in. `run_invariant` is the induction that every
property of reachable states rests on, and `run_history` the same induction for a property that
also speaks of the operations performed so far. `Reaches` forgets which operations were performed;
a machine that moves another one by runs of it has that one's invariants.

A step that may abort is a function `step : σ → α → Except ε σ`; its runs are those in which no
operation aborts (`runM`, `AlongM`, `runM_invariant`, `runM_history`). `OnceM` says that a step of
some kind is among those of a run.

A history variable is a value beside the state in which every operation records something
(`recorded`, `recordedM`). No step reads it: it says what has happened, for a property of the state
that speaks of the past (`recorded_invariant`, `recordedM_invariant`).
-/

namespace Machine

section
variable {σ α : Type _} (step : σ → α → σ)

/-- The state after the operations `l`, performed in order from `s`. -/
def run (s : σ) (l : List α) : σ := l.foldl step s

/-- Every operation of the run of `l` from `s` is allowed in the state it is performed in. -/
def Along (ok : σ → α → Prop) : σ → List α → Prop
  | _, [] => True
  | s, a :: l => ok s a ∧ Along ok (step s a) l

instance (ok : σ → α → Prop) [∀ s a, Decidable (ok s a)] :
    ∀ (s : σ) (l : List α), Decidable (Along step ok s l)
  | _, [] => inferInstanceAs (Decidable True)
  | s, a :: l =>
    have := instDecidableAlong ok (step s a) l
    inferInstanceAs (Decidable (_ ∧ _))

/-- `P` held in some state of the run of `l` from `s`, the last one included. -/
def Ever (P : σ → Prop) (s : σ) (l : List α) : Prop :=
  ∃ pre post, l = pre ++ post ∧ P (run step s pre)

variable {step}

/-- No step leaves the state as it is. -/
@[simp] theorem run_nil (s : σ) : run step s [] = s := rfl

/-- A run takes its first step first. -/
@[simp] theorem run_cons (s : σ) (a : α) (l : List α) :
    run step s (a :: l) = run step (step s a) l := rfl

/-- Two runs one after the other. -/
@[simp] theorem run_append (s : σ) (l l' : List α) :
    run step s (l ++ l') = run step (run step s l) l' :=
  List.foldl_append

/-- A run and one more step. -/
theorem run_concat (s : σ) (l : List α) (a : α) :
    run step s (l ++ [a]) = step (run step s l) a := by
  rw [run_append]; rfl

/-- The condition holds along no step. -/
@[simp] theorem along_nil (ok : σ → α → Prop) (s : σ) : Along step ok s [] := trivial

/-- The condition holds along a run if it holds of the first step and along the others. -/
@[simp] theorem along_cons {ok : σ → α → Prop} {s : σ} {a : α} {l : List α} :
    Along step ok s (a :: l) ↔ ok s a ∧ Along step ok (step s a) l := Iff.rfl

/-- The condition holds along two runs one after the other. -/
theorem along_append {ok : σ → α → Prop} {s : σ} {l l' : List α} :
    Along step ok s (l ++ l') ↔ Along step ok s l ∧ Along step ok (run step s l) l' := by
  induction l generalizing s with
  | nil => simp
  | cons a l ih => simp [ih, and_assoc]

/-- Two conditions that hold along a run hold along it together. -/
theorem Along.and {ok ok' : σ → α → Prop} {s : σ} {l : List α} (h : Along step ok s l)
    (h' : Along step ok' s l) : Along step (fun s a => ok s a ∧ ok' s a) s l := by
  induction l generalizing s with
  | nil => trivial
  | cons a l ih => exact ⟨⟨h.1, h'.1⟩, ih h.2 h'.2⟩

/-- What every operation of a run satisfies in every state, it satisfies along the run. -/
theorem along_of_forall {ok : σ → α → Prop} {l : List α} (h : ∀ a ∈ l, ∀ s, ok s a) (s : σ) :
    Along step ok s l := by
  induction l generalizing s with
  | nil => trivial
  | cons a l ih =>
    exact ⟨h a (List.mem_cons_self ..) s, ih (fun b hb => h b (List.mem_cons_of_mem a hb)) _⟩

/-- A property that holds at the start, and that every allowed step keeps, holds at the end. -/
theorem run_invariant {ok : σ → α → Prop} {I : σ → Prop}
    (hstep : ∀ s a, I s → ok s a → I (step s a)) {s : σ} (h : I s) {l : List α}
    (hl : Along step ok s l) : I (run step s l) := by
  induction l generalizing s with
  | nil => exact h
  | cons a l ih => exact ih (hstep s a h hl.1) hl.2

/-- `run_invariant` for a property of the operations performed so far and of the state they lead
to. -/
theorem run_history {ok : σ → α → Prop} {s : σ} {P : List α → σ → Prop} (h : P [] s)
    (hstep : ∀ l a, P l (run step s l) → ok (run step s l) a → P (l ++ [a]) (step (run step s l) a))
    {l : List α} (hl : Along step ok s l) : P l (run step s l) := by
  induction l using List.reverseRecOn with
  | nil => exact h
  | append_singleton l a ih =>
    rw [along_append] at hl
    rw [run_concat]
    exact hstep l a (ih hl.1) hl.2.1

/-- A machine whose every operation is allowed. -/
theorem along_true (s : σ) (l : List α) : Along step (fun _ _ => True) s l := by
  induction l generalizing s with
  | nil => trivial
  | cons a l ih => exact ⟨trivial, ih _⟩

/-- What holds at some time of a longer run held before, or holds after the last step. -/
theorem ever_concat {P : σ → Prop} {s : σ} {l : List α} {a : α} :
    Ever step P s (l ++ [a]) ↔ Ever step P s l ∨ P (step (run step s l) a) := by
  refine ⟨?_, ?_⟩
  · rintro ⟨pre, post, he, hp⟩
    rcases List.eq_nil_or_concat post with rfl | ⟨post, b, rfl⟩
    · rw [List.append_nil] at he
      rw [← he, run_concat] at hp
      exact .inr hp
    · rw [List.concat_eq_append, ← List.append_assoc] at he
      exact .inl ⟨pre, post, (List.append_inj' he rfl).1, hp⟩
  · rintro (⟨pre, post, rfl, hp⟩ | hp)
    · exact ⟨pre, post ++ [a], by simp, hp⟩
    · exact ⟨l ++ [a], [], by simp, by rwa [run_concat]⟩

/-- A property of the last state of a run held in some state of it. -/
theorem Ever.last {P : σ → Prop} {s : σ} {l : List α} (h : P (run step s l)) : Ever step P s l :=
  ⟨l, [], by simp, h⟩

end

/-! ## History variables -/

section
variable {σ α γ : Type _} (step : σ → α → σ) (record : σ → α → γ → γ)

/-- The history variable after the operations `l`: each records in the state it is performed in. -/
def recorded : σ → γ → List α → γ
  | _, g, [] => g
  | s, g, a :: l => recorded (step s a) (record s a g) l

variable {step record}

/-- A property of state and history variable that every allowed step keeps. -/
theorem recorded_along (ok : σ → α → Prop) {I : σ → γ → Prop}
    (hstep : ∀ s a g, I s g → ok s a → I (step s a) (record s a g)) {s : σ} {g : γ} (h : I s g)
    {l : List α} (hl : Along step ok s l) : I (run step s l) (recorded step record s g l) := by
  induction l generalizing s g with
  | nil => exact h
  | cons a l ih => exact ih (hstep s a g h hl.1) hl.2

/-- A property of state and history variable that every step keeps. -/
theorem recorded_invariant {I : σ → γ → Prop}
    (hstep : ∀ s a g, I s g → I (step s a) (record s a g)) {s : σ} {g : γ} (h : I s g)
    (l : List α) : I (run step s l) (recorded step record s g l) :=
  recorded_along (fun _ _ => True) (fun s a g hs _ => hstep s a g hs) h
    (along_true s l)

end

/-! ## Reachability -/

section
variable {σ α : Type _}

/-- Some operations lead from `s` to `s'`. -/
def Reaches (step : σ → α → σ) (s s' : σ) : Prop := ∃ l, s' = run step s l

variable {step : σ → α → σ} {s s' s'' : σ}

/-- Every state is reached from itself. -/
theorem Reaches.refl (s : σ) : Reaches step s s := ⟨[], rfl⟩

/-- A step is reached. -/
theorem Reaches.one (s : σ) (a : α) : Reaches step s (step s a) := ⟨[a], rfl⟩

/-- What is reached from what is reached is reached. -/
theorem Reaches.trans (h : Reaches step s s') (h' : Reaches step s' s'') :
    Reaches step s s'' := by
  obtain ⟨l, rfl⟩ := h
  obtain ⟨l', rfl⟩ := h'
  exact ⟨l ++ l', (run_append ..).symm⟩

/-- A property that every step keeps holds wherever a run leads. -/
theorem Reaches.invariant {I : σ → Prop} (h : Reaches step s s')
    (hstep : ∀ s a, I s → I (step s a)) (hs : I s) : I s' := by
  obtain ⟨l, rfl⟩ := h
  exact run_invariant (fun s a hs _ => hstep s a hs) hs (along_true s l)

end

/-! ## Steps that may abort -/

section
variable {σ α ε : Type _} (step : σ → α → Except ε σ)

/-- The state after the operations `l`, unless one of them aborts. -/
def runM (s : σ) (l : List α) : Except ε σ := l.foldlM step s

/-- Every operation of the run of `l` from `s` is allowed in the state it is performed in, up to the
first one that aborts. -/
def AlongM (ok : σ → α → Prop) : σ → List α → Prop
  | _, [] => True
  | s, a :: l =>
    ok s a ∧
      match step s a with
      | .ok s' => AlongM ok s' l
      | .error _ => True

instance (ok : σ → α → Prop) [∀ s a, Decidable (ok s a)] :
    ∀ (s : σ) (l : List α), Decidable (AlongM step ok s l)
  | _, [] => inferInstanceAs (Decidable True)
  | s, a :: l =>
    have : Decidable
        (match step s a with
        | .ok s' => AlongM step ok s' l
        | .error _ => True) :=
      match step s a with
      | .ok s' => instDecidableAlongM ok s' l
      | .error _ => inferInstanceAs (Decidable True)
    inferInstanceAs (Decidable (_ ∧ _))

variable {step}

/-- No step leaves the state as it is. -/
@[simp] theorem runM_nil (s : σ) : runM step s [] = .ok s := rfl

/-- A run takes its first step first, and aborts where that does. -/
theorem runM_cons {s r : σ} {a : α} {l : List α} :
    runM step s (a :: l) = .ok r ↔ ∃ s', step s a = .ok s' ∧ runM step s' l = .ok r := by
  rw [runM, List.foldlM_cons]
  refine ⟨?_, ?_⟩
  · intro h
    cases ha : step s a with
    | error e => rw [ha] at h; cases h
    | ok s' => exact ⟨s', rfl, by rwa [ha] at h⟩
  · rintro ⟨s', ha, h⟩
    rw [ha]
    exact h

/-- Two runs one after the other. -/
theorem runM_append {s r : σ} {l l' : List α} :
    runM step s (l ++ l') = .ok r ↔ ∃ s', runM step s l = .ok s' ∧ runM step s' l' = .ok r := by
  induction l generalizing s with
  | nil => simp
  | cons a l ih =>
    simp only [List.cons_append, runM_cons, ih]
    refine ⟨?_, ?_⟩
    · rintro ⟨s', ha, s'', hl, hr⟩
      exact ⟨s'', ⟨s', ha, hl⟩, hr⟩
    · rintro ⟨s'', ⟨s', ha, hl⟩, hr⟩
      exact ⟨s', ha, s'', hl, hr⟩

/-- A run and one more step. -/
theorem runM_concat {s r : σ} {l : List α} {a : α} :
    runM step s (l ++ [a]) = .ok r ↔ ∃ s', runM step s l = .ok s' ∧ step s' a = .ok r := by
  simp [runM_append, runM_cons]

/-- The condition holds along a run if it holds of the first step and along the others. -/
theorem alongM_cons {ok : σ → α → Prop} {s s' : σ} {a : α} {l : List α} (ha : step s a = .ok s') :
    AlongM step ok s (a :: l) ↔ ok s a ∧ AlongM step ok s' l := by
  rw [AlongM, ha]

/-- A property that holds at the start, and that every allowed step keeps unless it aborts, holds at
the end. -/
theorem runM_invariant {ok : σ → α → Prop} {I : σ → Prop}
    (hstep : ∀ s a s', I s → ok s a → step s a = .ok s' → I s') {s r : σ} (h : I s) {l : List α}
    (hl : AlongM step ok s l) (hr : runM step s l = .ok r) : I r := by
  induction l generalizing s with
  | nil =>
    cases hr
    exact h
  | cons a l ih =>
    obtain ⟨s', ha, hr⟩ := runM_cons.1 hr
    obtain ⟨hok, hl⟩ := (alongM_cons ha).1 hl
    exact ih (hstep s a s' h hok ha) hl hr

/-- A property of the operations performed so far and of the state they lead to: it holds at the
start, and every step of the run keeps it. -/
theorem runM_history {s : σ} {P : List α → σ → Prop} (h : P [] s)
    (hstep : ∀ l a r r', P l r → runM step s l = .ok r → step r a = .ok r' → P (l ++ [a]) r')
    {l : List α} {r : σ} (hr : runM step s l = .ok r) : P l r := by
  induction l using List.reverseRecOn generalizing r with
  | nil =>
    cases hr
    exact h
  | append_singleton l a ih =>
    obtain ⟨s', hl, ha⟩ := runM_concat.1 hr
    exact hstep l a s' r (ih hl) hl ha

/-- A machine whose every operation is allowed. -/
theorem alongM_true (s : σ) (l : List α) : AlongM step (fun _ _ => True) s l := by
  induction l generalizing s with
  | nil => trivial
  | cons a l ih =>
    refine ⟨trivial, ?_⟩
    split
    · exact ih _
    · trivial

/-- Some step of the run of `l` from `s` is one of `P`. -/
def OnceM (step : σ → α → Except ε σ) (P : σ → α → σ → Prop) (s : σ) (l : List α) : Prop :=
  ∃ pre a post t t', l = pre ++ a :: post ∧ runM step s pre = .ok t ∧ step t a = .ok t' ∧ P t a t'

/-- A run that goes on has had the step all the same. -/
theorem OnceM.append {P : σ → α → σ → Prop} {s : σ} {l : List α} (h : OnceM step P s l)
    (l' : List α) : OnceM step P s (l ++ l') := by
  obtain ⟨pre, a, post, t, t', rfl, hpre, ha, hp⟩ := h
  exact ⟨pre, a, post ++ l', t, t', by simp, hpre, ha, hp⟩

/-- What the last step does was done once. -/
theorem OnceM.last {P : σ → α → σ → Prop} {s r r' : σ} {l : List α} {a : α}
    (hr : runM step s l = .ok r) (ha : step r a = .ok r') (hp : P r a r') :
    OnceM step P s (l ++ [a]) :=
  ⟨l, a, [], r, r', rfl, hr, ha, hp⟩

/-- The history variable after the operations `l`, up to the first one that aborts. -/
def recordedM {γ : Type _} (step : σ → α → Except ε σ) (record : σ → α → γ → γ) :
    σ → γ → List α → γ
  | _, g, [] => g
  | s, g, a :: l =>
    match step s a with
    | .ok s' => recordedM step record s' (record s a g) l
    | .error _ => g

/-- `recorded_invariant` for steps that may abort. -/
theorem recordedM_invariant {γ : Type _} {record : σ → α → γ → γ} {I : σ → γ → Prop}
    (hstep : ∀ s a s' g, I s g → step s a = .ok s' → I s' (record s a g)) {s r : σ} {g : γ}
    (h : I s g) {l : List α} (hr : runM step s l = .ok r) :
    I r (recordedM step record s g l) := by
  induction l generalizing s g with
  | nil =>
    cases hr
    exact h
  | cons a l ih =>
    obtain ⟨s', ha, hr⟩ := runM_cons.1 hr
    rw [recordedM, ha]
    exact ih (hstep s a s' g h ha) hr

end

end Machine
