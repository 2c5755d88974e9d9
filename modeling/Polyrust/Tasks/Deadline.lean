import Polyrust.Tasks

/-!
# The deadline of the rotation

The loop of the maintenance task (`main.rs`) waits for its ten-second tick or for the rotation
deadline, whichever comes first. An iteration that the deadline has woken searches the next market,
and sets the deadline anew in three of its four ways out. In the fourth one, where no market is
known and none is found, the deadline stays in the past, and the loop goes on without a wait
(`rearms_iff`).
-/

namespace Polyrust

open IntWidth

/-- Nanoseconds in a second. -/
def NANOS_PER_SEC : Int := 1000000000

/-- An instant of the monotonic clock, in nanoseconds: its seconds are a 64-bit number. -/
def Representable (instant : Int) : Prop := instant < (i64.hi + 1) * NANOS_PER_SEC

instance (instant : Int) : Decidable (Representable instant) :=
  inferInstanceAs (Decidable (_ < _))

/-- `Instant + Duration::from_secs`, which panics where the sum is no instant. -/
def addSecs (instant secs : Int) : Exec Int :=
  if Representable (instant + secs * NANOS_PER_SEC) then .ok (instant + secs * NANOS_PER_SEC)
  else .error .overflow

/-- Seconds are added where the clock can represent the sum. -/
theorem addSecs_ok {instant secs deadline : Int} :
    addSecs instant secs = .ok deadline ↔
      Representable (instant + secs * NANOS_PER_SEC) ∧
        deadline = instant + secs * NANOS_PER_SEC := by
  unfold addSecs
  split
  · next h => simp [h, eq_comm]
  · next h => simp [h]

/-- What Gamma answers during an iteration. -/
structure GammaAnswers where
  discover : Option Discovered
  discoverForTs : Int → Option Discovered

/-- The clocks during an iteration: the instants at which it is woken and at which it sets the
deadline, and the system time then, in seconds. -/
structure IterationClock where
  woken : Int
  now : Int
  nowSecs : Int
  woken_le_now : woken ≤ now

/-- The tasks, and the deadline of the maintenance loop. -/
structure MaintenanceLoop (F : Type) where
  tasks : TaskSystem F
  rotationDeadline : Int

namespace MaintenanceLoop

section
variable {F : Type}

/-- The search of an iteration: for the market after the active one at the deadline, else for the
current one. -/
def answer (s : MaintenanceLoop F) (isRotation : Bool) (gamma : GammaAnswers) :
    Option Discovered :=
  match isRotation, s.tasks.market with
  | true, some m => gamma.discoverForTs m.endTs
  | _, _ => gamma.discover

/-- Without a market, a round searches from scratch. -/
theorem answer_of_none {s : MaintenanceLoop F} (h : s.tasks.market = none) (isRotation : Bool)
    (gamma : GammaAnswers) : s.answer isRotation gamma = gamma.discover := by
  cases isRotation <;> simp [answer, h]

/-- The seconds until five seconds before the market ends, and at least one. -/
def secsUntilPrefetch (b : Build) (endTs nowSecs : Int) : Exec Int := do
  return max (i64.saturatingSub (← b.arith i64 (endTs - 5)) nowSecs) 1

/-- Seconds later is later. -/
theorem addSecs_later {secs : Int} (hsecs : 1 ≤ secs) (clock : IterationClock)
    (tasks : TaskSystem F) :
    (do return { tasks := tasks, rotationDeadline := ← addSecs clock.now secs } :
        Exec (MaintenanceLoop F)).Succeeds (fun s' => clock.woken < s'.rotationDeadline) ↔
      Representable (clock.now + secs * NANOS_PER_SEC) := by
  refine ⟨?_, ?_⟩
  · intro h
    obtain ⟨s', hs', -⟩ := h.exists
    obtain ⟨deadline, hd, -⟩ := Except.ok_bind_inv hs'
    exact (addSecs_ok.1 hd).1
  · intro h
    rw [addSecs_ok.2 ⟨h, rfl⟩]
    refine .ok ?_
    have := clock.woken_le_now
    simp only [NANOS_PER_SEC]
    omega

/-- Without an active market every market is new. -/
theorem market_isSome_of_not_isNew {s : MaintenanceLoop F} {discovered : MarketContext}
    (h : s.tasks.isNew discovered = false) : s.tasks.market.isSome = true := by
  unfold TaskSystem.isNew at h
  cases hm : s.tasks.market with
  | none =>
    rw [hm] at h
    cases h
  | some m => rfl

variable [F64 F]

/-- An iteration of the loop, as far as it concerns the market and the deadline. -/
def iterate (b : Build) (s : MaintenanceLoop F) (isRotation : Bool) (gamma : GammaAnswers)
    (clock : IterationClock) : Exec (MaintenanceLoop F) := do
  if !isRotation && s.tasks.market.isSome then return s
  match s.answer isRotation gamma with
  | none =>
    if isRotation && s.tasks.market.isSome then
      return { s with rotationDeadline := ← addSecs clock.now 2 }
    else return s
  | some discovered =>
    if s.tasks.isNew discovered.market then
      let secs ← secsUntilPrefetch b discovered.market.endTs clock.nowSecs
      let deadline ← addSecs clock.now secs
      return { tasks := s.tasks.rotate isRotation discovered.market, rotationDeadline := deadline }
    else if isRotation then return { s with rotationDeadline := ← addSecs clock.now 2 }
    else return s

variable {s s' : MaintenanceLoop F} {b : Build} {isRotation : Bool} {gamma : GammaAnswers}
variable {clock : IterationClock} {discovered : Discovered}

/-- To the tasks an iteration is a rotation, or nothing. -/
theorem iterate_tasks (h : s.iterate b isRotation gamma clock = .ok s') :
    s'.tasks = s.tasks ∨
      ∃ discovered : Discovered, s'.tasks = s.tasks.rotate isRotation discovered.market := by
  rw [iterate] at h
  split at h
  · cases h
    exact .inl rfl
  split at h
  · split at h
    · obtain ⟨deadline, -, h⟩ := Except.ok_bind_inv h
      cases h
      exact .inl rfl
    · cases h
      exact .inl rfl
  · next discovered _ =>
    split at h
    · obtain ⟨secs, -, h⟩ := Except.ok_bind_inv h
      obtain ⟨deadline, -, h⟩ := Except.ok_bind_inv h
      cases h
      exact .inr ⟨discovered, rfl⟩
    · split at h
      · obtain ⟨deadline, -, h⟩ := Except.ok_bind_inv h
        cases h
        exact .inl rfl
      · cases h
        exact .inl rfl

/-! ## Woken by the deadline -/

/-- Without an answer, a rotation is tried again in two seconds. -/
theorem iterate_none (h : s.answer true gamma = none) :
    s.iterate b true gamma clock =
      if s.tasks.market.isSome then
        do return { s with rotationDeadline := ← addSecs clock.now 2 }
      else return s := by
  rw [iterate, h]
  rfl

/-- A new market is rotated to, and its prefetch is the next deadline. -/
theorem iterate_new (h : s.answer true gamma = some discovered)
    (hnew : s.tasks.isNew discovered.market = true) :
    s.iterate b true gamma clock = do
      let secs ← secsUntilPrefetch b discovered.market.endTs clock.nowSecs
      return { tasks := s.tasks.rotate true discovered.market
               rotationDeadline := ← addSecs clock.now secs } := by
  rw [iterate, h]
  dsimp only
  rw [if_pos hnew]
  rfl

/-- With the market that is there, a rotation is tried again in two seconds. -/
theorem iterate_same (h : s.answer true gamma = some discovered)
    (hsame : s.tasks.isNew discovered.market = false) :
    s.iterate b true gamma clock =
      do return { s with rotationDeadline := ← addSecs clock.now 2 } := by
  rw [iterate, h]
  dsimp only
  rw [hsame]
  rfl

/-- The iteration finishes with the deadline later than the instant at which it was woken. -/
def Rearms (b : Build) (s : MaintenanceLoop F) (gamma : GammaAnswers) (clock : IterationClock) :
    Prop :=
  (s.iterate b true gamma clock).Succeeds fun s' => clock.woken < s'.rotationDeadline

/-- A market is known or found, and the numbers are in range: a new market sets the deadline to
five seconds before its end, or to a second from now; otherwise the search is tried again in two
seconds. -/
def CanRearm (s : MaintenanceLoop F) (gamma : GammaAnswers) (clock : IterationClock) : Prop :=
  (∃ discovered, s.answer true gamma = some discovered ∧
      s.tasks.isNew discovered.market = true ∧ i64.Fits (discovered.market.endTs - 5) ∧
      Representable (clock.now +
        max (i64.saturatingSub (discovered.market.endTs - 5) clock.nowSecs) 1 * NANOS_PER_SEC)) ∨
    (∀ discovered, s.answer true gamma = some discovered →
        s.tasks.isNew discovered.market = false) ∧
      s.tasks.market.isSome = true ∧ Representable (clock.now + 2 * NANOS_PER_SEC)

/-- A new market sets the deadline anew as far as its numbers are in range. -/
theorem rearms_new_iff (h : s.answer true gamma = some discovered)
    (hnew : s.tasks.isNew discovered.market = true) :
    (∀ b, Rearms b s gamma clock) ↔
      i64.Fits (discovered.market.endTs - 5) ∧ Representable (clock.now +
        max (i64.saturatingSub (discovered.market.endTs - 5) clock.nowSecs) 1 * NANOS_PER_SEC) := by
  refine ⟨?_, ?_⟩
  · intro hrearms
    obtain ⟨s', hs', -⟩ := (hrearms ⟨true⟩).exists
    rw [iterate_new h hnew] at hs'
    obtain ⟨secs, hsecs, hs'⟩ := Except.ok_bind_inv hs'
    obtain ⟨deadline, hdeadline, -⟩ := Except.ok_bind_inv hs'
    obtain ⟨prefetch, hprefetch, hsecs⟩ := Except.ok_bind_inv hsecs
    cases hsecs
    obtain ⟨hfits, rfl⟩ := (Build.arith_checked rfl).1 hprefetch
    exact ⟨hfits, (addSecs_ok.1 hdeadline).1⟩
  · rintro ⟨hfits, hlast⟩ b
    rw [Rearms, iterate_new h hnew, secsUntilPrefetch, Build.arith_of_fits hfits]
    exact (addSecs_later (le_max_right _ _) clock _).2 hlast

/-- With no market known and none found the deadline stays where it is. -/
theorem not_rearms_of_none (h : s.answer true gamma = none)
    (hmarket : s.tasks.market.isSome = false) (hdue : s.rotationDeadline ≤ clock.woken) :
    ¬Rearms b s gamma clock := by
  intro hrearms
  obtain ⟨s', hs', hlater⟩ := hrearms.exists
  rw [iterate_none h, hmarket] at hs'
  cases hs'
  exact absurd hdue (not_le.2 hlater)

/-- An iteration that the deadline has woken sets it anew, in every build, if and only if a market
is known or found (and the numbers are in range). -/
theorem rearms_iff (s : MaintenanceLoop F) (gamma : GammaAnswers) (clock : IterationClock)
    (hdue : s.rotationDeadline ≤ clock.woken) :
    (∀ b, Rearms b s gamma clock) ↔ CanRearm s gamma clock := by
  cases ha : s.answer true gamma with
  | none =>
    have hnone : ¬∃ discovered, s.answer true gamma = some discovered := by simp [ha]
    cases hm : s.tasks.market.isSome with
    | true =>
      simp only [Rearms, iterate_none ha, hm, if_true, addSecs_later (by decide : (1 : Int) ≤ 2)]
      refine ⟨fun h => .inr ⟨fun d hd => absurd ⟨d, hd⟩ hnone, hm, h ⟨true⟩⟩, ?_⟩
      rintro (⟨d, hd, -⟩ | ⟨-, -, h⟩)
      · exact absurd ⟨d, hd⟩ hnone
      · exact fun _ => h
    | false =>
      refine ⟨fun h => absurd (h ⟨true⟩) (not_rearms_of_none ha hm hdue), ?_⟩
      rintro (⟨d, hd, -⟩ | ⟨-, hsome, -⟩)
      · exact absurd ⟨d, hd⟩ hnone
      · cases hm.symm.trans hsome
  | some discovered =>
    cases hnew : s.tasks.isNew discovered.market with
    | true =>
      rw [rearms_new_iff ha hnew]
      refine ⟨fun h => .inl ⟨discovered, ha, hnew, h⟩, ?_⟩
      rintro (⟨d, hd, -, h⟩ | ⟨hsame, -, -⟩)
      · cases ha.symm.trans hd
        exact h
      · cases hnew.symm.trans (hsame discovered ha)
    | false =>
      simp only [Rearms, iterate_same ha hnew, addSecs_later (by decide : (1 : Int) ≤ 2)]
      refine ⟨?_, ?_⟩
      · refine fun h => .inr ⟨fun d hd => ?_, market_isSome_of_not_isNew hnew, h ⟨true⟩⟩
        cases ha.symm.trans hd
        exact hnew
      · rintro (⟨d, hd, hnew', -⟩ | ⟨-, -, h⟩)
        · cases ha.symm.trans hd
          cases hnew.symm.trans hnew'
        · exact fun _ => h

/-- Woken with no market known and none found, the loop is left as it was. -/
theorem iterate_spins (hmarket : s.tasks.market = none) (hgamma : gamma.discover = none) :
    s.iterate b true gamma clock = .ok s := by
  rw [iterate_none ((answer_of_none hmarket true gamma).trans hgamma), hmarket]
  rfl

/-- So it is by any number of such iterations. -/
theorem run_spins (hmarket : s.tasks.market = none) (wakes : List (GammaAnswers × IterationClock))
    (hgamma : ∀ wake ∈ wakes, wake.1.discover = none) :
    Machine.runM (fun s wake => iterate b s true wake.1 wake.2) s wakes = .ok s := by
  induction wakes with
  | nil => rfl
  | cons wake wakes ih =>
    rw [Machine.runM_cons]
    exact ⟨s, iterate_spins hmarket (hgamma wake List.mem_cons_self),
      ih fun wake' hw => hgamma wake' (List.mem_cons_of_mem wake hw)⟩

end

/-- The market has an id. -/
theorem upDownMarket_conditionId_ne : RuntimeCore.upDownMarket.conditionId.str ≠ "" := by decide

/-- A market that Gamma finds. -/
def firstMarket : Discovered := ⟨RuntimeCore.upDownMarket, upDownMarket_conditionId_ne⟩

/-- The loop at the start. -/
theorem exists_start :
    ∃ s : MaintenanceLoop Rat, s.tasks.market = none ∧ s.rotationDeadline = 0 := by
  have hnew : (RuntimeCore.new Config.runtimeEnvShape).Succeeds fun core =>
      core.state.market = none := by
    decide +kernel
  obtain ⟨core, -, hmarket⟩ := hnew.exists
  exact ⟨⟨.start Config.runtimeEnvShape core, 0⟩, hmarket, rfl⟩

/-- The first market is found half a second after the start. -/
theorem rearms_iff_first :
    ∃ s : MaintenanceLoop Rat, ∀ b, Rearms b s
      { discover := some firstMarket, discoverForTs := fun _ => none }
      { woken := 0, now := 500000000, nowSecs := 800, woken_le_now := by decide } := by
  obtain ⟨s, hmarket, hdeadline⟩ := exists_start
  have hnew : s.tasks.isNew firstMarket.market = true := by
    rw [TaskSystem.isNew, hmarket]
    rfl
  refine ⟨s, (rearms_iff s _ _ hdeadline.le).2 (.inl ⟨firstMarket, ?_, hnew, ?_⟩)⟩
  · rw [answer_of_none hmarket]
  · exact ⟨by decide +kernel, by decide +kernel⟩

/-- At the start Gamma does not answer: however often the loop is woken, the deadline is still not
later than the instants at which it is woken. -/
theorem deadline_not_rearmed :
    ∃ (s : MaintenanceLoop Rat) (wake : GammaAnswers × IterationClock),
      s.rotationDeadline ≤ wake.2.woken ∧
        ∀ b n, Machine.runM (fun s wake => iterate b s true wake.1 wake.2) s
          (List.replicate n wake) = .ok s := by
  obtain ⟨s, hmarket, hdeadline⟩ := exists_start
  refine ⟨s, ⟨⟨none, fun _ => none⟩, ⟨0, 0, 800, le_rfl⟩⟩, hdeadline.le, fun b n => ?_⟩
  refine run_spins hmarket _ fun wake hw => ?_
  rw [List.eq_of_mem_replicate hw]

end MaintenanceLoop

end Polyrust
