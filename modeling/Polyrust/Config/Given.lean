import Polyrust.Config.EnvFile
import Polyrust.Config.Malformed
import Polyrust.Config.Valid
import Polyrust.Decimal.Written

/-!
# What a file gives

The configurations that an environment file gives, where the environment sets none of their
variables, are the valid ones: of 64-bit integers and numbers that can be written
(`file_gives_iff`). `fromLookup_returns_iff` says of every field what it is read from.
-/

namespace Polyrust

open IntWidth ExceptT

namespace Config

section
variable {F : Type} [F64 F]

/-! ## Reading -/

section
variable (b : Build) (parseF64 : List Char → Option F) (lookup : String → Option String)

/-- A number of cents with a default is read as `v`. -/
def CentsRead (name : String) (d v : Int) : Prop :=
  ∃ r, envDecCentsLookup lookup b name = .ok r ∧ r.getD d = v

/-- What every field of the configuration is read from. -/
structure ReadsAs (config : Config F) : Prop where
  live : (envBoolLookup lookup "POLY_ALLOW_LIVE_ORDERS").getD false = config.allowLiveOrders
  usdc : envDecCentsLookup lookup b "MINIMAL_USDC_PER_TRADE" = .ok (some config.usdcPerTradeCents)
  overrun : CentsRead b lookup "MINIMAL_MAX_NOTIONAL_OVERRUN" 1 config.maxNotionalOverrunCents
  overrunBps : (envI64Lookup lookup "MINIMAL_MAX_NOTIONAL_OVERRUN_BPS").getD 0 =
    config.maxNotionalOverrunBps
  minBuyLimit : envDecCentsLookup lookup b "MINIMAL_MIN_BUY_LIMIT" =
    .ok (some config.minBuyLimitCents)
  maxBuyLimit : CentsRead b lookup "MINIMAL_MAX_BUY_LIMIT" 60 config.maxBuyLimitCents
  minTte : envI64Lookup lookup "MINIMAL_DECISION_MIN_TTE_US" = some config.minDecisionTteUs
  minEdge : CentsRead b lookup "MINIMAL_DECISION_MIN_EDGE" 5 config.decisionMinEdgeCents
  entrySlippage : CentsRead b lookup "MINIMAL_ENTRY_SLIPPAGE" 0 config.entrySlippageCents
  sellSlippage : CentsRead b lookup "MINIMAL_SELL_SLIPPAGE" 0 config.sellSlippageCents
  exitDrop : (envI64Lookup lookup "EXIT_DROP_TICKS").getD 2 = config.exitDropTicks
  exitArm : (envI64Lookup lookup "EXIT_ARM_TICKS").getD 2 = config.exitArmTicks
  exitStop : (envI64Lookup lookup "EXIT_STOP_TICKS").getD 3 = config.exitStopTicks
  exitEdge : (envI64Lookup lookup "EXIT_EDGE_TICKS").getD 0 = config.exitEdgeTicks
  exitHold : (envI64Lookup lookup "EXIT_HOLD_US").getD 30000000 = config.exitHoldUs
  quoteAge : (envI64Lookup lookup "MINIMAL_SIGNAL_QUOTE_AGE_US").getD 50000 =
    config.signalQuoteAgeUs
  rttCeiling : (envI64Lookup lookup "MINIMAL_RTT_CEILING_US").getD 1500000 = config.rttCeilingUs
  driftWindow : (envI64Lookup lookup "MINIMAL_POLY_DRIFT_WINDOW_US").getD 1000000 =
    config.polyDriftWindowUs
  driftUp : (envI64Lookup lookup "MINIMAL_POLY_DRIFT_BLOCK_UP_TICKS").getD 4 =
    config.polyDriftBlockUpTicks
  driftDown : (envI64Lookup lookup "MINIMAL_POLY_DRIFT_BLOCK_DOWN_TICKS").getD 4 =
    config.polyDriftBlockDownTicks
  driftBps : (envI64Lookup lookup "MINIMAL_POLY_DRIFT_SAFETY_BPS").getD 12000 =
    config.polyDriftSafetyBps
  driftClean : (envI64Lookup lookup "MINIMAL_POLY_DRIFT_MIN_CLEAN_EDGE_TICKS").getD 3 =
    config.polyDriftMinCleanEdgeTicks
  maxLag : (envI64Lookup lookup "MINIMAL_SIGNAL_MAX_LAG_US").getD 250000 = config.signalMaxLagUs
  minWindow : (envI64Lookup lookup "MINIMAL_SIGNAL_MIN_WINDOW_US").getD 250000 =
    config.signalMinWindowUs
  maxWindow : (envI64Lookup lookup "MINIMAL_SIGNAL_MAX_WINDOW_US").getD 2000000 =
    config.signalMaxWindowUs
  maxSpread : (envF64Lookup lookup parseF64 "MINIMAL_SIGNAL_MAX_SPREAD").getD 2.0 =
    config.signalMaxSpreadUsd
  minMove : (envF64Lookup lookup parseF64 "MINIMAL_SIGNAL_MIN_ABS_MOVE").getD 0.50 =
    config.signalMinAbsMoveUsd
  minOfi : (envF64Lookup lookup parseF64 "MINIMAL_SIGNAL_MIN_ABS_OFI").getD 1.0 =
    config.signalMinAbsOfi
  minImbalance : (envF64Lookup lookup parseF64 "MINIMAL_SIGNAL_MIN_IMBALANCE").getD 0.12 =
    config.signalMinImbalance
  minQty : (envF64Lookup lookup parseF64 "MINIMAL_SIGNAL_MIN_TOTAL_QTY").getD 0.000001 =
    config.signalMinTotalQty
  sigmaScale : (envF64Lookup lookup parseF64 "MINIMAL_PROB_SIGMA_SCALE").getD 1.5 =
    config.probSigmaScale
  sigmaFloor : (envF64Lookup lookup parseF64 "MINIMAL_PROB_SIGMA_FLOOR_USD").getD 2.0 =
    config.probSigmaFloorUsd
  floor : (envF64Lookup lookup parseF64 "MINIMAL_PROB_FLOOR").getD 0.02 = config.probFloor
  ceil : (envF64Lookup lookup parseF64 "MINIMAL_PROB_CEIL").getD 0.98 = config.probCeil
  ringSize : (max ((envI64Lookup lookup "MINIMAL_SIGNAL_RING_SIZE").getD 128) 8).toNat =
    config.signalRingSize
  impliedSigma : (envBoolLookup lookup "MINIMAL_USE_IMPLIED_SIGMA").getD true =
    config.useImpliedSigma

end

/-- The check passes exactly if its condition does not hold. -/
theorem refuseIf_returns {c : Bool} {e : ConfigError} {u : Unit} :
    (refuseIf c e).Returns u ↔ c = false := by
  cases c with
  | false => exact ⟨fun _ => rfl, fun _ => rfl⟩
  | true => exact ⟨fun h => (by cases h), fun h => (by cases h)⟩

/-- The check passes exactly the positive values. -/
theorem refuseNonPositive_returns {name : String} {v : Int} {u : Unit} :
    (refuseNonPositive name v).Returns u ↔ 0 < v :=
  refuseIf_returns.trans (decide_eq_false_iff_not.trans Int.not_le)

/-- The check passes exactly the values that are not negative. -/
theorem refuseNegative_returns {name : String} {v : Int} {u : Unit} :
    (refuseNegative name v).Returns u ↔ 0 ≤ v :=
  refuseIf_returns.trans (decide_eq_false_iff_not.trans Int.not_lt)

/-- A required variable is returned exactly if it was read. -/
theorem orMissing_returns_iff {name : String} {v : Option Int} {a : Int} :
    (orMissing name v).Returns a ↔ v = some a := by
  cases v with
  | none => exact ⟨fun h => (by cases h), fun h => (by cases h)⟩
  | some v => exact ⟨fun h => (by cases h; rfl), fun h => (by cases h; rfl)⟩

/-- The conversion returns the values of 32 bits as they are. -/
theorem intoI32_returns_iff {name : String} {v a : Int} :
    (intoI32 name v).Returns a ↔ v = a ∧ i32.Fits a := by
  unfold intoI32
  split
  · next value hv =>
    obtain ⟨rfl, hfits⟩ := checked_eq_some.1 hv
    exact ⟨fun h => (by cases h; exact ⟨rfl, hfits⟩), fun h => (by rw [h.1]; rfl)⟩
  · next hv =>
    refine ⟨fun h => (by cases h), ?_⟩
    rintro ⟨rfl, hfits⟩
    rw [checked_eq_some.2 ⟨rfl, hfits⟩] at hv
    cases hv

/-- A step that only may abort returns what it computes. -/
theorem lift_returns_iff {α : Type} {x : Exec α} {a : α} :
    (liftM x : Load α).Returns a ↔ x = .ok a := by
  cases x with
  | error e => exact ⟨fun h => (by cases h), fun h => (by cases h)⟩
  | ok v => exact ⟨fun h => (by cases h; rfl), fun h => (by cases h; rfl)⟩

variable {b : Build} {parseF64 : List Char → Option F} {lookup : String → Option String}

/-- An optional amount is the one that is read, or the default, and of 32 bits. -/
theorem optionalCents_returns_iff {name : String} {d a : Int} :
    (optionalCents b lookup name d).Returns a ↔ CentsRead b lookup name d a ∧ i32.Fits a := by
  unfold optionalCents
  simp only [returns_bind, lift_returns_iff, intoI32_returns_iff]
  refine ⟨?_, ?_⟩
  · rintro ⟨r, hr, ha, hfits⟩
    exact ⟨⟨r, hr, ha⟩, hfits⟩
  · rintro ⟨⟨r, hr, ha⟩, hfits⟩
    exact ⟨r, hr, ha, hfits⟩

/-- An optional number of ticks is the one that is read, or the default, and of 32 bits. -/
theorem optionalTicks_returns_iff {name : String} {d a : Int} :
    (optionalTicks lookup name d).Returns a ↔
      (envI64Lookup lookup name).getD d = a ∧ i32.Fits a := intoI32_returns_iff

variable {config : Config F}

/-- An environment is accepted as a configuration if and only if this is what it reads as, and
valid. -/
theorem fromLookup_returns_iff : (fromLookup b parseF64 lookup).Returns config ↔
    ReadsAs b parseF64 lookup config ∧ Valid config := by
  refine ⟨fun h => ⟨?_, fromLookup_ensures config h⟩, ?_⟩
  · unfold fromLookup at h
    simp only [returns_bind, lift_returns_iff, orMissing_returns_iff, intoI32_returns_iff,
      optionalCents_returns_iff, optionalTicks_returns_iff] at h
    obtain ⟨_, husdc, _, rfl, -, -, overrun, hoverrun, _, hminBuy, _, rfl, _, ⟨rfl, -⟩, h⟩ := h
    obtain ⟨_, ⟨hmaxBuy, -⟩, -, -, _, hminTte, -, -, _, ⟨hminEdge, -⟩, _, ⟨hentry, -⟩, _,
      ⟨hsell, -⟩, h⟩ := h
    obtain ⟨_, ⟨rfl, -⟩, -, -, _, ⟨rfl, -⟩, -, -, _, ⟨rfl, -⟩, -, -, _, ⟨rfl, -⟩, -, -, -, -, -, -,
      -, -, h⟩ := h
    obtain ⟨_, ⟨rfl, -⟩, -, -, _, ⟨rfl, -⟩, -, -, _, ⟨rfl, -⟩, -, -, _, ⟨rfl, -⟩, -, -, h⟩ := h
    cases h
    exact {
      live := rfl, usdc := husdc, overrun := ⟨overrun, hoverrun, rfl⟩, overrunBps := rfl
      minBuyLimit := hminBuy, maxBuyLimit := hmaxBuy, minTte := hminTte, minEdge := hminEdge
      entrySlippage := hentry, sellSlippage := hsell, exitDrop := rfl, exitArm := rfl
      exitStop := rfl, exitEdge := rfl, exitHold := rfl, quoteAge := rfl, rttCeiling := rfl
      driftWindow := rfl, driftUp := rfl, driftDown := rfl, driftBps := rfl, driftClean := rfl
      maxLag := rfl, minWindow := rfl, maxWindow := rfl, maxSpread := rfl, minMove := rfl
      minOfi := rfl, minImbalance := rfl, minQty := rfl, sigmaScale := rfl, sigmaFloor := rfl
      floor := rfl, ceil := rfl, ringSize := rfl, impliedSigma := rfl }
  · rintro ⟨hr, husdc, hband, hfits, hpositive, hnonneg⟩
    simp only [List.forall_mem_cons, List.not_mem_nil, false_implies, implies_true, and_true]
      at hfits hpositive hnonneg
    obtain ⟨hminBuy, hmaxBuy, hminEdge, hentry, hsell, hdrop, harm, hstop, hexitEdge, hup, hdown,
      hbps, hclean⟩ := hfits
    obtain ⟨htte, hdrop', hstop', hhold, hage⟩ := hpositive
    obtain ⟨harm', hrtt, hwindow, hup', hdown', hbps', hclean'⟩ := hnonneg
    obtain ⟨overrun, hoverrun, hoverrun'⟩ := hr.overrun
    unfold fromLookup
    simp only [returns_bind, lift_returns_iff, orMissing_returns_iff, intoI32_returns_iff,
      optionalCents_returns_iff, optionalTicks_returns_iff, refuseIf_returns,
      refuseNonPositive_returns, refuseNegative_returns, hr.exitHold, hr.quoteAge, hr.rttCeiling,
      hr.driftWindow]
    refine ⟨_, hr.usdc, _, rfl, (), decide_eq_false (Int.not_lt.2 husdc), _, hoverrun, _,
      hr.minBuyLimit, _, rfl, _, ⟨rfl, hminBuy⟩, ?_⟩
    refine ⟨_, ⟨hr.maxBuyLimit, hmaxBuy⟩, (), decide_eq_false (Int.not_le.2 hband), _, hr.minTte,
      (), htte, _, ⟨hr.minEdge, hminEdge⟩, _, ⟨hr.entrySlippage, hentry⟩, _,
      ⟨hr.sellSlippage, hsell⟩, ?_⟩
    refine ⟨_, ⟨hr.exitDrop, hdrop⟩, (), hdrop', _, ⟨hr.exitArm, harm⟩, (), harm', _,
      ⟨hr.exitStop, hstop⟩, (), hstop', _, ⟨hr.exitEdge, hexitEdge⟩, (), hhold, (), hage, (), hrtt,
      (), hwindow, ?_⟩
    refine ⟨_, ⟨hr.driftUp, hup⟩, (), hup', _, ⟨hr.driftDown, hdown⟩, (), hdown', _,
      ⟨hr.driftBps, hbps⟩, (), hbps', _, ⟨hr.driftClean, hclean⟩, (), hclean', ?_⟩
    rw [hr.live, hoverrun', hr.overrunBps, hr.maxLag, hr.minWindow, hr.maxWindow, hr.maxSpread,
      hr.minMove, hr.minOfi, hr.minImbalance, hr.minQty, hr.sigmaScale, hr.sigmaFloor, hr.floor,
      hr.ceil, hr.ringSize, hr.impliedSigma]
    rfl

/-! ## What can be read -/

variable (parseF64) in
/-- A number that is its default, or that a text gives; the text needs no trimming. -/
def Spelled (default x : F) : Prop :=
  x = default ∨ F64.isFinite x = true ∧ ∃ s, Text.trim s = s ∧ parseF64 s = some x

variable (parseF64) in
/-- The values of the configuration are in the ranges of the parsers. -/
structure Representable (config : Config F) : Prop where
  fits : ∀ v ∈ [config.usdcPerTradeCents, config.maxNotionalOverrunCents,
    config.maxNotionalOverrunBps, config.minDecisionTteUs, config.exitHoldUs,
    config.signalQuoteAgeUs, config.rttCeilingUs, config.polyDriftWindowUs, config.signalMaxLagUs,
    config.signalMinWindowUs, config.signalMaxWindowUs], i64.Fits v
  ringSize : 8 ≤ config.signalRingSize ∧ i64.Fits config.signalRingSize
  maxSpread : Spelled parseF64 2.0 config.signalMaxSpreadUsd
  minMove : Spelled parseF64 0.50 config.signalMinAbsMoveUsd
  minOfi : Spelled parseF64 1.0 config.signalMinAbsOfi
  minImbalance : Spelled parseF64 0.12 config.signalMinImbalance
  minQty : Spelled parseF64 0.000001 config.signalMinTotalQty
  sigmaScale : Spelled parseF64 1.5 config.probSigmaScale
  sigmaFloor : Spelled parseF64 2.0 config.probSigmaFloorUsd
  floor : Spelled parseF64 0.02 config.probFloor
  ceil : Spelled parseF64 0.98 config.probCeil

/-- What is read as an integer is in range, where the default is. -/
theorem fits_envI64 {name : String} {d : Int} (hd : i64.Fits d) :
    i64.Fits ((envI64Lookup lookup name).getD d) := by
  cases h : envI64Lookup lookup name with
  | none => exact hd
  | some v =>
    obtain ⟨raw, -, hraw⟩ := Option.bind_eq_some_iff.1 h
    exact fits_of_parseI64 hraw

/-- What is read as an amount is in range. -/
theorem fits_envDecCents {name : String} {v : Int}
    (h : envDecCentsLookup lookup b name = .ok (some v)) : i64.Fits v := by
  unfold envDecCentsLookup at h
  split at h
  · exact fits_of_parseDecCents h
  · cases h

/-- An amount that is read or left at its default is in range. -/
theorem fits_centsRead {name : String} {d v : Int} (hd : i64.Fits d)
    (h : CentsRead b lookup name d v) : i64.Fits v := by
  obtain ⟨_ | r, hr, rfl⟩ := h
  · exact hd
  · exact fits_envDecCents hr

/-- A float that is read or left at its default has a text. -/
theorem spelled_envF64 {name : String} {d : F} :
    Spelled parseF64 d ((envF64Lookup lookup parseF64 name).getD d) := by
  cases h : envF64Lookup lookup parseF64 name with
  | none => exact .inl rfl
  | some x =>
    obtain ⟨hx, hfinite⟩ := Option.filter_eq_some_iff.1 h
    obtain ⟨raw, -, hraw⟩ := Option.bind_eq_some_iff.1 hx
    exact .inr ⟨hfinite, _, Text.strip_eq_self Text.cleanEnds_strip, hraw⟩

/-- What is read is in the ranges of the parsers. -/
theorem ReadsAs.representable (h : ReadsAs b parseF64 lookup config) :
    Representable parseF64 config where
  fits := by
    simp only [List.forall_mem_cons, List.not_mem_nil, false_implies, implies_true, and_true,
      ← h.overrunBps, ← h.exitHold, ← h.quoteAge, ← h.rttCeiling, ← h.driftWindow, ← h.maxLag,
      ← h.minWindow, ← h.maxWindow]
    refine ⟨fits_envDecCents h.usdc, fits_centsRead (by decide) h.overrun, fits_envI64 (by decide),
      ?_, fits_envI64 (by decide), fits_envI64 (by decide), fits_envI64 (by decide),
      fits_envI64 (by decide), fits_envI64 (by decide), fits_envI64 (by decide),
      fits_envI64 (by decide)⟩
    have htte : i64.Fits ((envI64Lookup lookup "MINIMAL_DECISION_MIN_TTE_US").getD 0) :=
      fits_envI64 (by decide)
    rwa [h.minTte] at htte
  ringSize := by
    have hfits : i64.Fits ((envI64Lookup lookup "MINIMAL_SIGNAL_RING_SIZE").getD 128) :=
      fits_envI64 (by decide)
    have hring := h.ringSize
    simp only [Fits, i64_lo, i64_hi] at hfits ⊢
    omega
  maxSpread := h.maxSpread ▸ spelled_envF64
  minMove := h.minMove ▸ spelled_envF64
  minOfi := h.minOfi ▸ spelled_envF64
  minImbalance := h.minImbalance ▸ spelled_envF64
  minQty := h.minQty ▸ spelled_envF64
  sigmaScale := h.sigmaScale ▸ spelled_envF64
  sigmaFloor := h.sigmaFloor ▸ spelled_envF64
  floor := h.floor ▸ spelled_envF64
  ceil := h.ceil ▸ spelled_envF64

/-! ## Writing -/

/-- A text that stands between single quotes as it is, and needs no trimming. -/
def PlainText (t : String) : Prop :=
  Text.trim t.toList = t.toList ∧ '\n' ∉ t.toList ∧ '\'' ∉ t.toList ∧ '\x00' ∉ t.toList

instance : DecidablePred PlainText := fun _ => inferInstanceAs (Decidable (_ ∧ _))

/-- A name that a line can assign to and that a variable may have. -/
def PlainName (name : String) : Prop := Writable (name, "") ∧ Nameable name

/-- A capital letter is no white space. -/
theorem isWhiteSpace_of_isUpper {c : Char} (h : c.isUpper = true) :
    Text.isWhiteSpace c = false := by
  have hc := Text.isUpper_toNat h
  simp only [Text.isWhiteSpace, Bool.or_eq_false_iff, Bool.and_eq_false_iff,
    decide_eq_false_iff_not, beq_eq_false_iff_ne]
  omega

/-- Capital letters and underscores. -/
def isConstantName (name : String) : Bool :=
  !name.toList.isEmpty && name.toList.all fun c => c.isUpper || c == '_'

/-- The names of the variables can stand in a file. -/
theorem plainName_of_constant {name : String} (h : isConstantName name = true) :
    PlainName name := by
  simp only [isConstantName, Bool.and_eq_true, Bool.not_eq_true', List.isEmpty_eq_false_iff,
    List.all_eq_true, Bool.or_eq_true, beq_iff_eq] at h
  obtain ⟨hne, hall⟩ := h
  have hnot {c : Char} (hc : (c.isUpper || c == '_') = false) : c ∉ name.toList := by
    intro hmem
    rw [Bool.or_eq_false_iff, beq_eq_false_iff_ne] at hc
    rcases hall c hmem with hupper | hunderscore
    · rw [hupper] at hc
      cases hc.1
    · exact hc.2 hunderscore
  have hspace : ∀ c ∈ name.toList, Text.isWhiteSpace c = false := by
    intro c hmem
    rcases hall c hmem with hupper | rfl
    · exact isWhiteSpace_of_isUpper hupper
    · rfl
  have hne' : name ≠ "" := by simpa using hne
  refine ⟨⟨hne', ⟨fun c hc => hspace c (List.mem_of_mem_head? hc),
    fun c hc => hspace c (List.mem_of_mem_getLast? hc)⟩, fun hc => ?_, hnot rfl, hnot rfl,
    List.not_mem_nil, nofun, nofun⟩, hne', hnot rfl, hnot rfl⟩
  exact hnot (c := '#') rfl (List.mem_of_mem_head? hc)

/-- A text of digits, signs and points can stand in a file. -/
theorem plainText_of_number {s : List Char}
    (h : ∀ c ∈ s, c.isDigit = true ∨ c = '-' ∨ c = '+' ∨ c = '.') :
    PlainText (String.ofList s) := by
  rw [PlainText, String.toList_ofList]
  refine ⟨Text.trim_eq_self fun c hc => ?_, fun hc => ?_, fun hc => ?_, fun hc => ?_⟩
  · rcases h c hc with hd | rfl | rfl | rfl
    · exact Text.isWhiteSpace_of_isDigit hd
    all_goals decide
  all_goals exact absurd (h _ hc) (by decide)

/-- The digits of an integer can stand in a file. -/
theorem plainText_repr (n : Int) : PlainText n.repr := by
  rw [← String.ofList_toList (s := n.repr), toList_repr]
  refine plainText_of_number fun c hc => ?_
  rcases List.mem_append.1 hc with hc | hc
  · split_ifs at hc
    · exact .inr (.inl (List.mem_singleton.1 hc))
    · cases hc
  · exact .inl (isDigit_of_mem_toDigits c hc)

/-- The digits of an amount can stand in a file. -/
theorem plainText_writeCents (v : Int) : PlainText (String.ofList (writeCents v)) := by
  refine plainText_of_number fun c hc => ?_
  unfold writeCents at hc
  split_ifs at hc with hlo hneg
  · have hall : ("+-92233720368547758.-8".toList.all fun c =>
        decide (c.isDigit = true ∨ c = '-' ∨ c = '+' ∨ c = '.')) = true := by decide
    exact of_decide_eq_true (List.all_eq_true.1 hall c hc)
  all_goals
    simp only [List.mem_append, List.mem_singleton, List.not_mem_nil, false_or] at hc
  · rcases hc with hc | hc | hc | hc
    · exact .inr (.inl hc)
    · exact .inl (isDigit_of_mem_toDigits c hc)
    · exact .inr (.inr (.inr hc))
    · exact .inl (Digits.isDigit_of_mem_pad hc)
  · rcases hc with hc | hc | hc
    · exact .inl (isDigit_of_mem_toDigits c hc)
    · exact .inr (.inr (.inr hc))
    · exact .inl (Digits.isDigit_of_mem_pad hc)

/-- The lines that set those of the variables that have a text. -/
def setting (v : String × Option String) : Option (String × String) := v.2.map fun t => (v.1, t)

/-- In a list of settings of distinct names, each is found under its name. -/
theorem lookup_filterMap_setting {vars : List (String × Option String)}
    (hnodup : (vars.map (·.1)).Nodup) {v : String × Option String} (hv : v ∈ vars) :
    (vars.filterMap setting).lookup v.1 = v.2 := by
  induction vars with
  | nil => cases hv
  | cons w vars ih =>
    obtain ⟨hw, hnodup⟩ := List.nodup_cons.1 hnodup
    rcases List.mem_cons.1 hv with rfl | hv
    · have hnone : (vars.filterMap setting).lookup v.1 = none := by
        refine List.lookup_eq_none_iff.2 fun e he => ?_
        obtain ⟨u, hu, he⟩ := List.mem_filterMap.1 he
        obtain ⟨t, -, rfl⟩ := Option.map_eq_some_iff.1 he
        rw [bne_iff_ne]
        intro h
        exact hw (List.mem_map.2 ⟨u, hu, h.symm⟩)
      cases ht : v.2 with
      | none =>
        rw [List.filterMap_cons_none (by rw [setting, ht]; rfl)]
        exact hnone
      | some t =>
        rw [List.filterMap_cons_some (b := (v.1, t)) (by rw [setting, ht]; rfl), lookup_cons_eq,
          if_pos rfl]
    · have hne : v.1 ≠ w.1 := fun h => hw (List.mem_map.2 ⟨v, hv, h⟩)
      cases ht : w.2 with
      | none =>
        rw [List.filterMap_cons_none (by rw [setting, ht]; rfl)]
        exact ih hnodup hv
      | some t =>
        rw [List.filterMap_cons_some (b := (w.1, t)) (by rw [setting, ht]; rfl), lookup_cons_eq,
          if_neg hne]
        exact ih hnodup hv

/-- A file with a line for each of some variables gives them their texts, where the environment has
none of them. -/
theorem load_settings {path : String} {env : Environment} {vars : List (String × Option String)}
    (hnodup : (vars.map (·.1)).Nodup) (hname : ∀ v ∈ vars, PlainName v.1)
    (htext : ∀ v ∈ vars, ∀ t ∈ v.2, PlainText t) (hunset : ∀ v ∈ vars, env.vars v.1 = none) :
    ∃ env' n, loadEnvFile path (.ok (writeLines (vars.filterMap setting))) env =
      .ok (env', .ok n) ∧ ∀ v ∈ vars, env'.var v.1 = v.2 := by
  have hlines : ∀ e ∈ vars.filterMap setting, PlainName e.1 ∧ PlainText e.2 := by
    intro e he
    obtain ⟨v, hv, he⟩ := List.mem_filterMap.1 he
    obtain ⟨t, ht, rfl⟩ := Option.map_eq_some_iff.1 he
    exact ⟨hname v hv, htext v hv t ht⟩
  have hread : assignments (writeLines (vars.filterMap setting)) = vars.filterMap setting := by
    refine assignments_writeLines fun e he => ?_
    obtain ⟨⟨⟨hne, hclean, hcomment, hkey, hline, -⟩, -⟩, -, hline', hquote, -⟩ := hlines e he
    refine ⟨hne, hclean, hcomment, hkey, hline, hline', fun c hc => ?_, fun c hc => ?_⟩
    · exact beq_eq_false_iff_ne.2 fun h => hquote (h ▸ List.mem_of_mem_head? hc)
    · exact beq_eq_false_iff_ne.2 fun h => hquote (h ▸ List.mem_of_mem_getLast? hc)
  have hsettable : Settable env (assignments (writeLines (vars.filterMap setting))) := by
    rw [hread]
    rintro name value - hvalue
    obtain ⟨before, after, hsplit, -⟩ := List.lookup_eq_some_iff.1 hvalue
    have hmem : (name, value) ∈ vars.filterMap setting := by
      rw [hsplit]
      exact List.mem_append_right _ (List.mem_cons_self ..)
    obtain ⟨hplain, htext⟩ := hlines _ hmem
    exact ⟨hplain.2, htext.2.2.2⟩
  obtain ⟨env', n, hload⟩ := @exists_loadEnvFile path _ _ hsettable
  obtain ⟨-, hvars, -⟩ := runM_assign_iff.1 (loadEnvFile_ok_iff_runM.1 hload)
  refine ⟨env', n, hload, fun v hv => ?_⟩
  rw [Environment.var, hvars, hunset v hv, hread, lookup_filterMap_setting hnodup hv]
  cases v.2 <;> rfl

/-! ## The file of a configuration -/

/-- A flag as it is written in the file. -/
def writeBool (v : Bool) : Option String := some (if v then "1" else "0")

/-- An integer as it is written in the file. -/
def writeInt (v : Int) : Option String := some v.repr

/-- An amount in cents as it is written in the file, in dollars. -/
def writeAmount (v : Int) : Option String := some (String.ofList (writeCents v))

/-- The variables of a configuration; `spell` writes a number that has a default. -/
def settings (config : Config F) (spell : F → F → Option String) :
    List (String × Option String) :=
  [("POLY_ALLOW_LIVE_ORDERS", writeBool config.allowLiveOrders),
    ("MINIMAL_USDC_PER_TRADE", writeAmount config.usdcPerTradeCents),
    ("MINIMAL_MAX_NOTIONAL_OVERRUN", writeAmount config.maxNotionalOverrunCents),
    ("MINIMAL_MAX_NOTIONAL_OVERRUN_BPS", writeInt config.maxNotionalOverrunBps),
    ("MINIMAL_MIN_BUY_LIMIT", writeAmount config.minBuyLimitCents),
    ("MINIMAL_MAX_BUY_LIMIT", writeAmount config.maxBuyLimitCents),
    ("MINIMAL_DECISION_MIN_TTE_US", writeInt config.minDecisionTteUs),
    ("MINIMAL_DECISION_MIN_EDGE", writeAmount config.decisionMinEdgeCents),
    ("MINIMAL_ENTRY_SLIPPAGE", writeAmount config.entrySlippageCents),
    ("MINIMAL_SELL_SLIPPAGE", writeAmount config.sellSlippageCents),
    ("EXIT_DROP_TICKS", writeInt config.exitDropTicks),
    ("EXIT_ARM_TICKS", writeInt config.exitArmTicks),
    ("EXIT_STOP_TICKS", writeInt config.exitStopTicks),
    ("EXIT_EDGE_TICKS", writeInt config.exitEdgeTicks),
    ("EXIT_HOLD_US", writeInt config.exitHoldUs),
    ("MINIMAL_SIGNAL_QUOTE_AGE_US", writeInt config.signalQuoteAgeUs),
    ("MINIMAL_RTT_CEILING_US", writeInt config.rttCeilingUs),
    ("MINIMAL_POLY_DRIFT_WINDOW_US", writeInt config.polyDriftWindowUs),
    ("MINIMAL_POLY_DRIFT_BLOCK_UP_TICKS", writeInt config.polyDriftBlockUpTicks),
    ("MINIMAL_POLY_DRIFT_BLOCK_DOWN_TICKS", writeInt config.polyDriftBlockDownTicks),
    ("MINIMAL_POLY_DRIFT_SAFETY_BPS", writeInt config.polyDriftSafetyBps),
    ("MINIMAL_POLY_DRIFT_MIN_CLEAN_EDGE_TICKS", writeInt config.polyDriftMinCleanEdgeTicks),
    ("MINIMAL_USE_IMPLIED_SIGMA", writeBool config.useImpliedSigma),
    ("MINIMAL_SIGNAL_MAX_LAG_US", writeInt config.signalMaxLagUs),
    ("MINIMAL_SIGNAL_MIN_WINDOW_US", writeInt config.signalMinWindowUs),
    ("MINIMAL_SIGNAL_MAX_WINDOW_US", writeInt config.signalMaxWindowUs),
    ("MINIMAL_SIGNAL_MAX_SPREAD", spell 2.0 config.signalMaxSpreadUsd),
    ("MINIMAL_SIGNAL_MIN_ABS_MOVE", spell 0.50 config.signalMinAbsMoveUsd),
    ("MINIMAL_SIGNAL_MIN_ABS_OFI", spell 1.0 config.signalMinAbsOfi),
    ("MINIMAL_SIGNAL_MIN_IMBALANCE", spell 0.12 config.signalMinImbalance),
    ("MINIMAL_SIGNAL_MIN_TOTAL_QTY", spell 0.000001 config.signalMinTotalQty),
    ("MINIMAL_PROB_SIGMA_SCALE", spell 1.5 config.probSigmaScale),
    ("MINIMAL_PROB_SIGMA_FLOOR_USD", spell 2.0 config.probSigmaFloorUsd),
    ("MINIMAL_PROB_FLOOR", spell 0.02 config.probFloor),
    ("MINIMAL_PROB_CEIL", spell 0.98 config.probCeil),
    ("MINIMAL_SIGNAL_RING_SIZE", writeInt config.signalRingSize)]

/-- No variable is listed twice. -/
theorem envVars_nodup : (envVars.map (·.1)).Nodup := by decide +kernel

/-- Every variable has a name that can stand in a file. -/
theorem plainName_of_mem {v : String × Kind} (h : v ∈ envVars) : PlainName v.1 := by
  have hall : envVars.all (fun v => isConstantName v.1) = true := by decide +kernel
  exact plainName_of_constant (List.all_eq_true.1 hall v h)

/-- The settings are of the variables, in their order. -/
theorem map_settings (config : Config F) (spell : F → F → Option String) :
    (settings config spell).map (·.1) = envVars.map (·.1) := rfl

/-! ## The file is read -/

/-- A flag that is written is read back. -/
theorem envBool_of_write {name : String} {d v : Bool} (h : lookup name = writeBool v) :
    (envBoolLookup lookup name).getD d = v := by
  have hread : (["1", "true", "yes", "on"] : List String).contains (String.ofList
      (Text.toAsciiLowercase (Text.trim (if v then "1" else "0").toList))) = v := by
    cases v <;> decide +kernel
  rw [envBoolLookup, h, writeBool, Option.map_some, Option.getD_some, hread]

/-- An integer that is written is read back. -/
theorem envI64_of_write {name : String} {v : Int} (hfits : i64.Fits v)
    (h : lookup name = writeInt v) : envI64Lookup lookup name = some v := by
  rw [envI64Lookup, h, writeInt, Option.bind_some, (plainText_repr v).1, parseI64_repr hfits]

/-- An amount that is written is read back. -/
theorem envDecCents_of_write {name : String} {v : Int} (hfits : i64.Fits v)
    (h : lookup name = writeAmount v) :
    envDecCentsLookup lookup b name = .ok (some v) := by
  have htrim := (plainText_writeCents v).1
  rw [String.toList_ofList] at htrim
  simp only [envDecCentsLookup, h, writeAmount, String.toList_ofList, htrim,
    parseDecCents_writeCents b hfits]

/-- What fits 32 bits fits 64. -/
theorem fits_i64 {v : Int} (h : i32.Fits v) : i64.Fits v := by
  simp only [Fits, i32_lo, i32_hi, i64_lo, i64_hi] at h ⊢
  omega

/-- An amount that is written is read back, whatever the default is. -/
theorem centsRead_of_write {name : String} {d v : Int} (hfits : i64.Fits v)
    (h : lookup name = writeAmount v) : CentsRead b lookup name d v :=
  ⟨some v, envDecCents_of_write hfits h, rfl⟩

variable (parseF64) in
/-- The text that is written is read as the number. -/
def SpelledAs (text : Option String) (default x : F) : Prop :=
  ((text.bind fun t => parseF64 (Text.trim t.toList)).filter F64.isFinite).getD default = x ∧
    ∀ t ∈ text, PlainText t

/-- A float that some text stands for has one that can stand in a file. -/
theorem Spelled.exists_text (hchars : ∀ s x, parseF64 s = some x →
      '\n' ∉ s ∧ '\'' ∉ s ∧ '\x00' ∉ s) {d x : F} (h : Spelled parseF64 d x) :
    ∃ text, SpelledAs parseF64 text d x := by
  rcases h with rfl | ⟨hfinite, s, htrim, hs⟩
  · exact ⟨none, rfl, nofun⟩
  · refine ⟨some (String.ofList s), ?_, ?_⟩
    · rw [Option.bind_some, String.toList_ofList, htrim, hs,
        Option.filter_some_pos hfinite]
      rfl
    · rintro t ⟨⟩
      rw [PlainText, String.toList_ofList]
      exact ⟨htrim, hchars s x hs⟩

/-- Every text that is written can stand in a file. -/
theorem plainText_of_settings {spell : F → F → Option String}
    (hrep : Representable parseF64 config)
    (hspell : ∀ d x, Spelled parseF64 d x → SpelledAs parseF64 (spell d x) d x) :
    ∀ v ∈ settings config spell, ∀ t ∈ v.2, PlainText t := by
  have hbool (v : Bool) : ∀ t ∈ writeBool v, PlainText t := by
    rintro t ⟨⟩
    cases v <;> decide
  have hint (v : Int) : ∀ t ∈ writeInt v, PlainText t := by
    rintro t ⟨⟩
    exact plainText_repr v
  have hamount (v : Int) : ∀ t ∈ writeAmount v, PlainText t := by
    rintro t ⟨⟩
    exact plainText_writeCents v
  have hfloat {d x : F} (h : Spelled parseF64 d x) : ∀ t ∈ spell d x, PlainText t :=
    (hspell d x h).2
  obtain ⟨-, -, hmaxSpread, hminMove, hminOfi, hminImbalance, hminQty, hsigmaScale, hsigmaFloor,
    hfloor, hceil⟩ := hrep
  simp only [settings, List.forall_mem_cons, List.not_mem_nil, false_implies, implies_true,
    and_true]
  exact ⟨hbool _, hamount _, hamount _, hint _, hamount _, hamount _, hint _, hamount _, hamount _,
    hamount _, hint _, hint _, hint _, hint _, hint _, hint _, hint _, hint _, hint _, hint _,
    hint _, hint _, hbool _, hint _, hint _, hint _, hfloat hmaxSpread, hfloat hminMove,
    hfloat hminOfi, hfloat hminImbalance, hfloat hminQty, hfloat hsigmaScale, hfloat hsigmaFloor,
    hfloat hfloor, hfloat hceil, hint _⟩

/-- The file of a valid configuration is read as the configuration. -/
theorem readsAs_of_settings {spell : F → F → Option String} (hvalid : Valid config)
    (hrep : Representable parseF64 config)
    (hspell : ∀ d x, Spelled parseF64 d x → SpelledAs parseF64 (spell d x) d x)
    (hlookup : ∀ v ∈ settings config spell, lookup v.1 = v.2) :
    ReadsAs b parseF64 lookup config := by
  obtain ⟨-, -, hfits, -, -⟩ := hvalid
  obtain ⟨hfits64, ⟨hring, hringFits⟩, hmaxSpread, hminMove, hminOfi, hminImbalance, hminQty,
    hsigmaScale, hsigmaFloor, hfloor, hceil⟩ := hrep
  simp only [settings, List.forall_mem_cons, List.not_mem_nil, false_implies, implies_true,
    and_true] at hfits hfits64 hlookup
  obtain ⟨fminBuy, fmaxBuy, fminEdge, fentry, fsell, fdrop, farm, fstop, fexitEdge, fup, fdown,
    fbps, fclean⟩ := hfits
  obtain ⟨fusdc, foverrun, foverrunBps, ftte, fhold, fage, frtt, fwindow, flag, fminWindow,
    fmaxWindow⟩ := hfits64
  obtain ⟨live, usdc, overrun, overrunBps, minBuy, maxBuy, tte, minEdge, entry, sell, drop, arm,
    stop, exitEdge, hold, age, rtt, window, up, down, bps, clean, implied, lag, minWindow,
    maxWindow, maxSpread, minMove, minOfi, minImbalance, minQty, sigmaScale, sigmaFloor, floor,
    ceil, ring⟩ := hlookup
  have hint {name : String} {d v : Int} (hv : i64.Fits v) (h : lookup name = writeInt v) :
      (envI64Lookup lookup name).getD d = v := by
    rw [envI64_of_write hv h]
    rfl
  have hfloat {name : String} {d x : F} (hx : Spelled parseF64 d x)
      (h : lookup name = spell d x) : (envF64Lookup lookup parseF64 name).getD d = x := by
    rw [envF64Lookup, h]
    exact (hspell d x hx).1
  exact {
    live := envBool_of_write live
    usdc := envDecCents_of_write fusdc usdc
    overrun := centsRead_of_write foverrun overrun
    overrunBps := hint foverrunBps overrunBps
    minBuyLimit := envDecCents_of_write (fits_i64 fminBuy) minBuy
    maxBuyLimit := centsRead_of_write (fits_i64 fmaxBuy) maxBuy
    minTte := envI64_of_write ftte tte
    minEdge := centsRead_of_write (fits_i64 fminEdge) minEdge
    entrySlippage := centsRead_of_write (fits_i64 fentry) entry
    sellSlippage := centsRead_of_write (fits_i64 fsell) sell
    exitDrop := hint (fits_i64 fdrop) drop
    exitArm := hint (fits_i64 farm) arm
    exitStop := hint (fits_i64 fstop) stop
    exitEdge := hint (fits_i64 fexitEdge) exitEdge
    exitHold := hint fhold hold
    quoteAge := hint fage age
    rttCeiling := hint frtt rtt
    driftWindow := hint fwindow window
    driftUp := hint (fits_i64 fup) up
    driftDown := hint (fits_i64 fdown) down
    driftBps := hint (fits_i64 fbps) bps
    driftClean := hint (fits_i64 fclean) clean
    maxLag := hint flag lag
    minWindow := hint fminWindow minWindow
    maxWindow := hint fmaxWindow maxWindow
    maxSpread := hfloat hmaxSpread maxSpread
    minMove := hfloat hminMove minMove
    minOfi := hfloat hminOfi minOfi
    minImbalance := hfloat hminImbalance minImbalance
    minQty := hfloat hminQty minQty
    sigmaScale := hfloat hsigmaScale sigmaScale
    sigmaFloor := hfloat hsigmaFloor sigmaFloor
    floor := hfloat hfloor floor
    ceil := hfloat hceil ceil
    ringSize := by
      rw [hint hringFits ring]
      omega
    impliedSigma := envBool_of_write implied }

/-- The configurations that a file can give, where the environment sets none of the variables of
`from_lookup`: the valid ones, of values that can be read. A text that is read as a number has
none of the characters that a line cannot have in quotes. -/
theorem file_gives_iff (b : Build) (path : String) (hchars : ∀ s x, parseF64 s = some x →
      '\n' ∉ s ∧ '\'' ∉ s ∧ '\x00' ∉ s) {env : Environment}
    (hunset : ∀ v ∈ envVars, env.vars v.1 = none) :
    (∃ text env' n, loadEnvFile path (.ok text) env = .ok (env', .ok n) ∧
      (fromLookup b parseF64 env'.var).Returns config) ↔
      Valid config ∧ Representable parseF64 config := by
  refine ⟨?_, ?_⟩
  · rintro ⟨text, env', n, -, hreturns⟩
    obtain ⟨hreads, hvalid⟩ := fromLookup_returns_iff.1 hreturns
    exact ⟨hvalid, hreads.representable⟩
  · rintro ⟨hvalid, hrep⟩
    choose! spell hspell using fun d x (h : Spelled parseF64 d x) => h.exists_text hchars
    have hname (v : String × Option String) (hv : v ∈ settings config spell) :
        ∃ w ∈ envVars, w.1 = v.1 :=
      List.mem_map.1 (map_settings config spell ▸ List.mem_map_of_mem hv)
    obtain ⟨env', n, hload, hvars⟩ := @load_settings path env _
      (map_settings config spell ▸ envVars_nodup)
      (fun v hv => by
        obtain ⟨w, hw, he⟩ := hname v hv
        exact he ▸ plainName_of_mem hw)
      (plainText_of_settings hrep hspell)
      (fun v hv => by
        obtain ⟨w, hw, he⟩ := hname v hv
        exact he ▸ hunset w hw)
    exact ⟨_, env', n, hload,
      fromLookup_returns_iff.2 ⟨readsAs_of_settings hvalid hrep hspell hvars, hvalid⟩⟩

end

/-- Whole numbers are read. -/
def parseWhole (s : List Char) : Option Rat := (parseI64 s).map fun v : Int => (v : Rat)

/-- The texts of whole numbers have no line break, quote or NUL. -/
theorem parseWhole_chars (s : List Char) (x : Rat) (h : parseWhole s = some x) :
    '\n' ∉ s ∧ '\'' ∉ s ∧ '\x00' ∉ s := by
  obtain ⟨v, hv, -⟩ := Option.map_eq_some_iff.1 h
  have hnot {c : Char} (hc : (c.isDigit || c == '-' || c == '+') = false) : c ∉ s := by
    intro hmem
    cases s with
    | nil => cases hmem
    | cons d s =>
      obtain ⟨sign, digits, hsign, he, hdigits, -⟩ := halfValue_inv (parseI64_some.1 hv).1
      rw [he] at hmem
      simp only [Bool.or_eq_false_iff, beq_eq_false_iff_ne] at hc
      obtain ⟨⟨hdigit, hminus⟩, hplus⟩ := hc
      rcases List.mem_append.1 hmem with hmem | hmem
      · rcases hsign with rfl | rfl | rfl
        · cases hmem
        · exact hminus (List.mem_singleton.1 hmem)
        · exact hplus (List.mem_singleton.1 hmem)
      · rw [hdigits c hmem] at hdigit
        cases hdigit
  exact ⟨hnot rfl, hnot rfl, hnot rfl⟩

/-- A configuration with a spread of three dollars. -/
def wideSpread : Config Rat := { runtimeEnvShape with signalMaxSpreadUsd := 3 }

/-- A file gives the configuration with the spread of three dollars. -/
theorem file_gives_wideSpread :
    ∃ text env' n, loadEnvFile ".env.poly" (.ok text) ⟨fun _ => none, nofun⟩ =
        .ok (env', .ok n) ∧
      (fromLookup ⟨true⟩ parseWhole env'.var).Returns wideSpread := by
  have hvalid : Valid wideSpread := by
    constructor <;> decide +kernel
  have hspread : Spelled parseWhole 2.0 wideSpread.signalMaxSpreadUsd :=
    .inr ⟨rfl, ['3'], by decide, by decide +kernel⟩
  exact (file_gives_iff ⟨true⟩ ".env.poly" parseWhole_chars (fun _ _ => rfl)).2 ⟨hvalid,
    by decide, ⟨by decide, by decide⟩, hspread, .inl (by decide +kernel), .inl rfl, .inl rfl,
    .inl rfl, .inl rfl, .inl rfl, .inl rfl, .inl rfl⟩

end Config

end Polyrust
