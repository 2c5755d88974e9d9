import Polyrust.Config
import Polyrust.Decimal.Total

/-!
# Malformed environments

Four helpers read a variable, and each says "no value" of a variable that is missing as of one that
is malformed; the caller then takes the built-in default, unless the variable is a required one. So
a malformed variable alone does not make the configuration refused (`malformed_refused_iff`).

Which environments are refused is said of the texts of their variables: `StandsFor` is the number a
text stands for, `Requirement` what is asked of it, and an environment is turned down at the first
requirement that its texts do not meet, unless a text before it stops the program (`TurnedDown`).
-/

namespace Polyrust

open IntWidth ExceptT

namespace Config

/-! ## The variables -/

/-- What a variable is read as. -/
inductive Kind where
  | bool
  | int
  | float
  | cents
  deriving DecidableEq, Repr

/-- The variables that `from_lookup` reads. -/
def envVars : List (String × Kind) :=
  [("POLY_ALLOW_LIVE_ORDERS", .bool), ("MINIMAL_USDC_PER_TRADE", .cents),
    ("MINIMAL_MAX_NOTIONAL_OVERRUN", .cents), ("MINIMAL_MAX_NOTIONAL_OVERRUN_BPS", .int),
    ("MINIMAL_MIN_BUY_LIMIT", .cents), ("MINIMAL_MAX_BUY_LIMIT", .cents),
    ("MINIMAL_DECISION_MIN_TTE_US", .int), ("MINIMAL_DECISION_MIN_EDGE", .cents),
    ("MINIMAL_ENTRY_SLIPPAGE", .cents), ("MINIMAL_SELL_SLIPPAGE", .cents),
    ("EXIT_DROP_TICKS", .int), ("EXIT_ARM_TICKS", .int), ("EXIT_STOP_TICKS", .int),
    ("EXIT_EDGE_TICKS", .int), ("EXIT_HOLD_US", .int), ("MINIMAL_SIGNAL_QUOTE_AGE_US", .int),
    ("MINIMAL_RTT_CEILING_US", .int), ("MINIMAL_POLY_DRIFT_WINDOW_US", .int),
    ("MINIMAL_POLY_DRIFT_BLOCK_UP_TICKS", .int), ("MINIMAL_POLY_DRIFT_BLOCK_DOWN_TICKS", .int),
    ("MINIMAL_POLY_DRIFT_SAFETY_BPS", .int), ("MINIMAL_POLY_DRIFT_MIN_CLEAN_EDGE_TICKS", .int),
    ("MINIMAL_USE_IMPLIED_SIGMA", .bool), ("MINIMAL_SIGNAL_MAX_LAG_US", .int),
    ("MINIMAL_SIGNAL_MIN_WINDOW_US", .int), ("MINIMAL_SIGNAL_MAX_WINDOW_US", .int),
    ("MINIMAL_SIGNAL_MAX_SPREAD", .float), ("MINIMAL_SIGNAL_MIN_ABS_MOVE", .float),
    ("MINIMAL_SIGNAL_MIN_ABS_OFI", .float), ("MINIMAL_SIGNAL_MIN_IMBALANCE", .float),
    ("MINIMAL_SIGNAL_MIN_TOTAL_QTY", .float), ("MINIMAL_PROB_SIGMA_SCALE", .float),
    ("MINIMAL_PROB_SIGMA_FLOOR_USD", .float), ("MINIMAL_PROB_FLOOR", .float),
    ("MINIMAL_PROB_CEIL", .float), ("MINIMAL_SIGNAL_RING_SIZE", .int)]

section
variable {F : Type} [F64 F] {b : Build} {parseF64 : List Char → Option F}
variable {lookup : String → Option String}

/-- `s` is a value of the kind. Which texts mean "no" the program leaves open: `spellsNo` says which
ones an operator may write. -/
def Reads (parseF64 : List Char → Option F) (spellsNo : List Char → Prop) (s : List Char) :
    Kind → Prop
  | .bool => String.ofList (Text.toAsciiLowercase s) ∈ ["1", "true", "yes", "on"] ∨ spellsNo s
  | .int => ∃ v, parseI64 s = some v
  | .float => ∃ v, parseF64 s = some v ∧ F64.isFinite v = true
  | .cents => ∃ v, SpellsScaled s 2 v

/-- The variable is present and not blank, and is no value of its kind. -/
def Malformed (parseF64 : List Char → Option F) (spellsNo : List Char → Prop)
    (lookup : String → Option String) (v : String × Kind) : Prop :=
  ∃ raw, lookup v.1 = some raw ∧ Text.trim raw.toList ≠ [] ∧
    ¬ Reads parseF64 spellsNo (Text.trim raw.toList) v.2

/-! ## The texts of numbers -/

/-- How a number is written. -/
inductive Numeral where
  | int
  | cents
  deriving DecidableEq, Repr

/-- The text of a variable without the white space around it; a missing one has none. -/
def textOf (lookup : String → Option String) (name : String) : List Char :=
  Text.trim ((lookup name).getD "").toList

/-- `s` is a number of cents: before the point a number `whole` of its own, and after it, with
nothing but zeros beyond the second digit, a number `frac` of cents. -/
structure CentsText (s : List Char) (whole frac : Int) : Prop where
  nonempty : s ≠ []
  before : halfValue (cut s).whole = some whole
  fits : i64.Fits whole
  tail : (cut s).ZeroTail 2
  digits : (cut s).frac ≠ ['-'] ∧ (cut s).frac ≠ ['+']
  after : halfValue ((cut s).padded 2) = some frac

/-- No operation on the two halves leaves the range. -/
def CentsFit (s : List Char) (whole frac : Int) : Prop :=
  i64.Fits (whole * 100) ∧ i64.Fits (whole * 100 + frac) ∧
    i64.Fits ((cut s).sign * (whole * 100 + frac))

/-- The text stands for the number `v`. An amount out of range wraps, unless the build checks. -/
def StandsFor (b : Build) (s : List Char) (v : Int) : Numeral → Prop
  | .int => s ≠ [] ∧ halfValue s = some v ∧ i64.Fits v
  | .cents => ∃ whole frac, CentsText s whole frac ∧
      (b.overflowChecks = true → CentsFit s whole frac) ∧
      v = i64.wrap ((cut s).sign * (whole * 100 + frac))

/-- The text stops the program: it is an amount with a character across the second byte after the
point, or one out of range in a build that checks. -/
def Stops (b : Build) (s : List Char) : Numeral → Prop
  | .int => False
  | .cents =>
    (∃ whole, halfValue (cut s).whole = some whole ∧ i64.Fits whole ∧
      2 < Text.byteLen (cut s).frac ∧ ¬ Text.Boundary 2 (cut s).frac) ∨
    (b.overflowChecks = true ∧ ∃ whole frac, CentsText s whole frac ∧ ¬ CentsFit s whole frac)

/-! ## What the variables have to satisfy -/

/-- What is asked of the variables. A variable without a number passes all but the first. -/
inductive Requirement where
  /-- the variable has a number -/
  | given (name : String) (as : Numeral)
  /-- any number will do -/
  | any (name : String) (as : Numeral)
  /-- the number is one of 32 bits -/
  | fitsI32 (name : String) (as : Numeral)
  /-- the number is not below the bound -/
  | atLeast (name : String) (as : Numeral) (bound : Int)
  /-- the lower limit on the price is below the upper one, which is 60 cents if it is not given -/
  | band

namespace Requirement

/-- The texts of the variables do not meet the requirement. -/
def Broken (b : Build) (lookup : String → Option String) : Requirement → Prop
  | given name as => ∀ v, ¬ StandsFor b (textOf lookup name) v as
  | any _ _ => False
  | fitsI32 name as => ∃ v, StandsFor b (textOf lookup name) v as ∧ ¬ i32.Fits v
  | atLeast name as bound => ∃ v, StandsFor b (textOf lookup name) v as ∧ v < bound
  | band => ∃ lower upper,
      StandsFor b (textOf lookup "MINIMAL_MIN_BUY_LIMIT") lower .cents ∧
      (StandsFor b (textOf lookup "MINIMAL_MAX_BUY_LIMIT") upper .cents ∨
        upper = 60 ∧ ∀ v, ¬ StandsFor b (textOf lookup "MINIMAL_MAX_BUY_LIMIT") v .cents) ∧
      upper ≤ lower

/-- A text that is looked at stops the program. -/
def Stopped (b : Build) (lookup : String → Option String) : Requirement → Prop
  | given name as | any name as | fitsI32 name as | atLeast name as _ =>
    Stops b (textOf lookup name) as
  | band => Stops b (textOf lookup "MINIMAL_MIN_BUY_LIMIT") .cents ∨
      Stops b (textOf lookup "MINIMAL_MAX_BUY_LIMIT") .cents

end Requirement

/-- The requirements in the order of the source. -/
def requirements : List Requirement :=
  [.given "MINIMAL_USDC_PER_TRADE" .cents, .atLeast "MINIMAL_USDC_PER_TRADE" .cents 100,
    .any "MINIMAL_MAX_NOTIONAL_OVERRUN" .cents,
    .given "MINIMAL_MIN_BUY_LIMIT" .cents, .fitsI32 "MINIMAL_MIN_BUY_LIMIT" .cents,
    .fitsI32 "MINIMAL_MAX_BUY_LIMIT" .cents, .band,
    .given "MINIMAL_DECISION_MIN_TTE_US" .int, .atLeast "MINIMAL_DECISION_MIN_TTE_US" .int 1,
    .fitsI32 "MINIMAL_DECISION_MIN_EDGE" .cents, .fitsI32 "MINIMAL_ENTRY_SLIPPAGE" .cents,
    .fitsI32 "MINIMAL_SELL_SLIPPAGE" .cents,
    .fitsI32 "EXIT_DROP_TICKS" .int, .atLeast "EXIT_DROP_TICKS" .int 1,
    .fitsI32 "EXIT_ARM_TICKS" .int, .atLeast "EXIT_ARM_TICKS" .int 0,
    .fitsI32 "EXIT_STOP_TICKS" .int, .atLeast "EXIT_STOP_TICKS" .int 1,
    .fitsI32 "EXIT_EDGE_TICKS" .int, .atLeast "EXIT_HOLD_US" .int 1,
    .atLeast "MINIMAL_SIGNAL_QUOTE_AGE_US" .int 1, .atLeast "MINIMAL_RTT_CEILING_US" .int 0,
    .atLeast "MINIMAL_POLY_DRIFT_WINDOW_US" .int 0,
    .fitsI32 "MINIMAL_POLY_DRIFT_BLOCK_UP_TICKS" .int,
    .atLeast "MINIMAL_POLY_DRIFT_BLOCK_UP_TICKS" .int 0,
    .fitsI32 "MINIMAL_POLY_DRIFT_BLOCK_DOWN_TICKS" .int,
    .atLeast "MINIMAL_POLY_DRIFT_BLOCK_DOWN_TICKS" .int 0,
    .fitsI32 "MINIMAL_POLY_DRIFT_SAFETY_BPS" .int, .atLeast "MINIMAL_POLY_DRIFT_SAFETY_BPS" .int 0,
    .fitsI32 "MINIMAL_POLY_DRIFT_MIN_CLEAN_EDGE_TICKS" .int,
    .atLeast "MINIMAL_POLY_DRIFT_MIN_CLEAN_EDGE_TICKS" .int 0]

/-- A requirement is broken, and no text that is looked at up to there stops the program. -/
def TurnedDown (b : Build) (lookup : String → Option String) : Prop :=
  ∃ before r after, requirements = before ++ r :: after ∧ r.Broken b lookup ∧
    ∀ q ∈ before ++ [r], ¬ q.Stopped b lookup

/-! ## Texts and what the parsers return -/

/-- What an amount is read as. -/
theorem parseDecCents_some {s : List Char} {v : Int} :
    parseDecCents b s = .ok (some v) ↔ StandsFor b s v .cents := by
  have hwrap (whole frac : Int) : i64.wrap ((cut s).sign * i64.wrap (i64.wrap (whole * 100) + frac))
      = i64.wrap ((cut s).sign * (whole * 100 + frac)) := by
    have hmod (x : Int) : i64.wrap x = (x + 9223372036854775808) % 18446744073709551616 -
        9223372036854775808 := rfl
    rw [hmod, hmod, hmod, hmod, Cut.sign]
    split <;> omega
  rw [parseDecCents_eq]
  refine ⟨?_, ?_⟩
  · intro h
    split at h
    · cases h
    next hne =>
    split at h
    · cases h
    next whole hwhole =>
    obtain ⟨hbefore, hfits⟩ := parseHalf_some.1 hwhole
    obtain ⟨field, hfield, h⟩ := Except.ok_bind_inv h
    cases field with
    | none => cases h
    | some frac =>
      obtain ⟨scaled, hscaled, h⟩ := Except.ok_bind_inv h
      obtain ⟨sum, hsum, h⟩ := Except.ok_bind_inv h
      obtain ⟨value, hvalue, h⟩ := Except.ok_bind_inv h
      cases h
      obtain ⟨hzero, hm, hp, hfrac⟩ := centsFraction_some.1 hfield
      refine ⟨whole, frac, ⟨by simpa using hne, hbefore, hfits, hzero, ⟨hm, hp⟩, hfrac⟩,
        fun hb => ?_, ?_⟩
      · obtain ⟨hfit, rfl⟩ := (Build.arith_checked hb).1 hscaled
        exact ⟨hfit, Build.arith_twice.1 ⟨sum, v, hsum, hvalue⟩ hb⟩
      · obtain rfl := (Build.arith_ok_iff.1 hscaled).2
        obtain rfl := (Build.arith_ok_iff.1 hsum).2
        rw [(Build.arith_ok_iff.1 hvalue).2, hwrap]
  · rintro ⟨whole, frac, ⟨hne, hbefore, hfits, hzero, ⟨hm, hp⟩, hfrac⟩, hfit, rfl⟩
    rw [if_neg (by simpa using hne), parseHalf_some.2 ⟨hbefore, hfits⟩]
    dsimp only
    rw [centsFraction_some.2 ⟨hzero, hm, hp, hfrac⟩, Except.ok_bind]
    dsimp only
    rcases hb : b.overflowChecks with _ | _
    · have hread (x : Int) : b.arith i64 x = .ok (i64.wrap x) :=
        Build.arith_ok_iff.2 ⟨fun h => absurd (hb.symm.trans h) Bool.false_ne_true, rfl⟩
      rw [hread, Except.ok_bind, hread, Except.ok_bind, hread, hwrap]
      rfl
    · obtain ⟨hscaled, hsum, hvalue⟩ := hfit hb
      rw [Build.arith_of_fits hscaled, Except.ok_bind, Build.arith_of_fits hsum, Except.ok_bind,
        Build.arith_of_fits hvalue, wrap_of_fits hvalue]
      rfl

/-- Where reading an amount returns in a build that does not check. -/
theorem parseDecCents_ok_unchecked {s : List Char} (hb : b.overflowChecks = false) :
    (∃ r, parseDecCents b s = .ok r) ↔ ¬ Stops b s .cents := by
  rw [parseDecCents_eq]
  refine ⟨?_, fun h => ?_⟩
  · rintro ⟨r, h⟩ (⟨whole, hbefore, hfits, hlt, hinside⟩ | ⟨hchecks, -⟩)
    · split at h
      · next hempty =>
        rw [List.isEmpty_iff.1 hempty] at hlt
        cases hlt
      rw [parseHalf_some.2 ⟨hbefore, hfits⟩] at h
      obtain ⟨field, hfield, -⟩ := Except.ok_bind_inv h
      exact hinside (centsFraction_returns.1 ⟨field, hfield⟩ hlt)
    · cases hb.symm.trans hchecks
  · split
    · exact ⟨none, rfl⟩
    split
    · exact ⟨none, rfl⟩
    next whole hwhole =>
    obtain ⟨hbefore, hfits⟩ := parseHalf_some.1 hwhole
    obtain ⟨field, hfield⟩ := (centsFraction_returns (b := b)).2 fun hlt =>
      by_contra fun hinside => h (.inl ⟨whole, hbefore, hfits, hlt, hinside⟩)
    rw [hfield, Except.ok_bind]
    cases field with
    | none => exact ⟨none, rfl⟩
    | some frac =>
      obtain ⟨scaled, hscaled⟩ := Build.arith_unchecked hb i64 (whole * 100)
      obtain ⟨sum, hsum⟩ := Build.arith_unchecked hb i64 (scaled + frac)
      obtain ⟨value, hvalue⟩ := Build.arith_unchecked hb i64 ((cut s).sign * sum)
      dsimp only
      rw [hscaled, Except.ok_bind, hsum, Except.ok_bind, hvalue]
      exact ⟨_, rfl⟩

/-- Where reading an amount returns. -/
theorem parseDecCents_ok {s : List Char} :
    (∃ r, parseDecCents b s = .ok r) ↔ ¬ Stops b s .cents := by
  obtain ⟨_ | _⟩ := b
  · exact parseDecCents_ok_unchecked rfl
  refine ⟨?_, fun h => ?_⟩
  · rintro ⟨r, h⟩ (⟨whole, hbefore, hfits, hlt, hinside⟩ | ⟨-, whole, frac, htext, hfit⟩)
    · exact hinside ((total_of_parseDecCents h whole hbefore hfits).slice hlt)
    · exact hfit ((total_of_parseDecCents h whole htext.before htext.fits).sum frac htext.tail
        htext.digits.1 htext.digits.2 htext.after)
  · by_cases hne : s = []
    · subst hne
      exact ⟨none, rfl⟩
    refine parseDecCents_returns fun whole hbefore hfits => ⟨fun hlt => ?_, ?_⟩
    · exact by_contra fun hinside => h (.inl ⟨whole, hbefore, hfits, hlt, hinside⟩)
    · intro frac hzero hm hp hfrac
      exact by_contra fun hfit =>
        h (.inr ⟨rfl, whole, frac, ⟨hne, hbefore, hfits, hzero, ⟨hm, hp⟩, hfrac⟩, hfit⟩)

/-! ## The checks -/

/-- The number that a variable is read as. -/
def readNumber (b : Build) (lookup : String → Option String) (name : String) :
    Numeral → Exec (Option Int)
  | .int => .ok (envI64Lookup lookup name)
  | .cents => envDecCentsLookup lookup b name

/-- A variable that is missing is read as an empty text is. -/
theorem readNumber_eq (name : String) (as : Numeral) :
    readNumber b lookup name as =
      match as with
      | .int => .ok (parseI64 (textOf lookup name))
      | .cents => parseDecCents b (textOf lookup name) := by
  unfold readNumber textOf envI64Lookup envDecCentsLookup
  cases lookup name <;> cases as <;> rfl

/-- A number is read exactly where the text stands for it. -/
theorem readNumber_some {name : String} {as : Numeral} {v : Int} :
    readNumber b lookup name as = .ok (some v) ↔ StandsFor b (textOf lookup name) v as := by
  rw [readNumber_eq]
  cases as with
  | int =>
    rw [StandsFor, Except.ok.injEq]
    cases textOf lookup name with
    | nil => exact ⟨nofun, fun h => absurd rfl h.1⟩
    | cons c rest => exact parseI64_some.trans (and_iff_right (List.cons_ne_nil c rest)).symm
  | cents => exact parseDecCents_some

/-- Reading goes on exactly where the text does not stop the program. -/
theorem readNumber_ok {name : String} {as : Numeral} :
    (∃ r, readNumber b lookup name as = .ok r) ↔ ¬ Stops b (textOf lookup name) as := by
  rw [readNumber_eq]
  cases as with
  | int => exact ⟨fun _ => id, fun _ => ⟨_, rfl⟩⟩
  | cents => exact parseDecCents_ok

/-- No number is read where the program is not stopped and the text stands for none. -/
theorem readNumber_none {name : String} {as : Numeral} :
    readNumber b lookup name as = .ok none ↔
      (∀ v, ¬ StandsFor b (textOf lookup name) v as) ∧ ¬ Stops b (textOf lookup name) as := by
  rw [← readNumber_ok]
  simp only [← readNumber_some]
  rcases readNumber b lookup name as with e | (_ | v) <;> simp

/-- The lower limit on the price is below the upper one. -/
def checkBand (b : Build) (lookup : String → Option String) : Exec Bool := do
  let lower ← readNumber b lookup "MINIMAL_MIN_BUY_LIMIT" .cents
  let upper ← readNumber b lookup "MINIMAL_MAX_BUY_LIMIT" .cents
  return lower.all (· < upper.getD 60)

/-- The check of a requirement. -/
def Requirement.check (b : Build) (lookup : String → Option String) : Requirement → Exec Bool
  | given name as => (readNumber b lookup name as).map Option.isSome
  | any name as => (readNumber b lookup name as).map fun _ => true
  | fitsI32 name as => (readNumber b lookup name as).map fun v => v.all fun v => i32.Fits v
  | atLeast name as bound => (readNumber b lookup name as).map fun v => v.all (bound ≤ ·)
  | band => checkBand b lookup

/-- A test of what is read fails if something is read that does not pass it. -/
theorem map_fails {x : Exec (Option Int)} {p : Option Int → Bool} :
    x.map p = .ok false ↔ ∃ r, x = .ok r ∧ p r = false := by
  cases x <;> simp [Except.map]

/-- A test returns where the reading does. -/
theorem map_returns {α β : Type} {x : Exec α} {f : α → β} :
    (∃ r, x.map f = .ok r) ↔ ∃ a, x = .ok a := by
  cases x <;> simp [Except.map]

/-- A check of a number that a variable without one passes. -/
theorem readNumber_fails {name : String} {as : Numeral} {p : Int → Bool} :
    ((readNumber b lookup name as).map fun v => v.all p) = .ok false ↔
      ∃ v, StandsFor b (textOf lookup name) v as ∧ p v = false := by
  rw [map_fails]
  simp only [← readNumber_some]
  constructor
  · rintro ⟨_ | v, hread, hp⟩
    · cases hp
    · exact ⟨v, hread, hp⟩
  · rintro ⟨v, hread, hp⟩
    exact ⟨some v, hread, hp⟩

/-- A text that stands for a number does not stop the program. -/
theorem StandsFor.not_stops {name : String} {as : Numeral} {v : Int}
    (h : StandsFor b (textOf lookup name) v as) : ¬ Stops b (textOf lookup name) as :=
  readNumber_ok.1 ⟨_, readNumber_some.2 h⟩

namespace Requirement

/-- A check returns exactly where the texts it looks at do not stop the program. -/
theorem check_returns {r : Requirement} :
    (∃ ok, r.check b lookup = .ok ok) ↔ ¬ r.Stopped b lookup := by
  cases r with
  | given | any | fitsI32 | atLeast => exact map_returns.trans readNumber_ok
  | band =>
    rw [Stopped, not_or, ← readNumber_ok, ← readNumber_ok, check, checkBand]
    constructor
    · rintro ⟨ok, h⟩
      obtain ⟨lower, hlower, h⟩ := Except.ok_bind_inv h
      obtain ⟨upper, hupper, -⟩ := Except.ok_bind_inv h
      exact ⟨⟨lower, hlower⟩, ⟨upper, hupper⟩⟩
    · rintro ⟨⟨lower, hlower⟩, ⟨upper, hupper⟩⟩
      rw [hlower, Except.ok_bind, hupper]
      exact ⟨_, rfl⟩

/-- The check fails where the requirement is broken. -/
theorem check_fails {r : Requirement} :
    r.check b lookup = .ok false ↔ r.Broken b lookup ∧ ¬ r.Stopped b lookup := by
  cases r with
  | given name as =>
    refine map_fails.trans (Iff.trans ?_ readNumber_none)
    constructor
    · rintro ⟨_ | v, hread, hnone⟩
      · exact hread
      · cases hnone
    · exact fun h => ⟨none, h, rfl⟩
  | any name as => exact ⟨fun h => (by obtain ⟨r, -, hr⟩ := map_fails.1 h; cases hr), nofun⟩
  | fitsI32 name as =>
    refine readNumber_fails.trans ?_
    simp only [decide_eq_false_iff_not]
    refine (and_iff_left_of_imp ?_).symm
    rintro ⟨v, hv, -⟩
    exact hv.not_stops
  | atLeast name as bound =>
    refine readNumber_fails.trans ?_
    simp only [decide_eq_false_iff_not, Int.not_le]
    refine (and_iff_left_of_imp ?_).symm
    rintro ⟨v, hv, -⟩
    exact hv.not_stops
  | band =>
    constructor
    · intro h
      refine ⟨?_, check_returns.1 ⟨false, h⟩⟩
      obtain ⟨lower, hlower, h⟩ := Except.ok_bind_inv h
      obtain ⟨upper, hupper, h⟩ := Except.ok_bind_inv h
      cases lower with
      | none => cases h
      | some lower =>
        refine ⟨lower, upper.getD 60, readNumber_some.1 hlower, ?_, ?_⟩
        · cases upper with
          | none => exact .inr ⟨rfl, (readNumber_none.1 hupper).1⟩
          | some upper => exact .inl (readNumber_some.1 hupper)
        · exact Int.not_lt.1 (of_decide_eq_false (Except.ok.inj h))
    · rintro ⟨⟨lower, upper, hlower, hupper, hle⟩, hgoes⟩
      have hread : ∃ r, readNumber b lookup "MINIMAL_MAX_BUY_LIMIT" .cents = .ok r ∧
          r.getD 60 = upper := by
        rcases hupper with hupper | ⟨rfl, hnone⟩
        · exact ⟨some upper, readNumber_some.2 hupper, rfl⟩
        · exact ⟨none, readNumber_none.2 ⟨hnone, fun h => hgoes (.inr h)⟩, rfl⟩
      obtain ⟨r, hr, rfl⟩ := hread
      rw [check, checkBand, readNumber_some.2 hlower, Except.ok_bind, hr]
      exact congrArg Except.ok (decide_eq_false (Int.not_lt.2 hle))

end Requirement

/-! ## The checks of the steps -/

/-- A condition is refused where it holds. -/
theorem checks_refuseIf (c : Bool) (e : ConfigError) : Checks (refuseIf c e) (.ok !c) := by
  cases c with
  | false => exact ⟨⟨nofun, nofun⟩, ⟨fun _ => rfl, fun _ => ⟨(), rfl⟩⟩⟩
  | true => exact ⟨⟨fun _ => rfl, fun _ => ⟨e, rfl⟩⟩, ⟨nofun, nofun⟩⟩

/-- A value below a bound is refused. -/
theorem checks_below (m v : Int) (e : ConfigError) :
    Checks (refuseIf (v < m) e) (.ok (decide (m ≤ v))) := by
  have h := checks_refuseIf (decide (v < m)) e
  rwa [← decide_not, decide_eq_decide.2 Int.not_lt] at h

/-- A value up to a bound is refused. -/
theorem checks_upTo (m v : Int) (e : ConfigError) :
    Checks (refuseIf (v ≤ m) e) (.ok (decide (m + 1 ≤ v))) := by
  have h := checks_refuseIf (decide (v ≤ m)) e
  rwa [← decide_not, decide_eq_decide.2 (Int.not_le.trans Int.lt_iff_add_one_le)] at h

/-- A required variable is refused where it was not read. -/
theorem checks_orMissing (name : String) (v : Option Int) :
    Checks (orMissing name v) (.ok v.isSome) := by
  cases v with
  | none => exact ⟨⟨fun _ => rfl, fun _ => ⟨_, rfl⟩⟩, ⟨nofun, nofun⟩⟩
  | some v => exact ⟨⟨nofun, nofun⟩, ⟨fun _ => rfl, fun _ => ⟨v, rfl⟩⟩⟩

/-- What is returned of a required variable is what was read. -/
theorem orMissing_returns {name : String} {v : Option Int} {a : Int}
    (h : (orMissing name v).Returns a) : v = some a := by
  cases v <;> cases h
  rfl

/-- A number beyond 32 bits is refused. -/
theorem checks_intoI32 (name : String) (v : Int) :
    Checks (intoI32 name v) (.ok (decide (i32.Fits v))) := by
  unfold intoI32 checked
  by_cases hv : i32.Fits v
  · rw [if_pos hv, decide_eq_true hv]
    exact ⟨⟨nofun, nofun⟩, ⟨fun _ => rfl, fun _ => ⟨v, rfl⟩⟩⟩
  · rw [if_neg hv, decide_eq_false hv]
    exact ⟨⟨fun _ => rfl, fun _ => ⟨_, rfl⟩⟩, ⟨nofun, nofun⟩⟩

/-- The conversion changes no number. -/
theorem intoI32_returns {name : String} {v a : Int} (h : (intoI32 name v).Returns a) : v = a := by
  unfold intoI32 checked at h
  split at h
  · next hv =>
    split at hv <;> cases hv
    cases h
    rfl
  · cases h

/-- A default of 32 bits passes. -/
theorem checks_optionalCents (name : String) {d : Int} (hd : i32.Fits d) :
    Checks (optionalCents b lookup name d) ((Requirement.fitsI32 name .cents).check b lookup) := by
  have hcheck : (Requirement.fitsI32 name .cents).check b lookup =
      (envDecCentsLookup lookup b name).map fun v => v.all fun v => i32.Fits v := rfl
  rw [hcheck, optionalCents]
  rcases envDecCentsLookup lookup b name with e | (_ | v)
  · exact ⟨⟨nofun, nofun⟩, ⟨nofun, nofun⟩⟩
  · have h := checks_intoI32 name d
    rw [decide_eq_true hd] at h
    exact h
  · exact checks_intoI32 name v

/-- What is returned of an optional amount is what was read, or the default. -/
theorem optionalCents_returns {name : String} {d a : Int}
    (h : (optionalCents b lookup name d).Returns a) :
    ∃ v, envDecCentsLookup lookup b name = .ok v ∧ a = v.getD d := by
  unfold optionalCents at h
  cases hv : envDecCentsLookup lookup b name with
  | error e =>
    rw [hv] at h
    cases h
  | ok v =>
    rw [hv] at h
    exact ⟨v, rfl, (intoI32_returns h).symm⟩

/-- An optional number of ticks is refused where its text stands for one beyond 32 bits. -/
theorem checks_optionalTicks (name : String) {d : Int} (hd : i32.Fits d) :
    Checks (optionalTicks lookup name d) ((Requirement.fitsI32 name .int).check b lookup) := by
  have hcheck : (Requirement.fitsI32 name .int).check b lookup =
      .ok ((envI64Lookup lookup name).all fun v => i32.Fits v) := rfl
  rw [hcheck, optionalTicks]
  cases envI64Lookup lookup name with
  | none =>
    have h := checks_intoI32 name d
    rw [decide_eq_true hd] at h
    exact h
  | some v => exact checks_intoI32 name v

/-- A number is refused unless it is positive; the default is. -/
theorem checks_positive (name : String) {d : Int} (hd : 1 ≤ d) :
    Checks (refuseNonPositive name ((envI64Lookup lookup name).getD d))
      ((Requirement.atLeast name .int 1).check b lookup) := by
  have hcheck : (Requirement.atLeast name .int 1).check b lookup =
      .ok ((envI64Lookup lookup name).all (1 ≤ ·)) := rfl
  rw [hcheck]
  cases envI64Lookup lookup name with
  | none =>
    have h := checks_upTo 0 d (.invalid name ("non_positive value=" ++ d.repr))
    rw [zero_add, decide_eq_true hd] at h
    exact h
  | some v => exact checks_upTo 0 v _

/-- A number that may not be negative is refused where its text stands for one below zero. -/
theorem checks_nonNegative (name : String) {d : Int} (hd : 0 ≤ d) :
    Checks (refuseNegative name ((envI64Lookup lookup name).getD d))
      ((Requirement.atLeast name .int 0).check b lookup) := by
  have hcheck : (Requirement.atLeast name .int 0).check b lookup =
      .ok ((envI64Lookup lookup name).all (0 ≤ ·)) := rfl
  rw [hcheck]
  cases envI64Lookup lookup name with
  | none =>
    have h := checks_below 0 d (.invalid name ("negative value=" ++ d.repr))
    rw [decide_eq_true hd] at h
    exact h
  | some v => exact checks_below 0 v _

/-- The same of a number of ticks, which is the number that was read. -/
theorem checks_ticksPositive {name : String} {d a : Int} (hd : 1 ≤ d)
    (h : (optionalTicks lookup name d).Returns a) :
    Checks (refuseNonPositive name a) ((Requirement.atLeast name .int 1).check b lookup) := by
  rw [← intoI32_returns h]
  exact checks_positive name hd

/-- A number of ticks that was read is refused where it is below zero. -/
theorem checks_ticksNonNegative {name : String} {d a : Int} (hd : 0 ≤ d)
    (h : (optionalTicks lookup name d).Returns a) :
    Checks (refuseNegative name a) ((Requirement.atLeast name .int 0).check b lookup) := by
  rw [← intoI32_returns h]
  exact checks_nonNegative name hd

/-- The checks of an amount that has been read. -/
theorem check_atLeast_of_read {name : String} {bound v : Int}
    (h : envDecCentsLookup lookup b name = .ok (some v)) :
    (Requirement.atLeast name .cents bound).check b lookup = .ok (decide (bound ≤ v)) := by
  rw [Requirement.check, readNumber, h]
  rfl

/-- The requirement on an amount that was read. -/
theorem check_fitsI32_of_read {name : String} {v : Int}
    (h : envDecCentsLookup lookup b name = .ok (some v)) :
    (Requirement.fitsI32 name .cents).check b lookup = .ok (decide (i32.Fits v)) := by
  rw [Requirement.check, readNumber, h]
  rfl

/-- The requirement on two limits that were read, with the upper one's default. -/
theorem check_band_of_read {lower : Int} {upper : Option Int}
    (hlower : envDecCentsLookup lookup b "MINIMAL_MIN_BUY_LIMIT" = .ok (some lower))
    (hupper : envDecCentsLookup lookup b "MINIMAL_MAX_BUY_LIMIT" = .ok upper) :
    Requirement.band.check b lookup = .ok (decide (lower + 1 ≤ upper.getD 60)) := by
  rw [Requirement.check, checkBand, readNumber, readNumber, hlower, hupper]
  rfl

/-- The configuration is refused when the first of the checks that does not pass fails. -/
theorem fromLookup_refuses_checks :
    (fromLookup b parseF64 lookup).Refuses ↔
      FirstFails (requirements.map (Requirement.check b lookup)) := by
  unfold fromLookup
  simp only [requirements, List.map_cons, List.map_nil]
  -- the size of a BUY
  refine refuses_lift_checks fun usdc husdc => ?_
  refine refuses_bind_checks (checks_orMissing _ _) fun v hv => ?_
  cases orMissing_returns hv
  rw [check_atLeast_of_read husdc]
  refine refuses_bind_checks (checks_below 100 _ _) fun _ _ => ?_
  refine refuses_lift_checks fun overrun hoverrun => ?_
  rw [FirstFails]
  -- the band of the prices
  refine refuses_lift_checks fun lower hlower => ?_
  refine refuses_bind_checks (checks_orMissing _ _) fun lo hlo => ?_
  cases orMissing_returns hlo
  rw [check_fitsI32_of_read hlower]
  refine refuses_bind_checks (checks_intoI32 _ _) fun lo' hlo' => ?_
  cases intoI32_returns hlo'
  refine refuses_bind_checks (checks_optionalCents _ (by decide)) fun hi hhi => ?_
  obtain ⟨upper, hupper, rfl⟩ := optionalCents_returns hhi
  rw [check_band_of_read hlower hupper]
  refine refuses_bind_checks (checks_upTo _ _ _) fun _ _ => ?_
  -- the time to the end of the market
  refine refuses_bind_checks (checks_orMissing _ _) fun v hv => ?_
  have htte := @checks_positive b lookup "MINIMAL_DECISION_MIN_TTE_US" _ le_rfl
  rw [orMissing_returns hv] at htte
  refine refuses_bind_checks htte fun _ _ => ?_
  -- edge and slippage
  refine refuses_bind_checks (checks_optionalCents _ (by decide)) fun _ _ => ?_
  refine refuses_bind_checks (checks_optionalCents _ (by decide)) fun _ _ => ?_
  refine refuses_bind_checks (checks_optionalCents _ (by decide)) fun _ _ => ?_
  -- exits
  refine refuses_bind_checks (checks_optionalTicks _ (by decide)) fun _ h => ?_
  refine refuses_bind_checks (checks_ticksPositive (by decide) h) fun _ _ => ?_
  refine refuses_bind_checks (checks_optionalTicks _ (by decide)) fun _ h => ?_
  refine refuses_bind_checks (checks_ticksNonNegative (by decide) h) fun _ _ => ?_
  refine refuses_bind_checks (checks_optionalTicks _ (by decide)) fun _ h => ?_
  refine refuses_bind_checks (checks_ticksPositive (by decide) h) fun _ _ => ?_
  refine refuses_bind_checks (checks_optionalTicks _ (by decide)) fun _ _ => ?_
  refine refuses_bind_checks (checks_positive _ (by decide)) fun _ _ => ?_
  -- the entry gates
  refine refuses_bind_checks (checks_positive _ (by decide)) fun _ _ => ?_
  refine refuses_bind_checks (checks_nonNegative _ (by decide)) fun _ _ => ?_
  refine refuses_bind_checks (checks_nonNegative _ (by decide)) fun _ _ => ?_
  refine refuses_bind_checks (checks_optionalTicks _ (by decide)) fun _ h => ?_
  refine refuses_bind_checks (checks_ticksNonNegative (by decide) h) fun _ _ => ?_
  refine refuses_bind_checks (checks_optionalTicks _ (by decide)) fun _ h => ?_
  refine refuses_bind_checks (checks_ticksNonNegative (by decide) h) fun _ _ => ?_
  refine refuses_bind_checks (checks_optionalTicks _ (by decide)) fun _ h => ?_
  refine refuses_bind_checks (checks_ticksNonNegative (by decide) h) fun _ _ => ?_
  refine refuses_bind_checks (checks_optionalTicks _ (by decide)) fun _ h => ?_
  refine refuses_bind_checks (checks_ticksNonNegative (by decide) h) fun _ _ => ?_
  exact ⟨refuses_pure, False.elim⟩

/-- The configuration is refused when its variables are turned down. -/
theorem fromLookup_refuses :
    (fromLookup b parseF64 lookup).Refuses ↔ TurnedDown b lookup := by
  rw [fromLookup_refuses_checks, firstFails_map]
  simp only [TurnedDown, Requirement.check_fails, Requirement.check_returns, List.forall_mem_append,
    List.forall_mem_singleton, and_assoc, and_comm]

/-- The environments that are refused if a variable is malformed: those without such a variable,
and those whose variables are turned down. A malformed variable counts only where a number is
required. -/
theorem malformed_refused_iff (b : Build) (parseF64 : List Char → Option F)
    (spellsNo : List Char → Prop) (lookup : String → Option String) :
    ((∃ v ∈ envVars, Malformed parseF64 spellsNo lookup v) →
      (fromLookup b parseF64 lookup).Refuses) ↔
    (∀ v ∈ envVars, ¬ Malformed parseF64 spellsNo lookup v) ∨ TurnedDown b lookup := by
  rw [fromLookup_refuses, imp_iff_not_or]
  simp only [not_exists, not_and]

end

/-- An environment with the required variables, and a holding time that is no integer. -/
def holdTypo (name : String) : Option String :=
  [("MINIMAL_USDC_PER_TRADE", "1.01"), ("MINIMAL_MIN_BUY_LIMIT", "0.35"),
    ("MINIMAL_DECISION_MIN_TTE_US", "45000000"), ("EXIT_HOLD_US", "12s")].lookup name

/-- A holding time that is no integer is read as the default of thirty seconds. -/
theorem malformed_accepted :
    ¬ ∀ lookup : String → Option String,
      (∃ v ∈ envVars, Malformed (F := Rat) (fun _ => none) (fun _ => False) lookup v) →
        (fromLookup (F := Rat) ⟨false⟩ (fun _ => none) lookup).Refuses := by
  intro h
  have hread : (fromLookup (F := Rat) ⟨false⟩ (fun _ => none) holdTypo).run.Succeeds fun r =>
      r.Succeeds fun config => config.exitHoldUs = 30000000 := by
    decide +kernel
  have hmalformed : Malformed (F := Rat) (fun _ => none) (fun _ => False) holdTypo
      ("EXIT_HOLD_US", .int) := by
    refine ⟨"12s", by decide +kernel, by decide +kernel, ?_⟩
    rintro ⟨v, hv⟩
    have hnone : parseI64 (Text.trim "12s".toList) = none := by decide +kernel
    rw [hnone] at hv
    cases hv
  obtain ⟨e, he⟩ := h holdTypo ⟨_, by decide, hmalformed⟩
  obtain ⟨r, hr, hok⟩ := hread.exists
  cases hr.symm.trans he
  cases hok

end Config

end Polyrust
