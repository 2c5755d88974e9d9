import Polyrust.Decimal.Total

/-!
# Cents

Two parsers read decimals in cents: `parse_decimal_scaled` with room for two digits those of the
venue, and `parse_dec_cents` those of the configuration. On a decimal whose cents are in range they
agree (`money_parsers_agree`): a digit beyond the second one that is not zero is refused, and
otherwise the result is the value of the decimal.
-/

namespace Polyrust

open IntWidth

/-- The cents of a decimal, unless a digit beyond the second one would be lost. -/
def Cut.cents (c : Cut) : Option Int :=
  if (c.frac.drop 2).all (· == '0') then some (c.sign * c.magnitude 2) else none

/-- The cents of a decimal with this whole part are in range, whatever the fraction is. -/
def Cut.CentsFit (c : Cut) : Prop := 100 * Digits.val c.whole + 99 ≤ i64.hi

/-! ## On plain digits -/

section
variable {c : Cut}

/-- The fraction field of plain digits. -/
theorem Cut.Plain.fracField (h : c.Plain) {k : Nat} (hk : i64.Fits (10 ^ k)) :
    fracField k c.frac =
      .ok (if (c.frac.drop k).all (· == '0') then some (Digits.val (c.padded k)) else none) := by
  have hfrac : ∀ d ∈ c.frac, d.isDigit = true := fun d hd => h.1 d (List.mem_append_right _ hd)
  rw [fracField_of_ascii k (halfValue_ascii (halfValue_digits hfrac)),
    (parseHalf_padded hk).2 (halfValue_digits (h.padded k))]

/-- Plain digits are no sign alone. -/
theorem Cut.Plain.centsFraction (h : c.Plain) (b : Build) :
    centsFraction b c.frac = Polyrust.fracField 2 c.frac := by
  have hdigit : ∀ d, d.isDigit = false → c.frac ≠ [d] := by
    intro d hd hfrac
    have hmem : d ∈ c.whole ++ c.frac := by
      rw [hfrac]
      exact List.mem_append_right _ (List.mem_singleton_self d)
    rw [h.1 d hmem] at hd
    cases hd
  rw [centsFraction_eq, if_neg (not_or.2 ⟨hdigit '-' rfl, hdigit '+' rfl⟩)]

/-- The whole half of plain digits is read as its value. -/
theorem Cut.Plain.parseHalf_whole (h : c.Plain) (hfit : c.CentsFit) :
    parseHalf c.whole = some (Digits.val c.whole) := by
  have hdigits : ∀ d ∈ c.whole, d.isDigit = true := fun d hd => h.1 d (List.mem_append_left _ hd)
  have hnonneg := Digits.val_nonneg hdigits
  refine parseHalf_some.2 ⟨halfValue_digits hdigits, ?_⟩
  simp only [CentsFit, Fits, i64_lo, i64_hi] at hfit ⊢
  omega

/-- The cents of a text. -/
theorem Cut.magnitude_two (c : Cut) :
    c.magnitude 2 = Digits.val c.whole * 100 + Digits.val (c.padded 2) := rfl

/-- None of the operations of the two parsers leaves the range. -/
theorem Cut.Plain.cents_range (h : c.Plain) (hfit : c.CentsFit) :
    i64.Fits (Digits.val c.whole * 100) ∧ i64.Fits (c.magnitude 2) ∧
      i64.Fits (c.sign * c.magnitude 2) := by
  obtain ⟨hwhole, hle, hlt⟩ := h.magnitude_bounds 2
  simp only [CentsFit, Fits, sign, i64_lo, i64_hi] at hfit ⊢
  split <;> omega

end

/-! ## The two parsers -/

section
variable {s : List Char}

/-- `parse_decimal_scaled` on a decimal. -/
theorem parseDecimalScaled_cents (b : Build) (h : (cut (Text.trim s)).Plain)
    (hfit : (cut (Text.trim s)).CentsFit) :
    parseDecimalScaled b s 100 = .ok (cut (Text.trim s)).cents := by
  obtain ⟨hscaled, hsum, hsigned⟩ := h.cents_range hfit
  have hpow : (10 : Int) ^ 2 = 100 := rfl
  have heq := parseDecimalScaled_eq b s 2
  rw [hpow, if_neg (by simpa using h.ne_nil), h.parseHalf_whole hfit] at heq
  refine heq.trans ?_
  dsimp only
  rw [h.fracField (by decide), Except.ok_bind, Cut.cents]
  by_cases hzero : ((cut (Text.trim s)).frac.drop 2).all (· == '0') = true
  · rw [if_pos hzero, if_pos hzero]
    dsimp only
    rw [checked_eq_some.2 ⟨rfl, hscaled⟩]
    dsimp only
    rw [← Cut.magnitude_two, Build.arith_of_fits hsum, Except.ok_bind, Build.arith_of_fits hsigned]
    rfl
  · rw [if_neg hzero, if_neg hzero]
    rfl

/-- `parse_dec_cents` on a decimal. -/
theorem parseDecCents_cents (b : Build) (h : (cut s).Plain) (hfit : (cut s).CentsFit) :
    parseDecCents b s = .ok (cut s).cents := by
  obtain ⟨hscaled, hsum, hsigned⟩ := h.cents_range hfit
  rw [parseDecCents_eq, if_neg (by simpa using h.ne_nil), h.parseHalf_whole hfit]
  dsimp only
  rw [h.centsFraction, h.fracField (by decide), Except.ok_bind, Cut.cents]
  by_cases hzero : ((cut s).frac.drop 2).all (· == '0') = true
  · rw [if_pos hzero, if_pos hzero]
    dsimp only
    rw [Build.arith_of_fits hscaled, Except.ok_bind, ← Cut.magnitude_two, Build.arith_of_fits hsum,
      Except.ok_bind, Build.arith_of_fits hsigned]
    rfl
  · rw [if_neg hzero, if_neg hzero]
    rfl

/-! ## Agreement -/

variable {neg : Bool} {whole frac : List Char}

/-- A decimal has no white space. -/
theorem IsDecimal.trim_eq (h : IsDecimal s neg whole frac) : Text.trim s = s := by
  obtain ⟨sign, point, hsign, hpoint, htext⟩ := h.text
  refine Text.trim_eq_self fun c hc => ?_
  rw [htext, List.mem_append, List.mem_append, List.mem_append] at hc
  rcases hc with hc | hc | hc | hc
  · cases neg with
    | true =>
      rw [show sign = ['-'] from hsign, List.mem_singleton] at hc
      rw [hc]
      rfl
    | false =>
      rcases hsign with rfl | rfl
      · cases hc
      · rw [List.mem_singleton.1 hc]
        rfl
  · exact Text.isWhiteSpace_of_isDigit (h.digits c (List.mem_append_left _ hc))
  · rcases hpoint with rfl | ⟨rfl, -⟩
    · rw [List.mem_singleton.1 hc]
      rfl
    · cases hc
  · exact Text.isWhiteSpace_of_isDigit (h.digits c (List.mem_append_right _ hc))

/-- On a decimal whose cents are in range the two parsers agree, in every build: they refuse it if
and only if a digit beyond the second one is not zero, and give its value in cents otherwise. -/
theorem money_parsers_agree (b : Build) (h : IsDecimal s neg whole frac)
    (hfit : 100 * Digits.val whole + 99 ≤ i64.hi) :
    parseDecCents b s = parseDecimalScaled b s 100 ∧
      (parseDecCents b s = .ok none ↔ ∃ d ∈ frac.drop 2, d ≠ '0') ∧
      ((∀ d ∈ frac.drop 2, d = '0') →
        ∃ cents : Int, parseDecCents b s = .ok (some cents) ∧
          (cents : ℚ) = decimalValue neg whole frac * 100) := by
  obtain ⟨hcut, hplain⟩ := isDecimal_iff.1 h
  have hroom : (cut s).CentsFit := by
    rw [hcut]
    exact hfit
  have hvenue : parseDecimalScaled b s 100 = .ok (cut s).cents := by
    have hcents := @parseDecimalScaled_cents s b
    rw [h.trim_eq] at hcents
    exact hcents hplain hroom
  rw [parseDecCents_cents b hplain hroom, hvenue, hcut]
  refine ⟨rfl, ?_, fun hzero => ?_⟩
  · rw [Except.ok.injEq, Cut.cents, ite_eq_right_iff]
    simp
  · refine ⟨_, congrArg Except.ok (if_pos (by simpa using hzero)), ?_⟩
    have hvalue := @Cut.value_eq ⟨neg, whole, frac⟩ 2 hzero
    norm_num at hvalue
    push_cast
    exact hvalue.symm

end

/-- A dollar and a half, negative and with a third digit. -/
theorem money_parsers_agree_negative :
    parseDecCents ⟨true⟩ "-1.500".toList = parseDecimalScaled ⟨true⟩ "-1.500".toList 100 ∧
      parseDecCents ⟨true⟩ "-1.500".toList = .ok (some (-150)) := by
  have h : IsDecimal "-1.500".toList true ['1'] ['5', '0', '0'] :=
    ⟨by simp, by simp, ['-'], ['.'], rfl, .inl rfl, rfl⟩
  exact ⟨(money_parsers_agree ⟨true⟩ h (by decide)).1, by decide +kernel⟩

end Polyrust
