import Polyrust.Decimal.Exact

/-!
# Where the decimal parsers return

The parsers of decimals abort on two kinds of text: the byte at which they cut the fraction is
inside a character (`Text.Boundary`), or the sum of the two halves, or its negation, is no 64-bit
number. On every other text they return in every build (`decimal_total_iff`). The parser of the
configuration multiplies without a check as well.
-/

namespace Polyrust

open IntWidth

/-! ## Slices that return -/

/-- The byte offset is between two characters, or at an end. -/
def Text.Boundary (n : Nat) (s : List Char) : Prop := ∃ a t, s = a ++ t ∧ Text.byteLen a = n

/-- A slice returns at a boundary. -/
theorem sliceAt_returns {n : Nat} {s : List Char} :
    (∃ parts, sliceAt n s = .ok parts) ↔ Text.Boundary n s := by
  refine ⟨?_, ?_⟩
  · rintro ⟨⟨a, t⟩, h⟩
    exact ⟨a, t, sliceAt_ok.1 h⟩
  · rintro ⟨a, t, h⟩
    exact ⟨(a, t), sliceAt_ok.2 h⟩

/-- A text ends at a boundary. -/
theorem Text.boundary_byteLen (s : List Char) : Text.Boundary (Text.byteLen s) s :=
  ⟨s, [], (List.append_nil s).symm, rfl⟩

/-- The fraction is read without an abort unless it is cut inside a character. -/
theorem fracField_returns {k : Nat} {frac : List Char} :
    (∃ r, fracField k frac = .ok r) ↔ (k < Text.byteLen frac → Text.Boundary k frac) := by
  unfold fracField
  by_cases hlen : k < Text.byteLen frac
  · simp only [hlen, if_true, true_implies, min_eq_right hlen.le]
    refine ⟨?_, ?_⟩
    · rintro ⟨r, h⟩
      obtain ⟨parts, hs, -⟩ := Except.ok_bind_inv h
      exact sliceAt_returns.1 ⟨parts, hs⟩
    · intro hb
      obtain ⟨⟨a, t⟩, hs⟩ := sliceAt_returns.2 hb
      simp only [hs, Except.ok_bind]
      split
      · exact ⟨_, rfl⟩
      · exact ⟨_, rfl⟩
  · simp only [hlen, if_false, false_implies, iff_true, min_eq_left (not_lt.1 hlen)]
    obtain ⟨⟨a, t⟩, hs⟩ := sliceAt_returns.2 (Text.boundary_byteLen frac)
    simp only [hs, Except.ok_bind]
    exact ⟨_, rfl⟩

/-! ## The parser of venue decimals -/

/-- With this number before the point nothing aborts: the fraction is cut between two characters,
and its sum with the whole, where that is in range, is a 64-bit number, and so is its negation. -/
structure Cut.Safe (c : Cut) (k : Nat) (whole : Int) : Prop where
  slice : k < Text.byteLen c.frac → Text.Boundary k c.frac
  sum : ∀ frac, c.ZeroTail k → halfValue (c.padded k) = some frac → i64.Fits (whole * 10 ^ k) →
    i64.Fits (whole * 10 ^ k + frac) ∧ i64.Fits (c.sign * (whole * 10 ^ k + frac))

/-- The part before the point is no 64-bit integer, or nothing aborts with it. -/
def Cut.Total (c : Cut) (k : Nat) : Prop :=
  ∀ whole, halfValue c.whole = some whole → i64.Fits whole → c.Safe k whole

/-- Zeros spell zero. -/
theorem halfValue_zeros (k : Nat) : halfValue (List.replicate k '0') = some 0 := by
  rw [halfValue_digits fun d hd => List.eq_of_mem_replicate hd ▸ rfl,
    Digits.val_zeros fun d hd => List.eq_of_mem_replicate hd]

/-- An empty text is safe. -/
theorem cut_nil_total (k : Nat) : (cut []).Total k := by
  rintro whole hwhole -
  cases hwhole
  refine ⟨nofun, fun frac _ hfrac _ => ?_⟩
  have hpadded : (cut []).padded k = List.replicate k '0' := by simp [Cut.padded, cut, cutPoint]
  rw [hpadded, halfValue_zeros] at hfrac
  cases hfrac
  simp [Fits]

section
variable {b : Build} {s : List Char} {k : Nat}

/-- A fraction of `k` characters is read in range. -/
theorem parseHalf_padded {c : Cut} (hk : i64.Fits (10 ^ k)) {frac : Int} :
    parseHalf (c.padded k) = some frac ↔ halfValue (c.padded k) = some frac := by
  rw [parseHalf_some]
  refine and_iff_left_of_imp fun h => ?_
  have hb := halfValue_bounds h
  rw [Cut.padded_length] at hb
  simp only [Fits, i64_lo, i64_hi] at hk ⊢
  omega

/-- On a safe text the parser returns. -/
theorem parseDecimalScaled_returns (hk : i64.Fits (10 ^ k)) (h : (cut (Text.trim s)).Total k) :
    ∃ r, parseDecimalScaled b s (10 ^ k) = .ok r := by
  rw [parseDecimalScaled_eq]
  split
  · exact ⟨none, rfl⟩
  split
  · exact ⟨none, rfl⟩
  next whole hwhole =>
  obtain ⟨hwhole, hfits⟩ := parseHalf_some.1 hwhole
  have hsafe := h whole hwhole hfits
  obtain ⟨field, hfield⟩ := fracField_returns.2 hsafe.slice
  rw [hfield, Except.ok_bind]
  cases field with
  | none => exact ⟨none, rfl⟩
  | some frac =>
    obtain ⟨hzero, hfrac⟩ := fracField_some.1 hfield
    dsimp only
    split
    · next scaled hscaled =>
      obtain ⟨rfl, hin⟩ := checked_eq_some.1 hscaled
      obtain ⟨hsum, hneg⟩ := hsafe.sum frac hzero ((parseHalf_padded hk).1 hfrac) hin
      rw [Build.arith_of_fits hsum, Except.ok_bind, Build.arith_of_fits hneg]
      exact ⟨_, rfl⟩
    · exact ⟨none, rfl⟩

/-- With checks it returns on no other. -/
theorem total_of_parseDecimalScaled (hk : i64.Fits (10 ^ k)) {r : Option Int}
    (h : parseDecimalScaled ⟨true⟩ s (10 ^ k) = .ok r) : (cut (Text.trim s)).Total k := by
  rw [parseDecimalScaled_eq] at h
  split at h
  · next hempty =>
    rw [List.isEmpty_iff.1 hempty]
    exact cut_nil_total k
  intro whole hwhole hfits
  rw [parseHalf_some.2 ⟨hwhole, hfits⟩] at h
  obtain ⟨field, hfield, h⟩ := Except.ok_bind_inv h
  refine ⟨fracField_returns.1 ⟨field, hfield⟩, fun frac hzero hfrac hscaled => ?_⟩
  rw [fracField_some.2 ⟨hzero, (parseHalf_padded hk).2 hfrac⟩] at hfield
  cases hfield
  dsimp only at h
  rw [checked_eq_some.2 ⟨rfl, hscaled⟩] at h
  obtain ⟨value, hvalue, h⟩ := Except.ok_bind_inv h
  obtain ⟨value', hvalue', -⟩ := Except.ok_bind_inv h
  exact Build.arith_twice.1 ⟨value, value', hvalue, hvalue'⟩ rfl

/-- The parser returns in every build exactly on the safe texts. -/
theorem parseDecimalScaled_total_iff (hk : i64.Fits (10 ^ k)) :
    (∀ b, ∃ r, parseDecimalScaled b s (10 ^ k) = .ok r) ↔ (cut (Text.trim s)).Total k := by
  refine ⟨?_, ?_⟩
  · intro h
    obtain ⟨r, hr⟩ := h ⟨true⟩
    exact total_of_parseDecimalScaled hk hr
  · intro h b
    exact parseDecimalScaled_returns hk h

end

/-! ## The parser of the configuration -/

/-- With this number before the point nothing aborts in `parse_dec_cents`, which multiplies it
without a check unless the fraction is no number; a sign alone is none. -/
structure Cut.CentsSafe (c : Cut) (whole : Int) : Prop where
  slice : 2 < Text.byteLen c.frac → Text.Boundary 2 c.frac
  sum : ∀ frac, c.ZeroTail 2 → c.frac ≠ ['-'] → c.frac ≠ ['+'] →
    halfValue (c.padded 2) = some frac →
    i64.Fits (whole * 100) ∧ i64.Fits (whole * 100 + frac) ∧
      i64.Fits (c.sign * (whole * 100 + frac))

/-- The part before the point is no 64-bit integer, or nothing aborts with it. -/
def Cut.CentsTotal (c : Cut) : Prop :=
  ∀ whole, halfValue c.whole = some whole → i64.Fits whole → c.CentsSafe whole

section
variable {b : Build} {s : List Char}

/-- The fraction of one byte is one ASCII character. -/
theorem eq_singleton_of_byteLen {s : List Char} (h : Text.byteLen s = 1) :
    ∃ c, s = [c] ∧ c.utf8Size = 1 := by
  cases s with
  | nil => cases h
  | cons c rest =>
    have hpos := c.utf8Size_pos
    have hlen : c.utf8Size + Text.byteLen rest = 1 := by
      simpa [Text.byteLen] using h
    obtain rfl := Text.eq_nil_of_byteLen (show Text.byteLen rest = 0 by omega)
    exact ⟨c, rfl, by omega⟩

/-- The integer parser on what is no number. -/
theorem parseHalf_eq_none {s : List Char} (h : halfValue s = none) : parseHalf s = none := by
  by_contra hne
  obtain ⟨v, hv⟩ := Option.ne_none_iff_exists'.1 hne
  rw [(parseHalf_some.1 hv).1] at h
  cases h

/-- One character and a zero are a number exactly when the character is a digit or a sign. -/
theorem halfValue_of_not_digit {c : Char} {rest : List Char} (hd : c.isDigit = false)
    (hm : c ≠ '-') (hp : c ≠ '+') : halfValue (c :: rest) = none := by
  by_contra hne
  obtain ⟨v, hv⟩ := Option.ne_none_iff_exists'.1 hne
  obtain ⟨sign, digits, hsign, htext, hdigits, -⟩ := halfValue_inv hv
  rcases hsign with rfl | rfl | rfl
  · obtain rfl : c :: rest = digits := htext
    have hdigit := hdigits c (List.mem_cons_self ..)
    rw [hd] at hdigit
    cases hdigit
  · exact hm (List.cons.inj htext).1
  · exact hp (List.cons.inj htext).1

/-- One digit, as tenths of a dollar. -/
theorem centsFraction_one {c : Char} (hc : c.utf8Size = 1) (hm : c ≠ '-') (hp : c ≠ '+') :
    centsFraction b [c] = fracField 2 [c] := by
  have hlen : Text.byteLen [c] = 1 := by simp [Text.byteLen, hc]
  have hslice : sliceAt 1 [c] = .ok ([c], []) := sliceAt_ok.2 ⟨rfl, hlen⟩
  have hfield : fracField 2 [c] = .ok (parseHalf [c, '0']) := by
    unfold fracField
    simp only [hlen]
    have hmin : min 1 2 = 1 := rfl
    rw [if_neg (by decide), hmin, hslice, Except.ok_bind]
    dsimp only
    rw [hlen]
    rfl
  rw [hfield, centsFraction, hlen]
  dsimp only
  rcases hd : c.isDigit with _ | _
  · have hnone : parseI64 [c] = none := parseHalf_eq_none (halfValue_of_not_digit hd hm hp)
    rw [hnone, parseHalf_eq_none (halfValue_of_not_digit hd hm hp)]
    rfl
  · have hdigits : ∀ d ∈ [c], d.isDigit = true := by simpa using hd
    have hnn := Digits.val_nonneg hdigits
    have hlt := Digits.val_lt hdigits
    have hfits : i64.Fits (Digits.val [c]) ∧ i64.Fits (Digits.val [c] * 10) := by
      simp only [Fits, i64_lo, i64_hi, List.length_singleton] at hlt ⊢
      omega
    have hdigit : parseI64 [c] = some (Digits.val [c]) :=
      parseI64_some.2 ⟨halfValue_digits hdigits, hfits.1⟩
    have htenths : Digits.val [c, '0'] = Digits.val [c] * 10 :=
      @Digits.val_append_zeros [c] ['0'] (by simp)
    have hpadded : parseHalf [c, '0'] = some (Digits.val [c] * 10) := by
      rw [← htenths]
      refine parseHalf_some.2 ⟨halfValue_digits (by simp [hd]), ?_⟩
      rw [htenths]
      exact hfits.2
    rw [hdigit, hpadded]
    dsimp only
    rw [Build.arith_of_fits hfits.2]
    rfl

/-- Two bytes need no padding. -/
theorem parseHalf_two {s : List Char} (h : Text.byteLen s = 2) :
    parseHalf (s ++ List.replicate (2 - 2) '0') = parseI64 s := by
  rw [Nat.sub_self, List.replicate_zero, List.append_nil]
  cases s with
  | nil => cases h
  | cons c rest => rfl

/-- Two bytes of fraction. -/
theorem centsFraction_two {frac : List Char} (hlen : Text.byteLen frac = 2) :
    centsFraction b frac = fracField 2 frac := by
  have hslice : sliceAt 2 frac = .ok (frac, []) :=
    sliceAt_ok.2 ⟨(List.append_nil frac).symm, hlen⟩
  have hcents : centsFraction b frac = .ok (parseI64 frac) := by
    unfold centsFraction
    rw [hlen]
    rfl
  rw [hcents]
  unfold fracField
  simp only [hlen, min_self, hslice, Except.ok_bind]
  rw [if_neg (by decide)]
  exact congrArg Except.ok (parseHalf_two hlen).symm

/-- More than two bytes of fraction: both keep the first two, and look for zeros beyond them. -/
theorem centsFraction_long {frac : List Char} {n : Nat} (hlen : Text.byteLen frac = n + 3) :
    centsFraction b frac = fracField 2 frac := by
  have hcents : centsFraction b frac = (do
      let parts ← sliceAt 2 frac
      if parts.2.all (· == '0') then return parseI64 parts.1 else return none) := by
    unfold centsFraction
    rw [hlen]
    rfl
  have hlt : 2 < n + 3 := by omega
  rw [hcents]
  unfold fracField
  simp only [hlen, hlt, if_true, min_eq_right hlt.le]
  cases hslice : sliceAt 2 frac with
  | error e => rfl
  | ok parts =>
    obtain ⟨kept, tail⟩ := parts
    have hkept := (sliceAt_ok.1 hslice).2
    simp only [Except.ok_bind, hkept]
    split
    · next hzero =>
      rw [hzero]
      exact congrArg Except.ok (parseHalf_two hkept).symm
    · next hzero =>
      rw [Bool.not_eq_true] at hzero
      rw [hzero]
      rfl

/-- The fraction of `parse_dec_cents` is read as `parse_decimal_scaled` reads two digits, but for a
sign alone. -/
theorem centsFraction_eq (b : Build) (frac : List Char) :
    centsFraction b frac =
      if frac = ['-'] ∨ frac = ['+'] then .ok none else fracField 2 frac := by
  split
  · next hsign =>
    rcases hsign with rfl | rfl <;> rfl
  next hsign =>
  rw [not_or] at hsign
  rcases hlen : Text.byteLen frac with _ | _ | _ | n
  · obtain rfl := Text.eq_nil_of_byteLen hlen
    rfl
  · obtain ⟨c, rfl, hc⟩ := eq_singleton_of_byteLen hlen
    exact centsFraction_one hc (fun he => hsign.1 (he ▸ rfl)) fun he => hsign.2 (he ▸ rfl)
  · exact centsFraction_two hlen
  · exact centsFraction_long hlen

/-- The fraction of `parse_dec_cents` is read without an abort unless it is cut inside a
character. -/
theorem centsFraction_returns {frac : List Char} :
    (∃ r, centsFraction b frac = .ok r) ↔ (2 < Text.byteLen frac → Text.Boundary 2 frac) := by
  rw [centsFraction_eq]
  split
  · next hsign =>
    refine ⟨fun _ hlt => ?_, fun _ => ⟨none, rfl⟩⟩
    rcases hsign with rfl | rfl <;> exact absurd hlt (by decide)
  · exact fracField_returns

/-- When it is read as a number. -/
theorem centsFraction_some {c : Cut} {v : Int} :
    centsFraction b c.frac = .ok (some v) ↔
      c.ZeroTail 2 ∧ c.frac ≠ ['-'] ∧ c.frac ≠ ['+'] ∧ halfValue (c.padded 2) = some v := by
  rw [centsFraction_eq]
  split
  · next hsign =>
    refine ⟨nofun, fun h => ?_⟩
    rcases hsign with hm | hp
    · exact absurd hm h.2.1
    · exact absurd hp h.2.2.1
  · next hsign =>
    rw [not_or] at hsign
    rw [fracField_some, parseHalf_padded (by decide)]
    exact ⟨fun h => ⟨h.1, hsign.1, hsign.2, h.2⟩, fun h => ⟨h.1, h.2.2.2⟩⟩

/-- The parser in terms of the cut. -/
theorem parseDecCents_eq (b : Build) (s : List Char) :
    parseDecCents b s =
      if s.isEmpty then .ok none
      else match parseHalf (cut s).whole with
        | none => .ok none
        | some whole => do
          let some frac ← centsFraction b (cut s).frac | return none
          let scaled ← b.arith i64 (whole * 100)
          let value ← b.arith i64 (scaled + frac)
          let value ← b.arith i64 ((cut s).sign * value)
          return some value := by
  have hhalf (u : List Char) :
      (if u.isEmpty = true then some 0 else parseI64 u) = parseHalf u := rfl
  unfold parseDecCents
  rcases s with _ | ⟨c, rest⟩
  · rfl
  simp only [cut, List.isEmpty_cons, Bool.false_eq_true, if_false, hhalf]
  rcases eq_or_ne c '-' with rfl | hm
  · simp only [cutPoint]
    cases parseHalf (rest.takeWhile (· ≠ '.')) <;> rfl
  rcases eq_or_ne c '+' with rfl | hp
  · simp only [cutPoint]
    cases parseHalf (rest.takeWhile (· ≠ '.')) <;> rfl
  · simp only [cutPoint, List.cons.injEq, hm, hp, false_and, imp_false, not_false_eq_true,
      implies_true]
    cases parseHalf ((c :: rest).takeWhile (· ≠ '.')) <;> rfl

/-- An empty text is safe. -/
theorem cut_nil_centsTotal : (cut []).CentsTotal := by
  rintro whole hwhole -
  cases hwhole
  refine ⟨nofun, fun frac _ _ _ hfrac => ?_⟩
  cases hfrac
  decide

/-- On a safe text `parse_dec_cents` returns. -/
theorem parseDecCents_returns (h : (cut s).CentsTotal) : ∃ r, parseDecCents b s = .ok r := by
  rw [parseDecCents_eq]
  split
  · exact ⟨none, rfl⟩
  split
  · exact ⟨none, rfl⟩
  next whole hwhole =>
  obtain ⟨hwhole, hfits⟩ := parseHalf_some.1 hwhole
  have hsafe := h whole hwhole hfits
  obtain ⟨field, hfield⟩ := (centsFraction_returns (b := b)).2 hsafe.slice
  rw [hfield, Except.ok_bind]
  cases field with
  | none => exact ⟨none, rfl⟩
  | some frac =>
    obtain ⟨hzero, hm, hp, hfrac⟩ := centsFraction_some.1 hfield
    obtain ⟨hscaled, hsum, hneg⟩ := hsafe.sum frac hzero hm hp hfrac
    dsimp only
    rw [Build.arith_of_fits hscaled, Except.ok_bind, Build.arith_of_fits hsum, Except.ok_bind,
      Build.arith_of_fits hneg]
    exact ⟨_, rfl⟩

/-- With checks it returns on no other. -/
theorem total_of_parseDecCents {r : Option Int} (h : parseDecCents ⟨true⟩ s = .ok r) :
    (cut s).CentsTotal := by
  rw [parseDecCents_eq] at h
  split at h
  · next hempty =>
    rw [List.isEmpty_iff.1 hempty]
    exact cut_nil_centsTotal
  intro whole hwhole hfits
  rw [parseHalf_some.2 ⟨hwhole, hfits⟩] at h
  obtain ⟨field, hfield, h⟩ := Except.ok_bind_inv h
  refine ⟨centsFraction_returns.1 ⟨field, hfield⟩, fun frac hzero hm hp hfrac => ?_⟩
  rw [centsFraction_some.2 ⟨hzero, hm, hp, hfrac⟩] at hfield
  cases hfield
  obtain ⟨scaled, hscaled, h⟩ := Except.ok_bind_inv h
  obtain ⟨value, hvalue, h⟩ := Except.ok_bind_inv h
  obtain ⟨value', hvalue', -⟩ := Except.ok_bind_inv h
  obtain ⟨hin, rfl⟩ := (Build.arith_checked rfl).1 hscaled
  exact ⟨hin, Build.arith_twice.1 ⟨value, value', hvalue, hvalue'⟩ rfl⟩

end

/-! ## The three parsers -/

section
variable {raw : List Char}

/-- A price adds only checks to the decimal. -/
theorem PriceTick.parseDecimal_returns {b : Build} :
    (∃ r, PriceTick.parseDecimal b raw = .ok r) ↔
      ∃ r, parseDecimalScaled b raw (10 ^ 2) = .ok r := by
  refine ⟨?_, ?_⟩
  · rintro ⟨r, h⟩
    obtain ⟨ticks, hticks, -⟩ := Except.ok_bind_inv h
    exact ⟨ticks, hticks⟩
  · rintro ⟨ticks, hticks⟩
    have hscaled : parseDecimalScaled b raw PRICE_TICKS_PER_DOLLAR = .ok ticks := hticks
    rw [PriceTick.parseDecimal, hscaled, Except.ok_bind]
    cases ticks with
    | none => exact ⟨_, rfl⟩
    | some ticks =>
      dsimp only
      split <;> exact ⟨_, rfl⟩

/-- So does an amount of shares. -/
theorem SharesAtoms.parseDecimal_returns {b : Build} :
    (∃ r, SharesAtoms.parseDecimal b raw = .ok r) ↔
      ∃ r, parseDecimalScaled b raw (10 ^ 6) = .ok r := by
  refine ⟨?_, ?_⟩
  · rintro ⟨r, h⟩
    obtain ⟨atoms, hatoms, -⟩ := Except.ok_bind_inv h
    exact ⟨atoms, hatoms⟩
  · rintro ⟨atoms, hatoms⟩
    have hscaled : parseDecimalScaled b raw ATOMS_PER_DOLLAR = .ok atoms := hatoms
    rw [SharesAtoms.parseDecimal, hscaled, Except.ok_bind]
    cases atoms with
    | none => exact ⟨_, rfl⟩
    | some atoms =>
      dsimp only
      split <;> exact ⟨_, rfl⟩

/-- The three parsers of decimals return in every build exactly on the texts that are safe for
them. -/
theorem decimal_total_iff (raw : List Char) :
    ((∀ b, ∃ r, PriceTick.parseDecimal b raw = .ok r) ↔ (cut (Text.trim raw)).Total 2) ∧
      ((∀ b, ∃ r, SharesAtoms.parseDecimal b raw = .ok r) ↔ (cut (Text.trim raw)).Total 6) ∧
      ((∀ b, ∃ r, parseDecCents b raw = .ok r) ↔ (cut raw).CentsTotal) := by
  refine ⟨?_, ?_, fun h => ?_, fun h b => parseDecCents_returns h⟩
  · simp only [PriceTick.parseDecimal_returns]
    exact parseDecimalScaled_total_iff (by decide)
  · simp only [SharesAtoms.parseDecimal_returns]
    exact parseDecimalScaled_total_iff (by decide)
  · obtain ⟨r, hr⟩ := h ⟨true⟩
    exact total_of_parseDecCents hr

/-- Fractions that are cut inside a character, sums that overflow, and the smallest integer
negated. -/
theorem decimal_not_total :
    (∀ b, PriceTick.parseDecimal b "0.1é".toList = .error .charBoundary ∧
      SharesAtoms.parseDecimal b "0.12345é".toList = .error .charBoundary ∧
      parseDecCents b "0.1é".toList = .error .charBoundary) ∧
    PriceTick.parseDecimal ⟨true⟩ "92233720368547758.08".toList = .error .overflow ∧
    PriceTick.parseDecimal ⟨true⟩ "--92233720368547758.-8".toList = .error .overflow ∧
    SharesAtoms.parseDecimal ⟨true⟩ "9223372036854.775808".toList = .error .overflow ∧
    parseDecCents ⟨true⟩ "92233720368547759".toList = .error .overflow := by
  refine ⟨?_, by decide +kernel⟩
  rintro ⟨_ | _⟩ <;> decide +kernel

end

end Polyrust
