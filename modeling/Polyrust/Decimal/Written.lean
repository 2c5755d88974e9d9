import Polyrust.Decimal.Cents

/-!
# Numbers that are written

Texts that the parsers read back: every 64-bit integer has one (`parseI64_repr`), every such number
of a fixed part of a dollar or a share that is not negative (`parseDecimalScaled_writeScaled`), and
every 64-bit number of cents (`parseDecCents_writeCents`). The least number of cents is out of the
range of its magnitude, and only a text with signs in both halves gives it.
-/

namespace Polyrust

open IntWidth

/-- The digits of a number are digits. -/
theorem isDigit_of_mem_toDigits {n : Nat} : ∀ c ∈ Nat.toDigits 10 n, c.isDigit = true :=
  fun _ hc => Nat.isDigit_of_mem_toDigits (by decide) (by decide) hc

/-- The characters of a 64-bit integer. -/
theorem toList_repr (n : Int) :
    n.repr.toList = (if n < 0 then ['-'] else []) ++ Nat.toDigits 10 n.natAbs := by
  cases n with
  | ofNat n =>
    have hpos : ¬ Int.ofNat n < 0 := Int.not_lt.2 (Int.natCast_nonneg n)
    rw [Int.repr, Nat.repr, String.toList_ofList, if_neg hpos]
    rfl
  | negSucc n =>
    rw [Int.repr, String.toList_append, Nat.repr, String.toList_ofList, String.toList_ofList,
      if_pos (Int.negSucc_lt_zero n)]
    rfl

/-- A 64-bit number is read back. -/
theorem parseI64_repr {n : Int} (h : i64.Fits n) : parseI64 n.repr.toList = some n := by
  have hread : ∀ s : List Char, s ≠ [] → halfValue s = some n → parseI64 s = some n := by
    intro s hs hval
    obtain ⟨c, rest, rfl⟩ := List.exists_cons_of_ne_nil hs
    exact parseI64_some.2 ⟨hval, h⟩
  rw [toList_repr]
  by_cases hneg : n < 0
  · rw [if_pos hneg]
    refine hread _ (List.cons_ne_nil _ _) ?_
    have hall : (Nat.toDigits 10 n.natAbs).all Char.isDigit = true :=
      List.all_eq_true.2 isDigit_of_mem_toDigits
    have hne : (Nat.toDigits 10 n.natAbs).isEmpty = false :=
      List.isEmpty_eq_false_iff.2 Nat.toDigits_ne_nil
    have habs : -(n.natAbs : Int) = n := by omega
    simp only [halfValue, List.singleton_append, List.isEmpty_cons, Bool.false_eq_true, if_false,
      hall, hne, Bool.not_true, Bool.or_false, Digits.val_toDigits, neg_one_mul, habs]
  · rw [if_neg hneg, List.nil_append]
    refine hread _ Nat.toDigits_ne_nil ?_
    have habs : (n.natAbs : Int) = n := by omega
    rw [halfValue_digits isDigit_of_mem_toDigits, Digits.val_toDigits, habs]

/-- What is read is a 64-bit number. -/
theorem fits_of_parseI64 {s : List Char} {v : Int} (h : parseI64 s = some v) : i64.Fits v := by
  cases s with
  | nil => cases h
  | cons c s => exact (parseI64_some.1 h).2

/-- A fraction of `k` digits is read as it is. -/
theorem Cut.padded_of_length {c : Cut} {k : Nat} (h : c.frac.length = k) :
    c.ZeroTail k ∧ c.padded k = c.frac := by
  refine ⟨?_, ?_⟩
  · rw [ZeroTail, List.drop_eq_nil_of_le h.le]
    exact fun _ hd => absurd hd List.not_mem_nil
  · rw [padded, List.take_of_length_le h.le, h, Nat.sub_self, List.replicate_zero, List.append_nil]

/-! ## Scaled numbers -/

/-- A number of `10 ^ k`-ths, with all its fraction digits. -/
def writeScaled (k n : Nat) : List Char :=
  Nat.toDigits 10 (n / 10 ^ k) ++ (['.'] ++ Digits.pad k (n % 10 ^ k))

/-- What is written is not empty. -/
theorem writeScaled_ne_nil {k n : Nat} : writeScaled k n ≠ [] :=
  List.append_ne_nil_of_left_ne_nil Nat.toDigits_ne_nil _

/-- What is written is a decimal. -/
theorem writeScaled_isDecimal {k n : Nat} :
    IsDecimal (writeScaled k n) false (Nat.toDigits 10 (n / 10 ^ k))
      (Digits.pad k (n % 10 ^ k)) where
  digits c hc := by
    rcases List.mem_append.1 hc with hc | hc
    · exact isDigit_of_mem_toDigits c hc
    · exact Digits.isDigit_of_mem_pad hc
  nonempty := List.append_ne_nil_of_left_ne_nil Nat.toDigits_ne_nil _
  text := ⟨[], ['.'], .inl rfl, .inl rfl, rfl⟩

/-- A number is read back, in either build. -/
theorem parseDecimalScaled_writeScaled (b : Build) {k n : Nat} (hk : 0 < k)
    (hpow : i64.Fits (10 ^ k)) (h : i64.Fits n) :
    parseDecimalScaled b (writeScaled k n) (10 ^ k) = .ok (some n) := by
  have htrim := writeScaled_isDecimal (k := k) (n := n).trim_eq
  obtain ⟨hcut, hplain⟩ := isDecimal_iff.1 (writeScaled_isDecimal (k := k) (n := n))
  have hlength : (cut (writeScaled k n)).frac.length = k := by
    rw [hcut]
    exact Digits.length_pad hk (Nat.mod_lt _ (by positivity))
  obtain ⟨hzero, hpadded⟩ := Cut.padded_of_length hlength
  have hsplit : ((n / 10 ^ k : Nat) : Int) * 10 ^ k + ((n % 10 ^ k : Nat) : Int) = n := by
    exact_mod_cast Nat.div_add_mod' n (10 ^ k)
  have hmagnitude : (cut (writeScaled k n)).magnitude k = n := by
    rw [Cut.magnitude, hpadded, hcut, Digits.val_toDigits, Digits.val_pad, hsplit]
  have hwhole : i64.Fits (Digits.val (cut (writeScaled k n)).whole * 10 ^ k) := by
    obtain ⟨hlo, hle, -⟩ := hplain.magnitude_bounds k
    rw [hmagnitude] at hle
    simp only [Fits, i64_lo, i64_hi] at h ⊢
    omega
  have hsign : (cut (writeScaled k n)).sign * n = n := by
    rw [hcut, Cut.sign, if_neg Bool.false_ne_true, one_mul]
  have hread := @parseDecimalScaled_plain b (writeScaled k n) k
  rw [htrim] at hread
  refine (hread hplain hzero hpow).2 ⟨hwhole, n, ?_, ?_⟩
  · rw [hmagnitude, Build.arith_of_fits h]
  · rw [hsign, Build.arith_of_fits h]

/-! ## Cents -/

/-- What is read is in range. -/
theorem fits_of_parseDecCents {b : Build} {s : List Char} {v : Int}
    (h : parseDecCents b s = .ok (some v)) : i64.Fits v := by
  rw [parseDecCents_eq] at h
  split at h
  · cases h
  split at h
  · cases h
  obtain ⟨frac, -, h⟩ := Except.ok_bind_inv h
  cases frac with
  | none => cases h
  | some frac =>
    obtain ⟨scaled, -, h⟩ := Except.ok_bind_inv h
    obtain ⟨sum, -, h⟩ := Except.ok_bind_inv h
    obtain ⟨value, hvalue, h⟩ := Except.ok_bind_inv h
    cases h
    exact Build.arith_fits hvalue

/-- The text of a number of cents. -/
def writeCents (v : Int) : List Char :=
  if v = i64.lo then "+-92233720368547758.-8".toList
  else
    (if v < 0 then ['-'] else []) ++
      (Nat.toDigits 10 (v.natAbs / 100) ++ (['.'] ++ Digits.pad 2 (v.natAbs % 100)))

/-- What is written of cents is a decimal. -/
theorem writeCents_isDecimal {v : Int} (h : v ≠ i64.lo) :
    IsDecimal (writeCents v) (decide (v < 0)) (Nat.toDigits 10 (v.natAbs / 100))
      (Digits.pad 2 (v.natAbs % 100)) where
  digits c hc := by
    rcases List.mem_append.1 hc with hc | hc
    · exact isDigit_of_mem_toDigits c hc
    · exact Digits.isDigit_of_mem_pad hc
  nonempty := List.append_ne_nil_of_left_ne_nil Nat.toDigits_ne_nil _
  text := by
    refine ⟨if v < 0 then ['-'] else [], ['.'], ?_, .inl rfl, if_neg h⟩
    by_cases hneg : v < 0
    · rw [if_pos hneg, decide_eq_true hneg]
      rfl
    · rw [if_neg hneg, decide_eq_false hneg]
      exact .inl rfl

/-- The value of a cut, where nothing but the least number may leave the range. -/
theorem parseDecCents_plain {s : List Char} (b : Build) (h : (cut s).Plain)
    (hzero : (cut s).ZeroTail 2) (hfits : i64.Fits ((cut s).magnitude 2)) :
    parseDecCents b s = .ok (some ((cut s).sign * (cut s).magnitude 2)) := by
  obtain ⟨hwhole, hle, hlt⟩ := h.magnitude_bounds 2
  have hpow : (10 : Int) ^ 2 = 100 := rfl
  rw [hpow] at hle hlt
  have hdigits : ∀ d ∈ (cut s).whole, d.isDigit = true := fun d hd =>
    h.1 d (List.mem_append_left _ hd)
  have hscaled : i64.Fits (Digits.val (cut s).whole * 100) := by
    simp only [Fits, i64_lo, i64_hi] at hfits ⊢
    omega
  have hhalf : parseHalf (cut s).whole = some (Digits.val (cut s).whole) := by
    refine parseHalf_some.2 ⟨halfValue_digits hdigits, ?_⟩
    simp only [Fits, i64_lo, i64_hi] at hfits ⊢
    omega
  have hsigned : i64.Fits ((cut s).sign * (cut s).magnitude 2) := by
    simp only [Fits, Cut.sign, i64_lo, i64_hi] at hfits ⊢
    split <;> omega
  have hall : ((cut s).frac.drop 2).all (· == '0') = true := by
    simpa [Cut.ZeroTail] using hzero
  rw [parseDecCents_eq, if_neg (by simpa using h.ne_nil), hhalf]
  dsimp only
  rw [h.centsFraction, h.fracField (by decide), Except.ok_bind, if_pos hall]
  dsimp only
  rw [Build.arith_of_fits hscaled, Except.ok_bind, ← Cut.magnitude_two, Build.arith_of_fits hfits,
    Except.ok_bind, Build.arith_of_fits hsigned]
  rfl

/-- Every 64-bit number of cents is read back. -/
theorem parseDecCents_writeCents (b : Build) {v : Int} (h : i64.Fits v) :
    parseDecCents b (writeCents v) = .ok (some v) := by
  by_cases hlo : v = i64.lo
  · subst hlo
    obtain ⟨_ | _⟩ := b <;> decide +kernel
  · obtain ⟨hcut, hplain⟩ := isDecimal_iff.1 (writeCents_isDecimal hlo)
    have hlength : (cut (writeCents v)).frac.length = 2 := by
      rw [hcut]
      exact Digits.length_pad (by decide) (by omega)
    obtain ⟨hzero, hpadded⟩ := Cut.padded_of_length hlength
    have hmagnitude : (cut (writeCents v)).magnitude 2 = v.natAbs := by
      rw [Cut.magnitude_two, hpadded, hcut, Digits.val_toDigits, Digits.val_pad]
      omega
    have hsign : (cut (writeCents v)).sign * v.natAbs = v := by
      rw [hcut, Cut.sign]
      by_cases hneg : v < 0
      · simp only [hneg, decide_true, if_true]
        omega
      · simp only [hneg, decide_false, Bool.false_eq_true, if_false]
        omega
    have hfits : i64.Fits ((cut (writeCents v)).magnitude 2) := by
      rw [hmagnitude]
      simp only [Fits, i64_lo, i64_hi] at h hlo ⊢
      omega
    rw [parseDecCents_plain b hplain hzero hfits, hmagnitude, hsign]

end Polyrust
