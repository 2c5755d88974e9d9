import Mathlib.Algebra.Order.Field.Rat
import Mathlib.Tactic.FieldSimp
import Polyrust.Decimal
import Polyrust.Lib.Digits

/-!
# What the decimal parser accepts

A decimal is an optional sign, ASCII digits with at most one point, and at least one digit
(`IsDecimal`). The parser cuts a text at its sign and its point (`cut`) and gives both halves to an
integer parser, which accepts a sign of its own; an empty half counts as zero.
-/

namespace Polyrust

open IntWidth

/-! ## Decimals and their values -/

/-- The texts of a sign. -/
def SignText : Bool → List Char → Prop
  | true, t => t = ['-']
  | false, t => t = [] ∨ t = ['+']

/-- `t` is a decimal with the digits `whole` before the point and `frac` after it. -/
structure IsDecimal (t : List Char) (neg : Bool) (whole frac : List Char) : Prop where
  digits : ∀ c ∈ whole ++ frac, c.isDigit = true
  nonempty : whole ++ frac ≠ []
  text : ∃ sign point, SignText neg sign ∧ (point = ['.'] ∨ point = [] ∧ frac = []) ∧
    t = sign ++ (whole ++ (point ++ frac))

/-- The value of a decimal. -/
def decimalValue (neg : Bool) (whole frac : List Char) : ℚ :=
  (if neg then -1 else 1) * (Digits.val whole + Digits.val frac / 10 ^ frac.length)

/-- `s` is a decimal whose value times `10 ^ k` is the 64-bit integer `v`, with nothing but zeros
beyond the `k`-th fraction digit. -/
def SpellsScaled (s : List Char) (k : Nat) (v : Int) : Prop :=
  ∃ neg whole frac, IsDecimal (Text.trim s) neg whole frac ∧ (∀ c ∈ frac.drop k, c = '0') ∧
    (v : ℚ) = decimalValue neg whole frac * 10 ^ k ∧ i64.Fits v

/-! ## The cut of a text -/

/-- A text, cut at its sign and at its first point. -/
structure Cut where
  neg : Bool
  whole : List Char
  frac : List Char

/-- The cut of what follows the sign. -/
def cutPoint (neg : Bool) (body : List Char) : Cut :=
  ⟨neg, body.takeWhile (· ≠ '.'), (body.dropWhile (· ≠ '.')).drop 1⟩

/-- The cut of a text. -/
def cut : List Char → Cut
  | '-' :: rest => cutPoint true rest
  | '+' :: rest => cutPoint false rest
  | t => cutPoint false t

namespace Cut

/-- The sign of what was cut. -/
def sign (c : Cut) : Int := if c.neg then -1 else 1

/-- The first `k` fraction characters, padded with zeros. -/
def padded (c : Cut) (k : Nat) : List Char :=
  c.frac.take k ++ List.replicate (k - (c.frac.take k).length) '0'

/-- The value of the digits times `10 ^ k`. -/
def magnitude (c : Cut) (k : Nat) : Int :=
  Digits.val c.whole * 10 ^ k + Digits.val (c.padded k)

/-- Nothing but zeros beyond the `k`-th fraction digit. -/
def ZeroTail (c : Cut) (k : Nat) : Prop := ∀ d ∈ c.frac.drop k, d = '0'

/-- Both halves are plain digits, and there is a digit. -/
def Plain (c : Cut) : Prop :=
  (∀ d ∈ c.whole ++ c.frac, d.isDigit = true) ∧ c.whole ++ c.frac ≠ []

end Cut

/-- A half of a text, read by the integer parser. -/
def parseHalf (s : List Char) : Option Int := if s.isEmpty then some 0 else parseI64 s

/-- The fraction, as `parse_decimal_scaled` reads it with room for `k` digits. -/
def fracField (k : Nat) (frac : List Char) : Exec (Option Int) := do
  if k < Text.byteLen frac then
    let (_, tail) ← sliceAt k frac
    if !tail.all (· == '0') then return none
  let (kept, _) ← sliceAt (min (Text.byteLen frac) k) frac
  return parseHalf (kept ++ List.replicate (k - Text.byteLen kept) '0')

/-- The loop counts the digits of a power of ten. -/
theorem decimalScaleDigitsLoop_pow {fuel k : Nat} (h : k ≤ fuel) (d : Nat) :
    decimalScaleDigitsLoop fuel (10 ^ k) d = some (d + k) := by
  induction fuel generalizing k d with
  | zero =>
    obtain rfl : k = 0 := by omega
    rfl
  | succ fuel ih =>
    cases k with
    | zero => simp [decimalScaleDigitsLoop]
    | succ k =>
      have hpos : (0 : Int) < 10 ^ k := by positivity
      have hlt : (1 : Int) < 10 ^ (k + 1) := by rw [pow_succ]; omega
      have hmod : (10 : Int) ^ (k + 1) % 10 = 0 := by rw [pow_succ]; omega
      have hdiv : (10 : Int) ^ (k + 1) / 10 = 10 ^ k := by rw [pow_succ]; omega
      rw [decimalScaleDigitsLoop, if_pos hlt, if_neg (by rw [hmod]; simp), hdiv, ih (by omega)]
      congr 1
      omega

/-- The exponent of a power of ten. -/
theorem decimalScaleDigits_pow (k : Nat) : decimalScaleDigits (10 ^ k) = some k := by
  have h : k ≤ ((10 : Int) ^ k).toNat := by
    have : ((10 : Int) ^ k).toNat = 10 ^ k := by norm_cast
    rw [this]
    exact (Nat.lt_pow_self (by decide)).le
  rw [decimalScaleDigits, decimalScaleDigitsLoop_pow h, zero_add]

/-- What the parser does with the fraction, and then with its value. -/
theorem fracField_bind (k : Nat) (frac : List Char) (f : Int → Exec (Option Int)) :
    (do
      if k < Text.byteLen frac then
        let (_, tail) ← sliceAt k frac
        if !tail.all (· == '0') then return none
      let (kept, _) ← sliceAt (min (Text.byteLen frac) k) frac
      let some value := parseHalf (kept ++ List.replicate (k - Text.byteLen kept) '0')
        | return none
      f value) =
    (do
      let some value ← fracField k frac | return none
      f value) := by
  unfold fracField
  by_cases hlen : k < Text.byteLen frac
  · simp only [hlen, if_true]
    cases sliceAt k frac with
    | error e => rfl
    | ok parts =>
      simp only [Except.ok_bind]
      split
      · rfl
      · cases sliceAt (min (Text.byteLen frac) k) frac <;> rfl
  · simp only [hlen, if_false]
    cases sliceAt (min (Text.byteLen frac) k) frac <;> rfl

/-- The parser in terms of the cut. -/
theorem parseDecimalScaled_eq (b : Build) (s : List Char) (k : Nat) :
    parseDecimalScaled b s (10 ^ k) =
      if (Text.trim s).isEmpty then .ok none
      else match parseHalf (cut (Text.trim s)).whole with
        | none => .ok none
        | some whole => do
          let some frac ← fracField k (cut (Text.trim s)).frac | return none
          let some scaled := i64.checked (whole * 10 ^ k) | return none
          let value ← b.arith i64 (scaled + frac)
          let value ← b.arith i64 ((cut (Text.trim s)).sign * value)
          return some value := by
  have hpos : ¬ (10 : Int) ^ k ≤ 0 := not_le.2 (by positivity)
  have hhalf (u : List Char) :
      (if u.isEmpty = true then some 0 else parseI64 u) = parseHalf u := rfl
  unfold parseDecimalScaled
  simp only [decimalScaleDigits_pow, hpos, decide_false, Bool.or_false]
  generalize Text.trim s = t
  rcases t with _ | ⟨c, rest⟩
  · rfl
  simp only [cut, List.isEmpty_cons, Bool.false_eq_true, if_false, hhalf, ← fracField_bind]
  rcases eq_or_ne c '-' with rfl | hm
  · simp only [cutPoint]
    cases parseHalf (rest.takeWhile (· ≠ '.')) <;> rfl
  rcases eq_or_ne c '+' with rfl | hp
  · simp only [cutPoint]
    cases parseHalf (rest.takeWhile (· ≠ '.')) <;> rfl
  · simp only [cutPoint, List.cons.injEq, hm, hp, false_and, imp_false, not_false_eq_true,
      implies_true]
    cases parseHalf ((c :: rest).takeWhile (· ≠ '.')) <;> rfl

/-! ## The cut of a decimal -/

/-- A text without a sign is cut at its point. -/
theorem cut_of_head {t : List Char} (hm : t.head? ≠ some '-') (hp : t.head? ≠ some '+') :
    cut t = cutPoint false t := by
  unfold cut
  split
  · exact absurd rfl hm
  · exact absurd rfl hp
  · rfl

/-- A text is its sign followed by what the cut at the point is of. -/
theorem cut_text (t : List Char) :
    ∃ sign body, SignText (cut t).neg sign ∧ t = sign ++ body ∧
      cut t = cutPoint (cut t).neg body := by
  unfold cut
  split
  · exact ⟨['-'], _, rfl, rfl, rfl⟩
  · exact ⟨['+'], _, .inr rfl, rfl, rfl⟩
  · exact ⟨[], _, .inl rfl, rfl, rfl⟩

/-- The two halves of a body, and the point between them. -/
theorem cutPoint_text (neg : Bool) (body : List Char) :
    ∃ point, (point = ['.'] ∨ point = [] ∧ (cutPoint neg body).frac = []) ∧
      body = (cutPoint neg body).whole ++ (point ++ (cutPoint neg body).frac) := by
  have hb : (cutPoint neg body).whole ++ body.dropWhile (· ≠ '.') = body :=
    List.takeWhile_append_dropWhile
  have hf : (cutPoint neg body).frac = (body.dropWhile (· ≠ '.')).drop 1 := rfl
  have hhead := List.head?_dropWhile_not (· ≠ '.') body
  cases hd : body.dropWhile (· ≠ '.') with
  | nil =>
    rw [hd] at hb hf
    exact ⟨[], .inr ⟨rfl, hf⟩, by rw [hf]; exact hb.symm⟩
  | cons c rest =>
    rw [hd] at hb hf hhead
    obtain rfl : c = '.' := by simpa using hhead
    exact ⟨['.'], .inl rfl, by rw [hf]; exact hb.symm⟩

/-- The cut of digits, a point and more characters. -/
theorem cutPoint_digits (neg : Bool) {whole frac point : List Char}
    (hw : ∀ c ∈ whole, c.isDigit = true) (hp : point = ['.'] ∨ point = [] ∧ frac = []) :
    cutPoint neg (whole ++ (point ++ frac)) = ⟨neg, whole, frac⟩ := by
  have hne : ∀ c ∈ whole, decide (c ≠ '.') = true := by
    intro c hc
    refine decide_eq_true ?_
    rintro rfl
    exact absurd (hw _ hc) (by decide)
  rw [cutPoint, List.takeWhile_append_of_pos hne, List.dropWhile_append_of_pos hne]
  rcases hp with rfl | ⟨rfl, rfl⟩ <;> simp

/-- The decimals are the texts whose halves are plain digits. -/
theorem isDecimal_iff {t : List Char} {neg : Bool} {whole frac : List Char} :
    IsDecimal t neg whole frac ↔ cut t = ⟨neg, whole, frac⟩ ∧ (cut t).Plain := by
  refine ⟨?_, ?_⟩
  · rintro ⟨hd, hne, sign, point, hs, hp, rfl⟩
    have hw : ∀ c ∈ whole, c.isDigit = true := fun c hc => hd c (List.mem_append_left _ hc)
    have hcut : cut (sign ++ (whole ++ (point ++ frac))) = ⟨neg, whole, frac⟩ := by
      rw [← cutPoint_digits neg hw hp]
      cases neg with
      | true =>
        obtain rfl : sign = ['-'] := hs
        rfl
      | false =>
        rcases hs with rfl | rfl
        · have hhead : ∀ c, (whole ++ (point ++ frac)).head? = some c →
              c.isDigit = true ∨ c = '.' := by
            intro c hc
            rcases whole with _ | ⟨d, whole⟩
            · rcases hp with rfl | ⟨rfl, rfl⟩
              · exact .inr (Option.some.inj hc).symm
              · cases hc
            · exact .inl (Option.some.inj hc ▸ hw d (List.mem_cons_self ..))
          refine cut_of_head ?_ ?_
          · intro h
            exact absurd (hhead _ h) (by decide)
          · intro h
            exact absurd (hhead _ h) (by decide)
        · rfl
    exact ⟨hcut, by rw [hcut]; exact ⟨hd, hne⟩⟩
  · rintro ⟨hcut, hplain⟩
    obtain ⟨sign, body, hs, rfl, hb⟩ := cut_text t
    rw [hcut] at hs hb hplain
    obtain ⟨point, hp, hbody⟩ := cutPoint_text neg body
    dsimp only at hb hs
    rw [← hb] at hp hbody
    exact ⟨hplain.1, hplain.2, sign, point, hs, hp, by rw [← hbody]⟩

/-- A fraction with nothing but zeros beyond the `k`-th digit, times `10 ^ k`. -/
theorem Cut.padded_val {c : Cut} {k : Nat} (hz : c.ZeroTail k) :
    (Digits.val c.frac : ℚ) / 10 ^ c.frac.length * 10 ^ k = Digits.val (c.padded k) := by
  set kept := c.frac.take k with hkept
  have hlen : c.frac.length = kept.length + (c.frac.drop k).length := by
    rw [← List.length_append, List.take_append_drop]
  have hval : Digits.val c.frac = Digits.val kept * 10 ^ (c.frac.drop k).length := by
    rw [← Digits.val_append_zeros kept hz, List.take_append_drop]
  have hpad : Digits.val (c.padded k) = Digits.val kept * 10 ^ (k - kept.length) := by
    rw [padded, Digits.val_append_zeros kept fun d hd => List.eq_of_mem_replicate hd,
      List.length_replicate]
  have hk : kept.length ≤ k := List.length_take_le k c.frac
  rw [hval, hpad, hlen]
  push_cast
  rw [pow_add, ← pow_sub_mul_pow (10 : ℚ) hk]
  field_simp

/-- The value of the decimal that a cut with plain halves is of. -/
theorem Cut.value_eq {c : Cut} {k : Nat} (hz : c.ZeroTail k) :
    decimalValue c.neg c.whole c.frac * 10 ^ k = (c.sign * c.magnitude k : Int) := by
  rw [decimalValue, mul_assoc, add_mul, padded_val hz, sign, magnitude]
  push_cast
  rfl

/-- The decimals of a text, read off its cut. -/
theorem spellsScaled_iff {s : List Char} {k : Nat} {v : Int} :
    SpellsScaled s k v ↔
      (cut (Text.trim s)).Plain ∧ (cut (Text.trim s)).ZeroTail k ∧
        v = (cut (Text.trim s)).sign * (cut (Text.trim s)).magnitude k ∧ i64.Fits v := by
  refine ⟨?_, ?_⟩
  · rintro ⟨neg, whole, frac, hd, hz, hv, hfits⟩
    obtain ⟨hcut, hplain⟩ := isDecimal_iff.1 hd
    rw [hcut] at hplain ⊢
    rw [Cut.value_eq (c := ⟨neg, whole, frac⟩) hz] at hv
    exact ⟨hplain, hz, by exact_mod_cast hv, hfits⟩
  · rintro ⟨hplain, hz, hv, hfits⟩
    exact ⟨_, _, _, isDecimal_iff.2 ⟨rfl, hplain⟩, hz,
      by rw [hv]; exact (Cut.value_eq hz).symm, hfits⟩

/-! ## What the integer parser makes of a half -/

/-- The number a half spells, with a sign of its own: an empty half is zero. -/
def halfValue (s : List Char) : Option Int :=
  if s.isEmpty then some 0
  else
    let (sign, digits) : Int × List Char :=
      match s with
      | '-' :: rest => (-1, rest)
      | '+' :: rest => (1, rest)
      | _ => (1, s)
    if digits.isEmpty || !digits.all Char.isDigit then none else some (sign * Digits.val digits)

/-- The integer parser accepts the numbers in range. -/
theorem parseI64_some {c : Char} {rest : List Char} {v : Int} :
    parseI64 (c :: rest) = some v ↔ halfValue (c :: rest) = some v ∧ i64.Fits v := by
  have hdigits (sign : Int) (digits : List Char) :
      (if (digits.isEmpty || !digits.all Char.isDigit) = true then none
        else i64.checked (sign * Digits.val digits)) = some v ↔
      (if (digits.isEmpty || !digits.all Char.isDigit) = true then none
        else some (sign * Digits.val digits)) = some v ∧ i64.Fits v := by
    split
    · simp
    · rw [checked_eq_some, Option.some.injEq]
      constructor <;> (rintro ⟨rfl, h⟩; exact ⟨rfl, h⟩)
  unfold halfValue
  rw [List.isEmpty_cons, if_neg Bool.false_ne_true]
  rcases eq_or_ne c '-' with rfl | hm
  · exact hdigits (-1) rest
  rcases eq_or_ne c '+' with rfl | hp
  · exact hdigits 1 rest
  · unfold parseI64
    simp only [List.cons.injEq, hm, hp, false_and, imp_false, not_false_eq_true, implies_true]
    exact hdigits 1 (c :: rest)

/-- A half is read as its value, if that is in range. -/
theorem parseHalf_some {s : List Char} {v : Int} :
    parseHalf s = some v ↔ halfValue s = some v ∧ i64.Fits v := by
  cases s with
  | nil =>
    simp only [parseHalf, halfValue, List.isEmpty_nil, if_true, Option.some.injEq]
    refine ⟨?_, ?_⟩
    · rintro rfl
      exact ⟨rfl, by decide⟩
    · exact And.left
  | cons c rest => exact parseI64_some

/-- A half that spells a number is a sign, if any, followed by digits. -/
theorem halfValue_inv {s : List Char} {v : Int} (h : halfValue s = some v) :
    ∃ sign digits, (sign = [] ∨ sign = ['-'] ∨ sign = ['+']) ∧ s = sign ++ digits ∧
      (∀ c ∈ digits, c.isDigit = true) ∧
      (v = Digits.val digits ∨ v = -Digits.val digits) := by
  have hdigits (sign : Int) (digits : List Char)
      (h : (if (digits.isEmpty || !digits.all Char.isDigit) = true then none
        else some (sign * Digits.val digits)) = some v) :
      (∀ c ∈ digits, c.isDigit = true) ∧ v = sign * Digits.val digits := by
    split at h
    · cases h
    · next hd =>
      simp only [Bool.or_eq_true, Bool.not_eq_true', not_or, Bool.not_eq_false] at hd
      exact ⟨List.all_eq_true.1 hd.2, (Option.some.inj h).symm⟩
  unfold halfValue at h
  rcases s with _ | ⟨c, rest⟩
  · cases h
    exact ⟨[], [], .inl rfl, rfl, nofun, .inl rfl⟩
  rw [List.isEmpty_cons, if_neg Bool.false_ne_true] at h
  rcases eq_or_ne c '-' with rfl | hm
  · obtain ⟨hd, hv⟩ := hdigits (-1) rest h
    exact ⟨['-'], rest, .inr (.inl rfl), rfl, hd, .inr (by omega)⟩
  rcases eq_or_ne c '+' with rfl | hp
  · obtain ⟨hd, hv⟩ := hdigits 1 rest h
    exact ⟨['+'], rest, .inr (.inr rfl), rfl, hd, .inl (by omega)⟩
  · simp only [List.cons.injEq, hm, hp, false_and, imp_false, not_false_eq_true,
      implies_true] at h
    obtain ⟨hd, hv⟩ := hdigits 1 (c :: rest) h
    exact ⟨[], c :: rest, .inl rfl, rfl, hd, .inl (by omega)⟩

/-- A half with a value is ASCII. -/
theorem halfValue_ascii {s : List Char} {v : Int} (h : halfValue s = some v) : Text.Ascii s := by
  obtain ⟨sign, digits, hs, rfl, hd, -⟩ := halfValue_inv h
  refine Text.ascii_append.2 ⟨?_, Text.ascii_of_isDigit hd⟩
  rcases hs with rfl | rfl | rfl <;> simp [Text.Ascii] <;> rfl

/-- A digit is no white space. -/
theorem Text.isWhiteSpace_of_isDigit {c : Char} (h : c.isDigit = true) :
    Text.isWhiteSpace c = false := by
  have hc := Digits.isDigit_toNat h
  simp only [Text.isWhiteSpace, Bool.or_eq_false_iff, Bool.and_eq_false_iff,
    decide_eq_false_iff_not, beq_eq_false_iff_ne]
  omega

/-- A half of `n` characters is below `10 ^ n`. -/
theorem halfValue_bounds {s : List Char} {v : Int} (h : halfValue s = some v) :
    -10 ^ s.length < v ∧ v < 10 ^ s.length := by
  obtain ⟨sign, digits, -, rfl, hd, hv⟩ := halfValue_inv h
  have hnn := Digits.val_nonneg hd
  have hlt := Digits.val_lt hd
  have hle : (10 : Int) ^ digits.length ≤ 10 ^ (sign ++ digits).length :=
    pow_le_pow_right₀ (by decide) (by rw [List.length_append]; omega)
  omega

/-- Digits spell their value. -/
theorem halfValue_digits {ds : List Char} (h : ∀ c ∈ ds, c.isDigit = true) :
    halfValue ds = some (Digits.val ds) := by
  rcases ds with _ | ⟨c, rest⟩
  · rfl
  have hc := h c (List.mem_cons_self ..)
  have hm : c ≠ '-' := by rintro rfl; exact absurd hc (by decide)
  have hp : c ≠ '+' := by rintro rfl; exact absurd hc (by decide)
  unfold halfValue
  simp only [List.isEmpty_cons, Bool.false_eq_true, if_false, List.cons.injEq, hm, hp, false_and,
    imp_false, not_false_eq_true, implies_true, Bool.false_or, List.all_eq_true.2 h, Bool.not_true,
    one_mul]

/-- A text is sliced at a byte between two characters. -/
theorem sliceAt_ok {n : Nat} {s a t : List Char} :
    sliceAt n s = .ok (a, t) ↔ s = a ++ t ∧ Text.byteLen a = n := by
  refine ⟨?_, ?_⟩
  · intro h
    unfold sliceAt at h
    split at h
    · next parts hs =>
      cases h
      exact Text.splitAtByte_some hs
    · cases h
  · rintro ⟨rfl, rfl⟩
    rw [sliceAt, Text.splitAtByte_append]

/-- Zeros are ASCII. -/
theorem ascii_of_zeros {s : List Char} (h : ∀ c ∈ s, c = '0') : Text.Ascii s :=
  fun c hc => h c hc ▸ rfl

/-- A fraction that is read is ASCII text: the digits are, and so are the zeros beyond them. -/
theorem fracField_ascii {k : Nat} {frac : List Char} {v : Int}
    (h : fracField k frac = .ok (some v)) :
    Text.Ascii frac := by
  unfold fracField at h
  by_cases hlen : k < Text.byteLen frac
  · simp only [hlen, if_true] at h
    obtain ⟨⟨a, tail⟩, hs, h⟩ := Except.ok_bind_inv h
    by_cases hz : tail.all (· == '0') = true
    · simp only [hz, Bool.not_true, Bool.false_eq_true, if_false, min_eq_right hlen.le, hs,
        Except.ok_bind] at h
      have hp := halfValue_ascii (parseHalf_some.1 (Except.ok.inj h)).1
      rw [(sliceAt_ok.1 hs).1]
      refine Text.ascii_append.2 ⟨(Text.ascii_append.1 hp).1, ascii_of_zeros ?_⟩
      simpa using hz
    · simp only [hz] at h
      cases h
  · simp only [hlen, if_false, min_eq_left (not_lt.1 hlen)] at h
    obtain ⟨⟨kept, rest⟩, hs, h⟩ := Except.ok_bind_inv h
    have hp := halfValue_ascii (parseHalf_some.1 (Except.ok.inj h)).1
    obtain ⟨hfrac, hkept⟩ := sliceAt_ok.1 hs
    have hrest : rest = [] := by
      rw [hfrac, Text.byteLen_append] at hkept
      exact Text.eq_nil_of_byteLen (by omega)
    rw [hfrac, hrest, List.append_nil]
    exact (Text.ascii_append.1 hp).1

/-- The fraction field of ASCII text. -/
theorem fracField_of_ascii {c : Cut} (k : Nat) (h : Text.Ascii c.frac) :
    fracField k c.frac =
      .ok (if (c.frac.drop k).all (· == '0') then parseHalf (c.padded k) else none) := by
  have htake : Text.Ascii (c.frac.take k) := fun d hd => h d (List.mem_of_mem_take hd)
  unfold fracField
  rw [h.byteLen]
  by_cases hlen : k < c.frac.length
  · have hk : (c.frac.take k).length = k := List.length_take_of_le hlen.le
    have hs : sliceAt k c.frac = .ok (c.frac.take k, c.frac.drop k) :=
      sliceAt_ok.2 ⟨(List.take_append_drop ..).symm, by rw [htake.byteLen, hk]⟩
    simp only [hlen, if_true, min_eq_right hlen.le, hs, Except.ok_bind, htake.byteLen]
    by_cases hz : (c.frac.drop k).all (· == '0') = true
    · simp only [hz, Bool.not_true, Bool.false_eq_true, if_false, if_true]
      rfl
    · simp only [hz]
      rfl
  · have hk : c.frac.take k = c.frac := List.take_of_length_le (not_lt.1 hlen)
    have hd : c.frac.drop k = [] := List.drop_eq_nil_of_le (not_lt.1 hlen)
    have hs : sliceAt c.frac.length c.frac = .ok (c.frac, []) :=
      sliceAt_ok.2 ⟨(List.append_nil _).symm, h.byteLen⟩
    simp only [hlen, if_false, min_eq_left (not_lt.1 hlen), hs, Except.ok_bind, hd, h.byteLen,
      List.all_nil, if_true, Cut.padded, hk]
    rfl

/-- The fraction is read when its first digits are an integer and the others are zeros. -/
theorem fracField_some {c : Cut} {k : Nat} {v : Int} :
    fracField k c.frac = .ok (some v) ↔ c.ZeroTail k ∧ parseHalf (c.padded k) = some v := by
  have hall : (c.frac.drop k).all (· == '0') = true ↔ c.ZeroTail k := by
    simp [Cut.ZeroTail]
  refine ⟨?_, ?_⟩
  · intro h
    rw [fracField_of_ascii k (fracField_ascii h)] at h
    split at h
    · next hz => exact ⟨hall.1 hz, Except.ok.inj h⟩
    · cases h
  · rintro ⟨hz, hp⟩
    have hpad := halfValue_ascii (parseHalf_some.1 hp).1
    have hfrac : Text.Ascii c.frac := by
      rw [← List.take_append_drop k c.frac]
      exact Text.ascii_append.2 ⟨(Text.ascii_append.1 hpad).1, ascii_of_zeros hz⟩
    rw [fracField_of_ascii k hfrac, if_pos (hall.2 hz), hp]

/-! ## What the parser returns -/

/-- The result of the parser, from the numbers its two halves spell. -/
theorem parseDecimalScaled_some {b : Build} {s : List Char} {k : Nat} {v : Int} :
    parseDecimalScaled b s (10 ^ k) = .ok (some v) ↔
      Text.trim s ≠ [] ∧ (cut (Text.trim s)).ZeroTail k ∧
        ∃ whole frac, parseHalf (cut (Text.trim s)).whole = some whole ∧
          parseHalf ((cut (Text.trim s)).padded k) = some frac ∧ i64.Fits (whole * 10 ^ k) ∧
          ∃ value, b.arith i64 (whole * 10 ^ k + frac) = .ok value ∧
            b.arith i64 ((cut (Text.trim s)).sign * value) = .ok v := by
  rw [parseDecimalScaled_eq]
  refine ⟨?_, ?_⟩
  · intro h
    split at h
    · cases h
    next hne =>
    split at h
    · cases h
    next whole hw =>
    obtain ⟨frac, hf, h⟩ := Except.ok_bind_inv h
    rcases frac with _ | frac
    · cases h
    dsimp only at h
    split at h
    · next scaled hs =>
      obtain ⟨rfl, hfits⟩ := checked_eq_some.1 hs
      obtain ⟨value, ha, h⟩ := Except.ok_bind_inv h
      obtain ⟨value', ha', h⟩ := Except.ok_bind_inv h
      cases h
      obtain ⟨hz, hp⟩ := fracField_some.1 hf
      exact ⟨by simpa using hne, hz, whole, frac, hw, hp, hfits, value, ha, ha'⟩
    · cases h
  · rintro ⟨hne, hz, whole, frac, hw, hp, hfits, value, ha, ha'⟩
    rw [if_neg (by simpa using hne), hw]
    dsimp only
    rw [fracField_some.2 ⟨hz, hp⟩, Except.ok_bind]
    dsimp only
    rw [checked_eq_some.2 ⟨rfl, hfits⟩]
    dsimp only
    rw [ha, Except.ok_bind, ha']
    rfl

/-! ## Where the parser and the decimals part -/

/-- The text is no decimal, but its halves read as integers, each with a sign of its own or empty,
and the sum of the two is in range (or the build does not look). -/
def ReadsNonDecimal (b : Build) (s : List Char) (k : Nat) : Prop :=
  Text.trim s ≠ [] ∧ ¬ (cut (Text.trim s)).Plain ∧ (cut (Text.trim s)).ZeroTail k ∧
    ∃ whole frac, halfValue (cut (Text.trim s)).whole = some whole ∧
      halfValue ((cut (Text.trim s)).padded k) = some frac ∧
      i64.Fits whole ∧ i64.Fits (whole * 10 ^ k) ∧
      (b.overflowChecks = true → i64.Fits (whole * 10 ^ k + frac) ∧
        i64.Fits ((cut (Text.trim s)).sign * (whole * 10 ^ k + frac)))

/-- The text is a decimal whose digits, times `10 ^ k`, are above the largest 64-bit integer: it is
the smallest one, and is read without the fraction that carries it there or with checks; or it does
not fit, and only the carry of the fraction takes it out of range, which the build does not look
at. -/
def PastTheRange (b : Build) (s : List Char) (k : Nat) : Prop :=
  (cut (Text.trim s)).Plain ∧ (cut (Text.trim s)).ZeroTail k ∧
    i64.hi < (cut (Text.trim s)).magnitude k ∧
    if (cut (Text.trim s)).neg = true ∧ (cut (Text.trim s)).magnitude k = i64.hi + 1 then
      b.overflowChecks = true ∨ k = 0
    else b.overflowChecks = false ∧ Digits.val (cut (Text.trim s)).whole * 10 ^ k ≤ i64.hi

/-- A text with a digit is not empty. -/
theorem Cut.Plain.ne_nil {t : List Char} (h : (cut t).Plain) : t ≠ [] := by
  rintro rfl
  exact h.2 rfl

/-- The padded fraction is of digits. -/
theorem Cut.Plain.padded {c : Cut} (h : c.Plain) (k : Nat) :
    ∀ d ∈ c.padded k, d.isDigit = true := by
  intro d hd
  rcases List.mem_append.1 hd with hd | hd
  · exact h.1 d (List.mem_append_right _ (List.mem_of_mem_take hd))
  · rw [List.eq_of_mem_replicate hd]
    rfl

/-- The padded fraction has its length. -/
theorem Cut.padded_length (c : Cut) (k : Nat) : (c.padded k).length = k := by
  have := List.length_take_le k c.frac
  rw [Cut.padded, List.length_append, List.length_replicate]
  omega

section
variable {b : Build} {s : List Char} {k : Nat}

/-- When the parser returns a number. -/
theorem parseDecimalScaled_exists (hk : i64.Fits (10 ^ k)) :
    (∃ v, parseDecimalScaled b s (10 ^ k) = .ok (some v)) ↔
      Text.trim s ≠ [] ∧ (cut (Text.trim s)).ZeroTail k ∧
        ∃ whole frac, halfValue (cut (Text.trim s)).whole = some whole ∧
          halfValue ((cut (Text.trim s)).padded k) = some frac ∧
          i64.Fits whole ∧ i64.Fits (whole * 10 ^ k) ∧
          (b.overflowChecks = true → i64.Fits (whole * 10 ^ k + frac) ∧
            i64.Fits ((cut (Text.trim s)).sign * (whole * 10 ^ k + frac))) := by
  refine ⟨?_, ?_⟩
  · rintro ⟨v, h⟩
    obtain ⟨hne, hz, whole, frac, hw, hf, hfits, value, ha, ha'⟩ := parseDecimalScaled_some.1 h
    obtain ⟨hw, hwf⟩ := parseHalf_some.1 hw
    exact ⟨hne, hz, whole, frac, hw, (parseHalf_some.1 hf).1, hwf, hfits,
      Build.arith_twice.1 ⟨value, v, ha, ha'⟩⟩
  · rintro ⟨hne, hz, whole, frac, hw, hf, hwf, hfits, harith⟩
    have hff : i64.Fits frac := by
      have hb := halfValue_bounds hf
      rw [Cut.padded_length] at hb
      simp only [Fits, i64_lo, i64_hi] at hk ⊢
      omega
    obtain ⟨value, v, ha, ha'⟩ := Build.arith_twice.2 harith
    exact ⟨v, parseDecimalScaled_some.2 ⟨hne, hz, whole, frac, parseHalf_some.2 ⟨hw, hwf⟩,
      parseHalf_some.2 ⟨hf, hff⟩, hfits, value, ha, ha'⟩⟩

/-- Where the parser reads a text that is no decimal. -/
theorem readsNonDecimal_iff (hk : i64.Fits (10 ^ k)) :
    ReadsNonDecimal b s k ↔
      ¬ (cut (Text.trim s)).Plain ∧ ∃ v, parseDecimalScaled b s (10 ^ k) = .ok (some v) := by
  rw [parseDecimalScaled_exists hk, ReadsNonDecimal]
  exact and_left_comm

/-- The parser on a decimal. -/
theorem parseDecimalScaled_plain (hp : (cut (Text.trim s)).Plain)
    (hz : (cut (Text.trim s)).ZeroTail k) (hk : i64.Fits (10 ^ k)) {v : Int} :
    parseDecimalScaled b s (10 ^ k) = .ok (some v) ↔
      i64.Fits (Digits.val (cut (Text.trim s)).whole * 10 ^ k) ∧
        ∃ value, b.arith i64 ((cut (Text.trim s)).magnitude k) = .ok value ∧
          b.arith i64 ((cut (Text.trim s)).sign * value) = .ok v := by
  have hwhole : ∀ d ∈ (cut (Text.trim s)).whole, d.isDigit = true :=
    fun d hd => hp.1 d (List.mem_append_left _ hd)
  have hw := halfValue_digits hwhole
  have hf := halfValue_digits (hp.padded k)
  rw [parseDecimalScaled_some]
  refine ⟨?_, ?_⟩
  · rintro ⟨-, -, whole, frac, hw', hf', hfits, value, ha, ha'⟩
    obtain rfl := Option.some.inj (hw.symm.trans (parseHalf_some.1 hw').1)
    obtain rfl := Option.some.inj (hf.symm.trans (parseHalf_some.1 hf').1)
    exact ⟨hfits, value, ha, ha'⟩
  · rintro ⟨hfits, value, ha, ha'⟩
    have hwf : i64.Fits (Digits.val (cut (Text.trim s)).whole) := by
      have hnn := Digits.val_nonneg hwhole
      have : Digits.val (cut (Text.trim s)).whole ≤
          Digits.val (cut (Text.trim s)).whole * 10 ^ k :=
        le_mul_of_one_le_right hnn (one_le_pow₀ (by decide))
      simp only [Fits, i64_lo, i64_hi] at hfits ⊢
      omega
    have hff : i64.Fits (Digits.val ((cut (Text.trim s)).padded k)) := by
      have hb := halfValue_bounds hf
      rw [Cut.padded_length] at hb
      simp only [Fits, i64_lo, i64_hi] at hk ⊢
      omega
    exact ⟨hp.ne_nil, hz, _, _, parseHalf_some.2 ⟨hw, hwf⟩, parseHalf_some.2 ⟨hf, hff⟩, hfits,
      value, ha, ha'⟩

/-- The magnitude of a decimal, from its two halves. -/
theorem Cut.Plain.magnitude_bounds {c : Cut} (h : c.Plain) (k : Nat) :
    0 ≤ Digits.val c.whole * 10 ^ k ∧ Digits.val c.whole * 10 ^ k ≤ c.magnitude k ∧
      c.magnitude k < Digits.val c.whole * 10 ^ k + 10 ^ k := by
  have hw := Digits.val_nonneg fun d hd => h.1 d (List.mem_append_left _ hd)
  have hnn := Digits.val_nonneg (h.padded k)
  have hlt := Digits.val_lt (h.padded k)
  have : 0 ≤ Digits.val c.whole * 10 ^ k := mul_nonneg hw (by positivity)
  rw [Cut.padded_length] at hlt
  unfold Cut.magnitude
  omega

/-- The parser returns the value of a decimal in range. -/
theorem parseDecimalScaled_in_range (hp : (cut (Text.trim s)).Plain)
    (hz : (cut (Text.trim s)).ZeroTail k) (hk : i64.Fits (10 ^ k))
    (hm : (cut (Text.trim s)).magnitude k ≤ i64.hi) {v : Int} :
    parseDecimalScaled b s (10 ^ k) = .ok (some v) ↔ SpellsScaled s k v := by
  have hb := hp.magnitude_bounds k
  rw [parseDecimalScaled_plain hp hz hk, spellsScaled_iff]
  set m := (cut (Text.trim s)).magnitude k
  have hfm : i64.Fits m := by
    simp only [Fits, i64_lo, i64_hi] at hm ⊢
    omega
  have hfs : i64.Fits ((cut (Text.trim s)).sign * m) := by
    simp only [Fits, i64_lo, i64_hi, Cut.sign] at hm ⊢
    split <;> omega
  have hfw : i64.Fits (Digits.val (cut (Text.trim s)).whole * 10 ^ k) := by
    simp only [Fits, i64_lo, i64_hi] at hm ⊢
    omega
  refine ⟨?_, ?_⟩
  · rintro ⟨-, value, ha, ha'⟩
    rw [Build.arith_of_fits hfm] at ha
    cases ha
    rw [Build.arith_of_fits hfs] at ha'
    cases ha'
    exact ⟨hp, hz, rfl, hfs⟩
  · rintro ⟨-, -, rfl, -⟩
    exact ⟨hfw, m, Build.arith_of_fits hfm, Build.arith_of_fits hfs⟩

/-- A decimal above the largest 64-bit integer is read as it should be, or not at all, unless it
is one of `PastTheRange`. -/
theorem pastTheRange_iff (hp : (cut (Text.trim s)).Plain) (hz : (cut (Text.trim s)).ZeroTail k)
    (hk : i64.Fits (10 ^ k)) (hm : i64.hi < (cut (Text.trim s)).magnitude k) :
    (∀ v, parseDecimalScaled b s (10 ^ k) = .ok (some v) ↔ SpellsScaled s k v) ↔
      ¬ PastTheRange b s k := by
  have hbounds := hp.magnitude_bounds k
  simp only [parseDecimalScaled_plain hp hz hk, spellsScaled_iff, PastTheRange, hp, hz, hm,
    true_and]
  set m := (cut (Text.trim s)).magnitude k
  have hunfit : ¬ i64.Fits m := fun h => absurd h.2 (not_le.2 hm)
  by_cases hmin : (cut (Text.trim s)).neg = true ∧ m = i64.hi + 1
  · -- the smallest integer: its magnitude does not fit, and wraps to itself
    obtain ⟨hneg, hmin⟩ := hmin
    have hsign : (cut (Text.trim s)).sign = -1 := by rw [Cut.sign, if_pos hneg]
    rw [if_pos ⟨hneg, hmin⟩, hsign]
    refine ⟨?_, ?_⟩
    · intro h
      obtain ⟨hfw, value, ha, -⟩ := (h i64.lo).2 ⟨by rw [hmin]; rfl, by decide⟩
      rintro (hb | rfl)
      · exact hunfit ((Build.arith_checked hb).1 ha).1
      · refine hunfit ⟨?_, ?_⟩ <;> simp only [Fits, i64_lo, i64_hi] at hfw ⊢ <;> omega
    · intro h v
      obtain ⟨hb, hk0⟩ := not_or.1 h
      have hfw : i64.Fits (Digits.val (cut (Text.trim s)).whole * 10 ^ k) := by
        obtain ⟨k, rfl⟩ := Nat.exists_eq_succ_of_ne_zero hk0
        rw [pow_succ, ← mul_assoc] at hbounds ⊢
        simp only [Fits, i64_lo, i64_hi] at hmin ⊢
        omega
      have hwrap := Build.arith_i64_wraps (Bool.eq_false_iff.2 hb)
      rw [hmin, hwrap]
      refine ⟨?_, ?_⟩
      · rintro ⟨-, value, hv, hv'⟩
        cases hv
        rw [show (-1 : Int) * i64.lo = i64.hi + 1 from rfl, hwrap] at hv'
        cases hv'
        exact ⟨rfl, by decide⟩
      · rintro ⟨rfl, -⟩
        exact ⟨hfw, i64.lo, rfl, hwrap⟩
  · -- no integer: nothing is read, unless the fraction's carry goes unnoticed
    rw [if_neg hmin]
    have hno {v : Int} : ¬ (v = (cut (Text.trim s)).sign * m ∧ i64.Fits v) := by
      rintro ⟨rfl, hf⟩
      simp only [Fits, i64_lo, i64_hi, Cut.sign] at hm hmin hf
      split at hf
      · next hneg => exact hmin ⟨hneg, by omega⟩
      · omega
    refine ⟨?_, ?_⟩
    · rintro h ⟨hb, hw⟩
      obtain ⟨value, ha⟩ := Build.arith_unchecked hb i64 m
      obtain ⟨v, ha'⟩ := Build.arith_unchecked hb i64 ((cut (Text.trim s)).sign * value)
      have hfw : i64.Fits (Digits.val (cut (Text.trim s)).whole * 10 ^ k) :=
        ⟨by simp only [i64_lo]; omega, hw⟩
      exact hno ((h v).1 ⟨hfw, value, ha, ha'⟩)
    · intro h v
      refine ⟨?_, fun hv => absurd hv hno⟩
      rintro ⟨hfw, value, ha, -⟩
      rcases hb : b.overflowChecks with _ | _
      · exact absurd ⟨hb, hfw.2⟩ h
      · exact absurd ((Build.arith_checked hb).1 ha).1 hunfit

/-- The parser accepts exactly the decimals that fit, with their exact values, unless the text is
no decimal and its halves read as integers (`ReadsNonDecimal`), or it is a decimal past the range
of the integers (`PastTheRange`). -/
theorem parse_decimal_scaled_exact_iff (b : Build) (s : List Char) (k : Nat)
    (hk : i64.Fits (10 ^ k)) :
    (∀ v, parseDecimalScaled b s (10 ^ k) = .ok (some v) ↔ SpellsScaled s k v) ↔
      ¬ ReadsNonDecimal b s k ∧ ¬ PastTheRange b s k := by
  rw [readsNonDecimal_iff hk]
  by_cases hp : (cut (Text.trim s)).Plain
  · have hskip : ¬ (¬ (cut (Text.trim s)).Plain ∧
        ∃ v, parseDecimalScaled b s (10 ^ k) = .ok (some v)) := fun h => h.1 hp
    rw [and_iff_right hskip]
    by_cases hz : (cut (Text.trim s)).ZeroTail k
    · rcases le_or_gt ((cut (Text.trim s)).magnitude k) i64.hi with hm | hm
      · exact ⟨fun _ h => absurd h.2.2.1 (not_lt.2 hm),
          fun _ _ => parseDecimalScaled_in_range hp hz hk hm⟩
      · exact pastTheRange_iff hp hz hk hm
    · refine ⟨fun _ h => hz h.2.1, fun _ v => ⟨fun h => ?_, fun h => ?_⟩⟩
      · exact absurd (parseDecimalScaled_some.1 h).2.1 hz
      · exact absurd (spellsScaled_iff.1 h).2.1 hz
  · have hskip : ¬ PastTheRange b s k := fun h => hp h.1
    rw [and_iff_left hskip]
    refine ⟨?_, ?_⟩
    · rintro h ⟨-, v, hv⟩
      exact hp (spellsScaled_iff.1 ((h v).1 hv)).1
    · intro h v
      exact ⟨fun hv => absurd ⟨hp, v, hv⟩ h, fun hv => absurd (spellsScaled_iff.1 hv).1 hp⟩

/-- A price of two digits. -/
theorem parse_decimal_scaled_exact_iff_price :
    i64.Fits (10 ^ 2) ∧
      ((∀ v, parseDecimalScaled ⟨true⟩ "0.59".toList (10 ^ 2) = .ok (some v) ↔
          SpellsScaled "0.59".toList 2 v) ↔
        ¬ ReadsNonDecimal ⟨true⟩ "0.59".toList 2 ∧ ¬ PastTheRange ⟨true⟩ "0.59".toList 2) :=
  ⟨by decide, parse_decimal_scaled_exact_iff ⟨true⟩ "0.59".toList 2 (by decide)⟩

/-- The second sign of `--5` is left to the integer parser, and the two signs cancel. -/
theorem double_sign_read :
    parseDecimalScaled ⟨true⟩ "--5".toList (10 ^ 2) = .ok (some 500) ∧
      ¬ SpellsScaled "--5".toList 2 500 := by
  refine ⟨by decide +kernel, fun h => ?_⟩
  have hdigit := (spellsScaled_iff.1 h).1.1 '-' (by decide +kernel)
  exact absurd hdigit (by decide)

end

end Polyrust
