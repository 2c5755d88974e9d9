import Mathlib.Data.List.Basic

/-!
# Base64

An engine writes bytes as text and reads text as bytes. One for addresses, with padding
(`Engine.UrlSafe`), reads the text that it writes of some bytes and no other: it refuses padding
that is missing or in the middle, and bits that belong to no byte. So a text that is short of its
padding is completed in one way at most (`Engine.UrlSafe.pads_eq`). `urlSafe` is the engine of the
alphabet for addresses, in letters of six bits.
-/

namespace Base64

/-- An engine, with what it writes and what it reads. -/
structure Engine where
  encode : List UInt8 → List Char
  decode : List Char → Option (List UInt8)

/-- An engine of ASCII letters with padding, which it requires. -/
structure Engine.UrlSafe (engine : Engine) : Prop where
  decode_eq_some_iff : ∀ {text bytes}, engine.decode text = some bytes ↔ text = engine.encode bytes
  length_encode_mod : ∀ bytes, (engine.encode bytes).length % 4 = 0
  count_pad_encode : ∀ bytes, (engine.encode bytes).count '=' ≤ 2
  ascii : ∀ bytes, ∀ c ∈ engine.encode bytes, c.utf8Size = 1

namespace Engine.UrlSafe

variable {engine : Engine}

/-- Different bytes have different encodings. -/
theorem encode_inj (h : engine.UrlSafe) {bytes bytes' : List UInt8} :
    engine.encode bytes = engine.encode bytes' ↔ bytes = bytes' := by
  refine ⟨fun he => ?_, fun he => by rw [he]⟩
  have hread := h.decode_eq_some_iff.2 he
  rw [h.decode_eq_some_iff.2 rfl] at hread
  exact Option.some.inj hread

/-- The pads that a text is short of are those that complete its length. -/
theorem pads_eq (h : engine.UrlSafe) {text : List Char} {bytes : List UInt8} {pads : Nat}
    (he : text ++ List.replicate pads '=' = engine.encode bytes) :
    pads = (4 - text.length % 4) % 4 := by
  have hpads : pads ≤ 2 := by
    have hcount := h.count_pad_encode bytes
    rw [← he, List.count_append, List.count_replicate_self] at hcount
    omega
  have hlength := h.length_encode_mod bytes
  rw [← he, List.length_append, List.length_replicate] at hlength
  omega

end Engine.UrlSafe

/-! ## The alphabet for addresses -/

/-- The letter of a number below 64. -/
def letter (n : Nat) : Char :=
  if n < 26 then Char.ofNat (65 + n)
  else if n < 52 then Char.ofNat (71 + n)
  else if n < 62 then Char.ofNat (n - 4)
  else if n = 62 then '-' else '_'

/-- The number of a letter. -/
def val (c : Char) : Option Nat :=
  let n := c.toNat
  if 65 ≤ n ∧ n ≤ 90 then some (n - 65)
  else if 97 ≤ n ∧ n ≤ 122 then some (n - 71)
  else if 48 ≤ n ∧ n ≤ 57 then some (n + 4)
  else if n = 45 then some 62
  else if n = 95 then some 63
  else none

/-- The encoding with padding, three bytes to four letters. -/
def urlSafeEncode : List UInt8 → List Char
  | [] => []
  | [a] => [letter (a.toNat / 4), letter (a.toNat % 4 * 16), '=', '=']
  | [a, b] =>
    [letter (a.toNat / 4), letter (a.toNat % 4 * 16 + b.toNat / 16), letter (b.toNat % 16 * 4), '=']
  | a :: b :: c :: bytes =>
    letter (a.toNat / 4) :: letter (a.toNat % 4 * 16 + b.toNat / 16) ::
      letter (b.toNat % 16 * 4 + c.toNat / 64) :: letter (c.toNat % 64) :: urlSafeEncode bytes

/-- The byte of two letters and a pad of two. -/
def decodeOne (w x : Char) : Option (List UInt8) := do
  let w ← val w
  let x ← val x
  if x % 16 = 0 then some [UInt8.ofNat (w * 4 + x / 16)] else none

/-- The two bytes of three letters and a pad of one. -/
def decodeTwo (w x y : Char) : Option (List UInt8) := do
  let w ← val w
  let x ← val x
  let y ← val y
  if y % 4 = 0 then some [UInt8.ofNat (w * 4 + x / 16), UInt8.ofNat (x % 16 * 16 + y / 4)]
  else none

/-- The three bytes of four letters. -/
def decodeThree (w x y z : Char) : Option (List UInt8) := do
  let w ← val w
  let x ← val x
  let y ← val y
  let z ← val z
  some [UInt8.ofNat (w * 4 + x / 16), UInt8.ofNat (x % 16 * 16 + y / 4),
    UInt8.ofNat (y % 4 * 64 + z)]

/-- The decoding of texts with padding, four letters to three bytes. -/
def urlSafeDecode : List Char → Option (List UInt8)
  | [] => some []
  | w :: x :: y :: z :: rest =>
    if z = '=' then
      if !rest.isEmpty then none else if y = '=' then decodeOne w x else decodeTwo w x y
    else do
      let bytes ← decodeThree w x y z
      return bytes ++ (← urlSafeDecode rest)
  | _ => none

/-! ## Letters -/

/-- A letter has its value. -/
theorem val_letter : ∀ n < 64, val (letter n) = some n := by decide

/-- A letter stands for a number below 64, and is its letter. -/
theorem val_eq_some {c : Char} {n : Nat} (h : val c = some n) : n < 64 ∧ letter n = c := by
  have hchar : ∀ m, m = c.toNat → Char.ofNat m = c := by
    rintro m rfl
    exact Char.ofNat_toNat c
  unfold val at h
  dsimp only at h
  unfold letter
  split_ifs at h with h₁ h₂ h₃ h₄ h₅
  all_goals cases h
  · rw [if_pos (by omega)]
    exact ⟨by omega, hchar _ (by omega)⟩
  · rw [if_neg (by omega), if_pos (by omega)]
    exact ⟨by omega, hchar _ (by omega)⟩
  · rw [if_neg (by omega), if_neg (by omega), if_pos (by omega)]
    exact ⟨by omega, hchar _ (by omega)⟩
  · exact ⟨by omega, hchar 45 h₄.symm⟩
  · exact ⟨by omega, hchar 95 h₅.symm⟩

/-- No letter is the pad. -/
theorem letter_ne_pad : ∀ n < 64, letter n ≠ '=' := by decide

/-! ## Groups -/

/-- The two letters of one byte are read back. -/
theorem decodeOne_letters (a : UInt8) :
    decodeOne (letter (a.toNat / 4)) (letter (a.toNat % 4 * 16)) = some [a] := by
  have ha := a.toNat_lt
  have hmod : a.toNat % 4 * 16 % 16 = 0 := by omega
  have hbyte : a.toNat / 4 * 4 + a.toNat % 4 * 16 / 16 = a.toNat := by omega
  simp only [decodeOne, val_letter _ (by omega : a.toNat / 4 < 64),
    val_letter _ (by omega : a.toNat % 4 * 16 < 64), Option.bind_eq_bind, Option.bind_some, hmod,
    hbyte, UInt8.ofNat_toNat]
  rfl

/-- The three letters of two bytes are read back. -/
theorem decodeTwo_letters (a b : UInt8) :
    decodeTwo (letter (a.toNat / 4)) (letter (a.toNat % 4 * 16 + b.toNat / 16))
      (letter (b.toNat % 16 * 4)) = some [a, b] := by
  have ha := a.toNat_lt
  have hb := b.toNat_lt
  have hmod : b.toNat % 16 * 4 % 4 = 0 := by omega
  have hfirst : a.toNat / 4 * 4 + (a.toNat % 4 * 16 + b.toNat / 16) / 16 = a.toNat := by omega
  have hsecond : (a.toNat % 4 * 16 + b.toNat / 16) % 16 * 16 + b.toNat % 16 * 4 / 4 = b.toNat := by
    omega
  simp only [decodeTwo, val_letter _ (by omega : a.toNat / 4 < 64),
    val_letter _ (by omega : a.toNat % 4 * 16 + b.toNat / 16 < 64),
    val_letter _ (by omega : b.toNat % 16 * 4 < 64), Option.bind_eq_bind, Option.bind_some, hmod,
    hfirst, hsecond, UInt8.ofNat_toNat]
  rfl

/-- The four letters of three bytes are read back. -/
theorem decodeThree_letters (a b c : UInt8) :
    decodeThree (letter (a.toNat / 4)) (letter (a.toNat % 4 * 16 + b.toNat / 16))
      (letter (b.toNat % 16 * 4 + c.toNat / 64)) (letter (c.toNat % 64)) = some [a, b, c] := by
  have ha := a.toNat_lt
  have hb := b.toNat_lt
  have hc := c.toNat_lt
  have hfirst : a.toNat / 4 * 4 + (a.toNat % 4 * 16 + b.toNat / 16) / 16 = a.toNat := by omega
  have hsecond : (a.toNat % 4 * 16 + b.toNat / 16) % 16 * 16 +
      (b.toNat % 16 * 4 + c.toNat / 64) / 4 = b.toNat := by
    omega
  have hthird : (b.toNat % 16 * 4 + c.toNat / 64) % 4 * 64 + c.toNat % 64 = c.toNat := by omega
  simp only [decodeThree, val_letter _ (by omega : a.toNat / 4 < 64),
    val_letter _ (by omega : a.toNat % 4 * 16 + b.toNat / 16 < 64),
    val_letter _ (by omega : b.toNat % 16 * 4 + c.toNat / 64 < 64),
    val_letter _ (by omega : c.toNat % 64 < 64), Option.bind_eq_bind, Option.bind_some, hfirst,
    hsecond, hthird, UInt8.ofNat_toNat]

/-- A number below 256 is kept in a byte. -/
theorem toNat_ofNat {n : Nat} (h : n < 256) : (UInt8.ofNat n).toNat = n := by
  rw [UInt8.toNat_ofNat', Nat.mod_eq_of_lt h]

/-- Two letters that are decoded are those of their byte. -/
theorem decodeOne_eq_some {w x : Char} {bytes : List UInt8} (h : decodeOne w x = some bytes) :
    ∃ a, bytes = [a] ∧ w = letter (a.toNat / 4) ∧ x = letter (a.toNat % 4 * 16) := by
  unfold decodeOne at h
  obtain ⟨m, hm, h₁⟩ := Option.bind_eq_some_iff.1 h
  obtain ⟨n, hn, h₂⟩ := Option.bind_eq_some_iff.1 h₁
  obtain ⟨hm64, rfl⟩ := val_eq_some hm
  obtain ⟨hn64, rfl⟩ := val_eq_some hn
  split at h₂
  · next hrest =>
    cases h₂
    refine ⟨_, rfl, ?_⟩
    rw [toNat_ofNat (by omega)]
    exact ⟨congrArg letter (by omega), congrArg letter (by omega)⟩
  · cases h₂

/-- Three letters that are decoded are those of their bytes. -/
theorem decodeTwo_eq_some {w x y : Char} {bytes : List UInt8}
    (h : decodeTwo w x y = some bytes) : ∃ a b, bytes = [a, b] ∧ w = letter (a.toNat / 4) ∧
      x = letter (a.toNat % 4 * 16 + b.toNat / 16) ∧ y = letter (b.toNat % 16 * 4) := by
  unfold decodeTwo at h
  obtain ⟨m, hm, h₁⟩ := Option.bind_eq_some_iff.1 h
  obtain ⟨n, hn, h₂⟩ := Option.bind_eq_some_iff.1 h₁
  obtain ⟨k, hk, h₃⟩ := Option.bind_eq_some_iff.1 h₂
  obtain ⟨hm64, rfl⟩ := val_eq_some hm
  obtain ⟨hn64, rfl⟩ := val_eq_some hn
  obtain ⟨hk64, rfl⟩ := val_eq_some hk
  split at h₃
  · next hrest =>
    cases h₃
    refine ⟨_, _, rfl, ?_⟩
    rw [toNat_ofNat (by omega), toNat_ofNat (by omega)]
    exact ⟨congrArg letter (by omega), congrArg letter (by omega), congrArg letter (by omega)⟩
  · cases h₃

/-- Four letters that are decoded are those of their bytes. -/
theorem decodeThree_eq_some {w x y z : Char} {bytes : List UInt8}
    (h : decodeThree w x y z = some bytes) : ∃ a b c, bytes = [a, b, c] ∧
      w = letter (a.toNat / 4) ∧ x = letter (a.toNat % 4 * 16 + b.toNat / 16) ∧
      y = letter (b.toNat % 16 * 4 + c.toNat / 64) ∧ z = letter (c.toNat % 64) := by
  unfold decodeThree at h
  obtain ⟨m, hm, h₁⟩ := Option.bind_eq_some_iff.1 h
  obtain ⟨n, hn, h₂⟩ := Option.bind_eq_some_iff.1 h₁
  obtain ⟨k, hk, h₃⟩ := Option.bind_eq_some_iff.1 h₂
  obtain ⟨l, hl, h₄⟩ := Option.bind_eq_some_iff.1 h₃
  obtain ⟨hm64, rfl⟩ := val_eq_some hm
  obtain ⟨hn64, rfl⟩ := val_eq_some hn
  obtain ⟨hk64, rfl⟩ := val_eq_some hk
  obtain ⟨hl64, rfl⟩ := val_eq_some hl
  cases h₄
  refine ⟨_, _, _, rfl, ?_⟩
  rw [toNat_ofNat (by omega), toNat_ofNat (by omega), toNat_ofNat (by omega)]
  exact ⟨congrArg letter (by omega), congrArg letter (by omega), congrArg letter (by omega),
    congrArg letter (by omega)⟩

/-! ## Round trips -/

/-- What is encoded is decoded again. -/
theorem urlSafeDecode_encode (bytes : List UInt8) :
    urlSafeDecode (urlSafeEncode bytes) = some bytes := by
  induction bytes using urlSafeEncode.induct with
  | case1 => rfl
  | case2 a => exact decodeOne_letters a
  | case3 a b =>
    have hy := letter_ne_pad (b.toNat % 16 * 4) (by omega)
    rw [urlSafeEncode, urlSafeDecode, if_pos rfl, if_neg (by simp), if_neg hy, decodeTwo_letters]
  | case4 a b c bytes ih =>
    have hz := letter_ne_pad (c.toNat % 64) (by omega)
    rw [urlSafeEncode, urlSafeDecode, if_neg hz, decodeThree_letters, ih]
    rfl

/-- What is decoded is an encoding. -/
theorem urlSafeEncode_of_decode {text : List Char} {bytes : List UInt8}
    (h : urlSafeDecode text = some bytes) : urlSafeEncode bytes = text := by
  fun_induction urlSafeDecode text generalizing bytes with
  | case1 =>
    cases h
    rfl
  | case2 => cases h
  | case3 w x rest hrest =>
    obtain ⟨a, rfl, rfl, rfl⟩ := decodeOne_eq_some h
    have hnil : rest = [] := by simpa using hrest
    rw [hnil]
    rfl
  | case4 w x y rest hrest hy =>
    obtain ⟨a, b, rfl, rfl, rfl, rfl⟩ := decodeTwo_eq_some h
    have hnil : rest = [] := by simpa using hrest
    rw [hnil]
    rfl
  | case5 w x y z rest hz ih =>
    obtain ⟨first, hfirst, h₁⟩ := Option.bind_eq_some_iff.1 h
    obtain ⟨others, hothers, h₂⟩ := Option.bind_eq_some_iff.1 h₁
    obtain ⟨a, b, c, rfl, rfl, rfl, rfl, rfl⟩ := decodeThree_eq_some hfirst
    cases h₂
    rw [← ih hothers]
    rfl
  | case6 => cases h

/-! ## Padding -/

/-- What letters and the pad satisfy, an encoded text does. -/
theorem forall_mem_urlSafeEncode {P : Char → Prop} (hletter : ∀ n < 64, P (letter n)) (hpad : P '=')
    (bytes : List UInt8) : ∀ c ∈ urlSafeEncode bytes, P c := by
  induction bytes using urlSafeEncode.induct with
  | case1 => nofun
  | case2 a =>
    have ha := a.toNat_lt
    simp only [urlSafeEncode, List.forall_mem_cons]
    exact ⟨hletter _ (by omega), hletter _ (by omega), hpad, hpad, nofun⟩
  | case3 a b =>
    have ha := a.toNat_lt
    have hb := b.toNat_lt
    simp only [urlSafeEncode, List.forall_mem_cons]
    exact ⟨hletter _ (by omega), hletter _ (by omega), hletter _ (by omega), hpad, nofun⟩
  | case4 a b c bytes ih =>
    have ha := a.toNat_lt
    have hb := b.toNat_lt
    have hc := c.toNat_lt
    simp only [urlSafeEncode, List.forall_mem_cons]
    exact ⟨hletter _ (by omega), hletter _ (by omega), hletter _ (by omega), hletter _ (by omega),
      ih⟩

/-- An encoding is of whole groups of four. -/
theorem length_urlSafeEncode_mod (bytes : List UInt8) : (urlSafeEncode bytes).length % 4 = 0 := by
  induction bytes using urlSafeEncode.induct with
  | case1 | case2 | case3 => simp [urlSafeEncode]
  | case4 a b c bytes ih => simpa [urlSafeEncode, Nat.add_assoc] using ih

/-- There are at most two pads. -/
theorem count_pad_urlSafeEncode (bytes : List UInt8) : (urlSafeEncode bytes).count '=' ≤ 2 := by
  have hletter : ∀ {n : Nat} {text : List Char}, n < 64 →
      (letter n :: text).count '=' = text.count '=' :=
    fun hn => List.count_cons_of_ne (letter_ne_pad _ hn)
  induction bytes using urlSafeEncode.induct with
  | case1 => exact Nat.zero_le 2
  | case2 a =>
    have ha := a.toNat_lt
    rw [urlSafeEncode, hletter (by omega), hletter (by omega)]
    exact Nat.le_refl 2
  | case3 a b =>
    have ha := a.toNat_lt
    have hb := b.toNat_lt
    rw [urlSafeEncode, hletter (by omega), hletter (by omega), hletter (by omega)]
    exact Nat.le_succ 1
  | case4 a b c bytes ih =>
    have ha := a.toNat_lt
    have hb := b.toNat_lt
    have hc := c.toNat_lt
    rwa [urlSafeEncode, hletter (by omega), hletter (by omega), hletter (by omega),
      hletter (by omega)]

/-- The engine of the alphabet for addresses. -/
def urlSafe : Engine := ⟨urlSafeEncode, urlSafeDecode⟩

/-- The engine behaves as one of URL-safe letters. -/
theorem urlSafe_spec : urlSafe.UrlSafe where
  decode_eq_some_iff := by
    refine ⟨fun h => (urlSafeEncode_of_decode h).symm, ?_⟩
    rintro rfl
    exact urlSafeDecode_encode _
  length_encode_mod := length_urlSafeEncode_mod
  count_pad_encode := count_pad_urlSafeEncode
  ascii := forall_mem_urlSafeEncode (P := fun c => c.utf8Size = 1) (by decide) (by decide)

end Base64
