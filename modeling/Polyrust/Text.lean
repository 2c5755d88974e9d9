import Mathlib.Algebra.Ring.Nat
import Mathlib.Data.List.DropRight
import Mathlib.Data.List.Infix

/-!
# Text operations of the source language

The string methods the parsers use, on the characters of a string: trimming of Unicode white space
(`str::trim`), ASCII case (`to_ascii_uppercase`, `eq_ignore_ascii_case`), and byte offsets, which
slices are cut at and which fall inside a character for text that is not ASCII.
-/

namespace Text

/-- The characters with the Unicode property `White_Space`, which `str::trim` removes. -/
def isWhiteSpace (c : Char) : Bool :=
  let n := c.toNat
  (9 ≤ n && n ≤ 13) || n == 0x20 || n == 0x85 || n == 0xA0 || n == 0x1680 ||
    (0x2000 ≤ n && n ≤ 0x200A) || n == 0x2028 || n == 0x2029 || n == 0x202F || n == 0x205F ||
    n == 0x3000

/-- `str::trim`. -/
def trim (s : List Char) : List Char := (s.dropWhile isWhiteSpace).rdropWhile isWhiteSpace

/-- `str::trim_matches`, of one character. -/
def trimMatches (a : Char) (s : List Char) : List Char := (s.dropWhile (· == a)).rdropWhile (· == a)

/-- `str::strip_prefix`. -/
def stripPrefix (start s : List Char) : Option (List Char) :=
  if start <+: s then some (s.drop start.length) else none

/-- `str::strip_suffix`. -/
def stripSuffix (suffix s : List Char) : Option (List Char) :=
  if suffix <:+ s then some (s.take (s.length - suffix.length)) else none

/-- `str::to_ascii_uppercase`. -/
def toAsciiUppercase (s : List Char) : List Char :=
  s.map fun c => if 'a' ≤ c ∧ c ≤ 'z' then Char.ofNat (c.toNat - 32) else c

/-- `str::to_ascii_lowercase`. -/
def toAsciiLowercase (s : List Char) : List Char :=
  s.map fun c => if 'A' ≤ c ∧ c ≤ 'Z' then Char.ofNat (c.toNat + 32) else c

/-- `str::eq_ignore_ascii_case`. -/
def eqIgnoreAsciiCase (s t : List Char) : Bool := toAsciiUppercase s == toAsciiUppercase t

/-- `str::contains`. -/
def contains (s t : List Char) : Bool := decide (t <:+: s)

/-- The length of a text in bytes (`str::len`). -/
def byteLen (s : List Char) : Nat := (s.map Char.utf8Size).sum

/-- The text cut at a byte offset: `none` where the offset is past the end or inside a
character. -/
def splitAtByte : Nat → List Char → Option (List Char × List Char)
  | 0, s => some ([], s)
  | _ + 1, [] => none
  | n + 1, c :: s =>
    if c.utf8Size ≤ n + 1 then
      (splitAtByte (n + 1 - c.utf8Size) s).map fun p => (c :: p.1, p.2)
    else none
termination_by structural _ s => s

/-- A text without white space is trimmed already. -/
theorem trim_eq_self {s : List Char} (h : ∀ c ∈ s, isWhiteSpace c = false) : trim s = s := by
  have hdrop : s.dropWhile isWhiteSpace = s :=
    List.dropWhile_eq_self_iff.2 fun hs => by simp [h _ (List.getElem_mem hs)]
  rw [trim, hdrop]
  exact List.rdropWhile_eq_self_iff.2 fun hs => by simp [h _ (List.getLast_mem hs)]

/-- A text without the character stays as it is. -/
theorem trimMatches_eq_self {a : Char} {s : List Char} (h : a ∉ s) : trimMatches a s = s := by
  have hne : ∀ c ∈ s, (c == a) = false := by
    rintro c hc
    rw [beq_eq_false_iff_ne]
    rintro rfl
    exact h hc
  have hdrop : s.dropWhile (· == a) = s :=
    List.dropWhile_eq_self_iff.2 fun hs => by simp [hne _ (List.getElem_mem hs)]
  rw [trimMatches, hdrop]
  exact List.rdropWhile_eq_self_iff.2 fun hs => by simp [hne _ (List.getLast_mem hs)]

/-- A suffix that is there is stripped. -/
theorem stripSuffix_append (suffix s : List Char) : stripSuffix suffix (s ++ suffix) = some s := by
  rw [stripSuffix, if_pos (List.suffix_append s suffix), List.length_append, Nat.add_sub_cancel,
    List.take_left]

/-- A text that ends in another one of the same length does not end in this one. -/
theorem stripSuffix_eq_none {suffix other : List Char} (s : List Char)
    (hlength : other.length = suffix.length) (hne : other ≠ suffix) :
    stripSuffix suffix (s ++ other) = none := by
  refine if_neg fun h => hne ?_
  obtain ⟨t, ht⟩ := h
  exact ((List.append_inj' ht hlength.symm).2).symm

/-- A cut puts the two parts back together, and the first has the length of the offset. -/
theorem splitAtByte_some {n : Nat} {s a b : List Char} (h : splitAtByte n s = some (a, b)) :
    s = a ++ b ∧ byteLen a = n := by
  induction s generalizing n a with
  | nil =>
    cases n with
    | zero => cases h; exact ⟨rfl, rfl⟩
    | succ n => cases h
  | cons c s ih =>
    cases n with
    | zero => cases h; exact ⟨rfl, rfl⟩
    | succ n =>
      simp only [splitAtByte] at h
      split at h
      · next hc =>
        obtain ⟨⟨a', b'⟩, hs, he⟩ := Option.map_eq_some_iff.1 h
        cases he
        obtain ⟨rfl, hl⟩ := ih hs
        refine ⟨rfl, ?_⟩
        simp only [byteLen, List.map_cons, List.sum_cons] at hl ⊢
        omega
      · cases h

/-- The bytes of two texts are those of both. -/
theorem byteLen_append (s t : List Char) : byteLen (s ++ t) = byteLen s + byteLen t := by
  simp [byteLen]

/-- The cut at the length of the first of two texts. -/
theorem splitAtByte_append (a s : List Char) : splitAtByte (byteLen a) (a ++ s) = some (a, s) := by
  induction a with
  | nil => cases s <;> rfl
  | cons c a ih =>
    have hlen : byteLen (c :: a) = c.utf8Size + byteLen a := by simp [byteLen]
    have hpos := c.utf8Size_pos
    obtain ⟨n, hn⟩ : ∃ n, byteLen (c :: a) = n + 1 := ⟨byteLen (c :: a) - 1, by omega⟩
    have hrest : n + 1 - c.utf8Size = byteLen a := by omega
    rw [hn, List.cons_append, splitAtByte, if_pos (by omega), hrest, ih]
    rfl

/-- A text of no bytes is empty. -/
theorem eq_nil_of_byteLen {s : List Char} (h : byteLen s = 0) : s = [] := by
  cases s with
  | nil => rfl
  | cons c s =>
    have := c.utf8Size_pos
    simp only [byteLen, List.map_cons, List.sum_cons] at h
    omega

/-- Every character takes one byte. -/
def Ascii (s : List Char) : Prop := ∀ c ∈ s, c.utf8Size = 1

/-- An ASCII text has a byte for every character. -/
theorem Ascii.byteLen {s : List Char} (h : Ascii s) : byteLen s = s.length := by
  induction s with
  | nil => rfl
  | cons c s ih =>
    have hs := ih fun d hd => h d (List.mem_cons_of_mem c hd)
    have hc := h c (List.mem_cons_self ..)
    rw [List.length_cons, ← hs, ← List.singleton_append, byteLen_append]
    simp [Text.byteLen, hc, Nat.add_comm]

/-- Two texts are ASCII if both are. -/
theorem ascii_append {s t : List Char} : Ascii (s ++ t) ↔ Ascii s ∧ Ascii t := by
  simp [Ascii, or_imp, forall_and]

/-- Digits are ASCII. -/
theorem ascii_of_isDigit {s : List Char} (h : ∀ c ∈ s, c.isDigit = true) : Ascii s := by
  intro c hc
  have hd := h c hc
  simp only [Char.isDigit, Bool.and_eq_true, decide_eq_true_eq] at hd
  have : c.val ≤ 127 := UInt32.le_trans hd.2 (by decide)
  simp [Char.utf8Size, this]

/-- The code points of the capital letters. -/
theorem isUpper_toNat {c : Char} (h : c.isUpper = true) : 65 ≤ c.toNat ∧ c.toNat ≤ 90 := by
  have hval : 'A'.val ≤ c.val ∧ c.val ≤ 'Z'.val := of_decide_eq_true h
  exact ⟨UInt32.le_iff_toNat_le.1 hval.1, UInt32.le_iff_toNat_le.1 hval.2⟩

end Text
