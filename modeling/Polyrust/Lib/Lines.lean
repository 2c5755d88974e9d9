import Polyrust.Text

/-!
# Lines and delimiters

The lines of a text (`str::lines`), the split at the first delimiter (`str::split_once`), and what
is left of a text when characters are stripped from both its ends (`Text.trim`, `Text.trimMatches`):
a text that is clean at its ends (`CleanEnds`). Lines that are written one after the other are read
back (`lines_cons`).
-/

namespace Text

/-! ## Stripping -/

section
variable {p : Char → Bool} {s : List Char}

/-- The first and the last character do not have the property. -/
def CleanEnds (p : Char → Bool) (s : List Char) : Prop :=
  (∀ c ∈ s.head?, p c = false) ∧ ∀ c ∈ s.getLast?, p c = false

-- Decided at the two characters, not over all of them.
instance : Decidable (CleanEnds p s) :=
  @instDecidableAnd _ _ (Option.decidableForallMem s.head?) (Option.decidableForallMem s.getLast?)

/-- Stripped of what has the property, at both ends. -/
def strip (p : Char → Bool) (s : List Char) : List Char := (s.dropWhile p).rdropWhile p

/-- What is stripped is a part of the text. -/
theorem strip_infix : strip p s <:+: s :=
  (List.rdropWhile_prefix p _).isInfix.trans (List.dropWhile_suffix p).isInfix

/-- Its characters are characters of the text. -/
theorem mem_of_mem_strip {c : Char} (h : c ∈ strip p s) : c ∈ s := strip_infix.subset h

/-- What is stripped has clean ends. -/
theorem cleanEnds_strip : CleanEnds p (strip p s) := by
  refine ⟨fun c hc => ?_, fun c hc => ?_⟩
  · obtain ⟨rest, hrest⟩ := List.rdropWhile_prefix p (s.dropWhile p)
    have hhead := List.head?_dropWhile_not p s
    rw [← hrest, List.head?_append, show (List.rdropWhile p _).head? = some c from hc] at hhead
    simpa using hhead
  · have hne : strip p s ≠ [] := by
      intro h
      rw [h] at hc
      cases hc
    have hlast := List.rdropWhile_last_not p (s.dropWhile p) hne
    rw [List.getLast?_eq_some_getLast hne, Option.mem_some_iff] at hc
    rw [← hc]
    exact Bool.eq_false_iff.2 hlast

/-- A text whose first character stays begins as it did. -/
theorem head?_strip (h : ∀ c ∈ s.head?, p c = false) (hne : strip p s ≠ []) :
    (strip p s).head? = s.head? := by
  have hdrop : s.dropWhile p = s := by
    cases s with
    | nil => rfl
    | cons c s => exact List.dropWhile_cons_of_neg (by simp [h c rfl])
  rw [strip, hdrop] at hne ⊢
  obtain ⟨rest, hrest⟩ := List.rdropWhile_prefix p s
  conv => rhs; rw [← hrest]
  exact (List.head?_append_of_ne_nil _ hne).symm

/-- A text with clean ends stays as it is. -/
theorem strip_eq_self (h : CleanEnds p s) : strip p s = s := by
  cases s with
  | nil => rfl
  | cons c s =>
    have hc : p c = false := h.1 c rfl
    rw [strip, List.dropWhile_cons_of_neg (by simp [hc]), List.rdropWhile_eq_self_iff]
    intro hne
    simp [h.2 _ (List.getLast_mem_getLast? hne)]

/-- One character at each end. -/
theorem strip_surrounded {a b : Char} (ha : p a = true) (hb : p b = true) (h : CleanEnds p s) :
    strip p (a :: (s ++ [b])) = s := by
  rw [strip, List.dropWhile_cons_of_pos ha]
  cases s with
  | nil => rw [List.nil_append, List.dropWhile_cons_of_pos hb]; rfl
  | cons c s =>
    have hc : p c = false := h.1 c rfl
    rw [List.cons_append, List.dropWhile_cons_of_neg (by simp [hc]), ← List.cons_append,
      List.rdropWhile_concat_pos _ _ _ hb]
    exact List.rdropWhile_eq_self_iff.2 fun hne => by simp [h.2 _ (List.getLast_mem_getLast? hne)]

/-- To trim is to strip white space. -/
theorem trim_eq_strip (s : List Char) : trim s = strip isWhiteSpace s := rfl

/-- To trim a character is to strip it. -/
theorem trimMatches_eq_strip (a : Char) (s : List Char) : trimMatches a s = strip (· == a) s := rfl

end

/-! ## The first delimiter -/

/-- `str::split_once`, at a character. -/
def splitOnce (a : Char) : List Char → Option (List Char × List Char)
  | [] => none
  | c :: s => if c = a then some ([], s) else (splitOnce a s).map fun p => (c :: p.1, p.2)

/-- A text is split at the first place of the character. -/
theorem splitOnce_eq_some_iff {a : Char} {s before after : List Char} :
    splitOnce a s = some (before, after) ↔ a ∉ before ∧ s = before ++ a :: after := by
  induction s generalizing before with
  | nil => simp [splitOnce]
  | cons c s ih =>
    rw [splitOnce]
    split_ifs with hc
    · subst hc
      cases before with
      | nil => simp [eq_comm]
      | cons d before => simp; rintro h - rfl; exact absurd rfl h
    · cases before with
      | nil => simp [hc]
      | cons d before =>
        simp only [Option.map_eq_some_iff, Prod.exists, Prod.mk.injEq, List.cons.injEq,
          List.cons_append, List.mem_cons, not_or]
        refine ⟨?_, ?_⟩
        · rintro ⟨b, t, hs, ⟨rfl, rfl⟩, rfl⟩
          obtain ⟨hmem, rfl⟩ := ih.1 hs
          exact ⟨⟨Ne.symm hc, hmem⟩, rfl, rfl⟩
        · rintro ⟨⟨-, hmem⟩, rfl, rfl⟩
          exact ⟨before, after, ih.2 ⟨hmem, rfl⟩, ⟨rfl, rfl⟩, rfl⟩

/-! ## Lines -/

/-- `str::split_inclusive` at newlines: each line with its newline, and what follows the last. -/
def splitLines : List Char → List (List Char)
  | [] => []
  | c :: s =>
    if c = '\n' then [c] :: splitLines s
    else
      match splitLines s with
      | [] => [[c]]
      | line :: lines => (c :: line) :: lines

/-- A line without its newline, and without the carriage return before that. -/
def stripNewline (line : List Char) : List Char :=
  match stripSuffix ['\n'] line with
  | none => line
  | some line => (stripSuffix ['\r'] line).getD line

/-- `str::lines`. -/
def lines (s : List Char) : List (List Char) := (splitLines s).map stripNewline

/-- A line ends at its line break. -/
theorem splitLines_append {line : List Char} (h : '\n' ∉ line) (s : List Char) :
    splitLines (line ++ '\n' :: s) = (line ++ ['\n']) :: splitLines s := by
  induction line with
  | nil => rfl
  | cons c line ih =>
    obtain ⟨hc, hline⟩ := not_or.1 (mt List.mem_cons.2 h)
    rw [List.cons_append, splitLines, if_neg (Ne.symm hc), ih hline]
    rfl

/-- The only newline of a line is its last character. -/
theorem newline_of_mem_splitLines {s line : List Char} (h : line ∈ splitLines s) :
    ∃ l, '\n' ∉ l ∧ (line = l ∨ line = l ++ ['\n']) := by
  induction s generalizing line with
  | nil => cases h
  | cons c s ih =>
    rw [splitLines] at h
    split_ifs at h with hc
    · rcases List.mem_cons.1 h with rfl | h
      · exact ⟨[], List.not_mem_nil, .inr (by rw [hc]; rfl)⟩
      · exact ih h
    · cases hs : splitLines s with
      | nil =>
        rw [hs] at h
        rw [List.mem_singleton.1 h]
        exact ⟨[c], by simpa using Ne.symm hc, .inl rfl⟩
      | cons first others =>
        rw [hs] at h ih
        rcases List.mem_cons.1 h with rfl | h
        · obtain ⟨l, hl, he⟩ := ih (List.mem_cons_self ..)
          refine ⟨c :: l, List.not_mem_cons_of_ne_of_not_mem (Ne.symm hc) hl, ?_⟩
          rcases he with rfl | rfl
          · exact .inl rfl
          · exact .inr rfl
        · exact ih (List.mem_cons_of_mem _ h)

/-- Without its line break, a line is its text. -/
theorem stripNewline_eq {line : List Char} (h : '\r' ∉ line.getLast?) :
    stripNewline (line ++ ['\n']) = line := by
  have hcr : stripSuffix ['\r'] line = none := by
    refine if_neg fun hsuffix => h ?_
    obtain ⟨t, rfl⟩ := hsuffix
    simp
  rw [stripNewline, stripSuffix_append]
  simp only [hcr, Option.getD_none]

/-- A line that is written before a text is the first of its lines. -/
theorem lines_cons {line : List Char} (h : '\n' ∉ line) (hcr : '\r' ∉ line.getLast?)
    (s : List Char) : lines (line ++ '\n' :: s) = line :: lines s := by
  rw [lines, splitLines_append h, List.map_cons, stripNewline_eq hcr]
  rfl

/-- Without a suffix, a text has no new characters. -/
theorem mem_getD_stripSuffix {suffix s : List Char} {c : Char}
    (h : c ∈ (stripSuffix suffix s).getD s) : c ∈ s := by
  unfold stripSuffix at h
  split_ifs at h
  · exact List.mem_of_mem_take h
  · exact h

/-- There is no newline in a line. -/
theorem newline_not_mem_lines {s line : List Char} (h : line ∈ lines s) : '\n' ∉ line := by
  obtain ⟨raw, hraw, rfl⟩ := List.mem_map.1 h
  obtain ⟨l, hl, rfl | rfl⟩ := newline_of_mem_splitLines hraw
  · have hnone : stripSuffix ['\n'] raw = none := by
      refine if_neg fun hsuffix => hl ?_
      exact hsuffix.subset (List.mem_singleton_self _)
    rw [stripNewline, hnone]
    exact hl
  · rw [stripNewline, stripSuffix_append]
    exact fun hmem => hl (mem_getD_stripSuffix hmem)

end Text
