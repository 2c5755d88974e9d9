import Mathlib.Data.List.TakeDrop
import Mathlib.Data.Rat.Floor
import Polyrust.Lib.Digits

/-!
# Log lines

The key=value lines of the logger (`logline.rs`), which the programs that analyse the logs read. The
texts in them come from outside: slugs, error bodies, addresses. `write_quoted` quotes what would
end a value, so the lines can be read back, whatever the texts are (`log_reads_back`): no text makes
a field or a line of its own. Only the empty text is not told from `-`, which it is written as. How
a floating-point number is printed is a parameter, of which the form of the text is all that is used
(`FixedText`).
-/

namespace Polyrust

namespace Logline

/-- The levels of the logger. -/
inductive Level where
  | error
  | warn
  | info
  | debug
  deriving DecidableEq, Repr

/-- The discriminant of a level. -/
def Level.code : Level → Nat
  | .error => 40
  | .warn => 30
  | .info => 20
  | .debug => 10

/-- `Level::as_str`. -/
def Level.asStr : Level → String
  | .error => "ERROR"
  | .warn => "WARNING"
  | .info => "INFO"
  | .debug => "DEBUG"

/-- `enabled`, against the level that is set. -/
def enabled (threshold level : Level) : Bool := threshold.code ≤ level.code

/-- The values of fields; `F` are the 64-bit floating-point numbers. -/
inductive FieldValue (F : Type) where
  | text (s : String)
  | bool (b : Bool)
  | int (n : Int)
  | float (x : F)
  deriving DecidableEq, Repr

/-- A field of an event. -/
structure Field (F : Type) where
  key : String
  value : FieldValue F
  deriving DecidableEq, Repr

/-! ## Writing -/

/-- `u8::is_ascii_whitespace`. -/
def isAsciiWhitespace (c : Char) : Bool :=
  c == ' ' || c == '\t' || c == '\n' || c == '\x0c' || c == '\r'

/-- A character that a value is quoted for. -/
def needsQuote (c : Char) : Bool :=
  isAsciiWhitespace c || c == '\x22' || c == '=' || c == '\\'

/-- A character in quotes. -/
def escape (c : Char) : List Char :=
  if c = '\\' then ['\\', '\\'] else if c = '\x22' then ['\\', '\x22']
  else if c = '\n' then ['\\', 'n'] else [c]

/-- `write_quoted`. -/
def writeQuoted (s : List Char) : List Char :=
  if s.isEmpty then ['-']
  else if !s.any needsQuote then s
  else '\x22' :: s.flatMap escape ++ ['\x22']

/-- An event with its time. -/
structure LogEvent (F : Type) where
  tsUs : Int
  level : Level
  event : String
  fields : List (Field F)

/-- The events whose lines are written. -/
def written {F : Type} (threshold : Level) (events : List (LogEvent F × Bool)) :
    List (LogEvent F) :=
  (events.filter fun event => enabled threshold event.1.level && event.2).map Prod.fst

section
variable {F : Type} (fixed4 : F → List Char)

/-- `FieldValue::write`; `fixed4` is the format `{:.4}`. -/
def FieldValue.write : FieldValue F → List Char
  | .text s => writeQuoted s.toList
  | .bool b => if b then "true".toList else "false".toList
  | .int n => n.repr.toList
  | .float x => fixed4 x

/-- The line of an event. -/
def LogEvent.line (e : LogEvent F) : List Char :=
  "ts_us=".toList ++ e.tsUs.repr.toList ++ " level=".toList ++ e.level.asStr.toList ++
    " event=".toList ++ e.event.toList ++
    e.fields.flatMap (fun f => ' ' :: f.key.toList ++ '=' :: f.value.write fixed4) ++ ['\n']

/-- `log_event`; `taken` says whether the channel had room for the line. -/
def logEvent (threshold : Level) (e : LogEvent F) (taken : Bool) : List Char :=
  if enabled threshold e.level && taken then e.line fixed4 else []

/-- What is written of some events. -/
def log (threshold : Level) (events : List (LogEvent F × Bool)) : List Char :=
  events.flatMap fun event => logEvent fixed4 threshold event.1 event.2

end

/-! ## Reading -/

/-- A character after a backslash. -/
def unescape (c : Char) : Char := if c = 'n' then '\n' else c

/-- A text up to its closing quote, and what follows it. -/
def unquote : List Char → Option (List Char × List Char)
  | [] => none
  | '\x22' :: rest => some ([], rest)
  | '\\' :: c :: rest => (unquote rest).map fun (s, rest) => (unescape c :: s, rest)
  | c :: rest => (unquote rest).map fun (s, rest) => (c :: s, rest)

/-- A value ends at a blank and at the end of the line. -/
def endsValue (c : Char) : Bool := c == ' ' || c == '\n'

/-- The value at the front, in quotes or not, and what follows it. -/
def readValue : List Char → Option (List Char × List Char)
  | '\x22' :: rest => unquote rest
  | cs => some (cs.span fun c => !endsValue c)

/-- The entries of a line, and the lines after it; there are at most `fuel` of them. -/
def readEntries : Nat → List Char → Option (List (List Char × List Char) × List Char)
  | 0, _ => none
  | fuel + 1, cs =>
    match cs.span (· ≠ '=') with
    | (key, '=' :: rest) => do
      let (value, rest) ← readValue rest
      match rest with
      | ' ' :: rest =>
        let (entries, rest) ← readEntries fuel rest
        return ((key, value) :: entries, rest)
      | '\n' :: rest => return ([(key, value)], rest)
      | _ => none
    | _ => none

/-- The entries of all lines; there are less than `fuel` of them. -/
def readLines : Nat → List Char → Option (List (List (List Char × List Char)))
  | 0, _ => none
  | _ + 1, [] => some []
  | fuel + 1, cs => do
    let (entries, rest) ← readEntries cs.length cs
    return entries :: (← readLines fuel rest)

/-- The entries of a log. -/
def readLog (cs : List Char) : Option (List (List (List Char × List Char))) :=
  readLines (cs.length + 1) cs

/-! ## What is read -/

section
variable {F : Type} (fixed4 : F → List Char)

/-- What a value is written as, before it is quoted. -/
def FieldValue.shown : FieldValue F → List Char
  | .text s => if s.isEmpty then ['-'] else s.toList
  | .bool b => if b then "true".toList else "false".toList
  | .int n => n.repr.toList
  | .float x => fixed4 x

/-- The entries of a line. -/
def LogEvent.entries (e : LogEvent F) : List (List Char × List Char) :=
  [("ts_us".toList, e.tsUs.repr.toList), ("level".toList, e.level.asStr.toList),
    ("event".toList, e.event.toList)] ++ e.fields.map fun f => (f.key.toList, f.value.shown fixed4)

end

/-- A text that is written as it is: it is not empty, and no character of it is quoted. -/
def Plain (s : List Char) : Prop := s ≠ [] ∧ s.any needsQuote = false

instance (s : List Char) : Decidable (Plain s) := inferInstanceAs (Decidable (_ ∧ _))

/-- The event and the keys of its fields are plain, as they are at all calls. -/
structure LogEvent.Named {F : Type} (e : LogEvent F) : Prop where
  event : Plain e.event.toList
  keys : ∀ f ∈ e.fields, Plain f.key.toList

/-- The texts that `{:.4}` prints: a number with four digits after its point, or what is none. -/
inductive FixedText : List Char → Prop where
  | number (negative : Bool) {whole frac : List Char} (hne : whole ≠ [])
    (hwhole : ∀ c ∈ whole, c.isDigit = true) (hlength : frac.length = 4)
    (hfrac : ∀ c ∈ frac, c.isDigit = true) :
    FixedText ((if negative then ['-'] else []) ++ (whole ++ '.' :: frac))
  | infinity (negative : Bool) : FixedText ((if negative then ['-'] else []) ++ "inf".toList)
  | nan : FixedText "NaN".toList

section
variable {s rest : List Char}

/-- A plain text is written as it is. -/
theorem writeQuoted_plain (h : Plain s) : writeQuoted s = s := by
  rw [writeQuoted, if_neg (by simpa using h.1), if_pos (by rw [h.2]; rfl)]

/-- A quoted text is read up to its closing quote. -/
theorem unquote_flatMap_escape (s rest : List Char) :
    unquote (s.flatMap escape ++ '\x22' :: rest) = some (s, rest) := by
  induction s with
  | nil => rfl
  | cons c s ih =>
    rw [List.flatMap_cons, List.append_assoc, escape]
    split
    · next h =>
      subst h
      simp only [List.cons_append, List.nil_append, unquote, ih]
      rfl
    split
    · next h =>
      subst h
      simp only [List.cons_append, List.nil_append, unquote, ih]
      rfl
    split
    · next h =>
      subst h
      simp only [List.cons_append, List.nil_append, unquote, ih]
      rfl
    · next hback hquote hnewline =>
      rw [List.cons_append, List.nil_append, unquote, ih]
      · rfl
      · exact hquote
      · intro c' rest' h
        exact absurd h hback

/-- A list up to the first character that does not have a property. -/
theorem span_append {p : Char → Bool} {c : Char} (hs : ∀ c ∈ s, p c = true) (hc : p c = false)
    (rest : List Char) : (s ++ c :: rest).span p = (s, c :: rest) := by
  rw [List.span_eq_takeWhile_dropWhile, List.takeWhile_append_of_pos hs,
    List.dropWhile_append_of_pos hs, List.takeWhile_cons_of_neg (by simp [hc]),
    List.dropWhile_cons_of_neg (by simp [hc]), List.append_nil]

/-- No character of a plain text is quoted. -/
theorem Plain.not_needsQuote (h : Plain s) {c : Char} (hc : c ∈ s) : needsQuote c = false := by
  have := List.any_eq_false.1 h.2 c hc
  simpa using this

/-- A value is read up to the blank or the end of the line. -/
theorem readValue_writeQuoted (hs : s ≠ []) {c : Char} (hc : endsValue c = true)
    (rest : List Char) : readValue (writeQuoted s ++ c :: rest) = some (s, c :: rest) := by
  rw [writeQuoted, if_neg (by simpa using hs)]
  cases hquote : s.any needsQuote with
  | true =>
    simp only [Bool.not_true, Bool.false_eq_true, if_false, List.cons_append, List.append_assoc]
    exact unquote_flatMap_escape s (c :: rest)
  | false =>
    have hplain : Plain s := ⟨hs, hquote⟩
    have hends : ∀ c ∈ s, (!endsValue c) = true := by
      intro c hc
      have := hplain.not_needsQuote hc
      simp only [needsQuote, isAsciiWhitespace, Bool.or_eq_false_iff] at this
      simp [endsValue, this]
    simp only [Bool.not_false, if_true]
    cases s with
    | nil => exact absurd rfl hs
    | cons d s =>
      have hd : d ≠ '\x22' := by
        rintro rfl
        exact absurd (hplain.not_needsQuote List.mem_cons_self) (by decide)
      rw [List.cons_append, readValue]
      · rw [← List.cons_append, span_append hends (by simp [hc])]
      · rintro rest' h
        cases h
        exact hd rfl

/-! ## The entries of a line -/

/-- An entry as it is written. -/
def writeEntry (entry : List Char × List Char) : List Char :=
  entry.1 ++ '=' :: writeQuoted entry.2

/-- Entries with blanks between them, and the end of the line. -/
def writeEntries : List (List Char × List Char) → List Char
  | [] => ['\n']
  | [entry] => writeEntry entry ++ ['\n']
  | entry :: entries => writeEntry entry ++ ' ' :: writeEntries entries

/-- Entries that can be read: the key is plain, and the value is not empty. -/
def Readable (entry : List Char × List Char) : Prop := Plain entry.1 ∧ entry.2 ≠ []

/-- The entries of a line are read back, and reading stops at the next line. -/
theorem readEntries_writeEntries {entries : List (List Char × List Char)} (hne : entries ≠ [])
    (h : ∀ entry ∈ entries, Readable entry) {fuel : Nat} (hfuel : entries.length ≤ fuel)
    (rest : List Char) :
    readEntries fuel (writeEntries entries ++ rest) = some (entries, rest) := by
  have hkey {key : List Char} (hplain : Plain key) (rest : List Char) :
      (key ++ '=' :: rest).span (· ≠ '=') = (key, '=' :: rest) := by
    refine span_append (fun c hc => ?_) (by decide) rest
    have := hplain.not_needsQuote hc
    simp only [needsQuote, Bool.or_eq_false_iff, beq_eq_false_iff_ne] at this
    simpa using this.1.2
  induction entries generalizing fuel with
  | nil => exact absurd rfl hne
  | cons entry entries ih =>
    obtain ⟨hentry, hentries⟩ := List.forall_mem_cons.1 h
    cases fuel with
    | zero => cases hfuel
    | succ fuel =>
      cases entries with
      | nil =>
        rw [writeEntries, writeEntry, List.append_assoc, List.append_assoc, readEntries]
        simp only [List.cons_append, List.nil_append]
        rw [hkey hentry.1]
        simp only [readValue_writeQuoted hentry.2 (c := '\n') rfl]
        rfl
      | cons next entries =>
        have hrest := ih (by simp) hentries (Nat.le_of_succ_le_succ hfuel)
        rw [writeEntries, writeEntry, List.append_assoc, List.append_assoc, readEntries]
        · simp only [List.cons_append]
          rw [hkey hentry.1]
          simp only [readValue_writeQuoted hentry.2 (c := ' ') rfl]
          rw [Option.bind_eq_bind, Option.bind_some]
          simp only [hrest]
          rfl
        · simp

/-- The first entry stands alone, and every other one after a blank. -/
theorem writeEntries_cons (entry : List Char × List Char) (entries : List (List Char × List Char)) :
    writeEntries (entry :: entries) =
      writeEntry entry ++ entries.flatMap (fun e => ' ' :: writeEntry e) ++ ['\n'] := by
  induction entries generalizing entry with
  | nil => simp [writeEntries]
  | cons next entries ih =>
    rw [writeEntries, ih next]
    · simp
    · simp

/-! ## Lines -/

/-- No digit is quoted. -/
theorem needsQuote_of_isDigit {c : Char} (hdigit : c.isDigit = true) : needsQuote c = false := by
  have hne {d : Char} (hd : d.isDigit = false) : c ≠ d := by
    rintro rfl
    cases hd.symm.trans hdigit
  simp [needsQuote, isAsciiWhitespace, hne (by decide : ' '.isDigit = false),
    hne (by decide : '\t'.isDigit = false), hne (by decide : '\n'.isDigit = false),
    hne (by decide : '\x0c'.isDigit = false), hne (by decide : '\r'.isDigit = false),
    hne (by decide : '\x22'.isDigit = false), hne (by decide : '='.isDigit = false),
    hne (by decide : '\\'.isDigit = false)]

/-- Digits are not quoted. -/
theorem any_needsQuote_digits {s : List Char} (h : ∀ c ∈ s, c.isDigit = true) :
    s.any needsQuote = false :=
  List.any_eq_false.2 fun c hc => by simp [needsQuote_of_isDigit (h c hc)]

/-- A number in digits is plain. -/
theorem plain_toDigits (n : Nat) : Plain (Nat.toDigits 10 n) :=
  ⟨Nat.toDigits_ne_nil, any_needsQuote_digits fun c hc =>
    Nat.isDigit_of_mem_toDigits (by decide) (by decide) hc⟩

/-- What is printed of a floating-point number is plain. -/
theorem FixedText.plain {s : List Char} (h : FixedText s) : Plain s := by
  have hsign (negative : Bool) :
      (if negative then ['-'] else []).any needsQuote = false := by
    cases negative <;> decide
  cases h with
  | number negative hne hwhole hlength hfrac =>
    refine ⟨by simp, ?_⟩
    rw [List.any_append, List.any_append, List.any_cons, hsign, any_needsQuote_digits hwhole,
      any_needsQuote_digits hfrac]
    decide
  | infinity negative =>
    refine ⟨by simp, ?_⟩
    rw [List.any_append, hsign]
    decide
  | nan => decide

/-- An integer in digits is plain. -/
theorem plain_repr (n : Int) : Plain n.repr.toList := by
  cases n with
  | ofNat n =>
    rw [Int.repr, Nat.repr, String.toList_ofList]
    exact plain_toDigits n
  | negSucc n =>
    have hrepr : (Int.negSucc n).repr.toList = '-' :: Nat.toDigits 10 n.succ := by
      rw [Int.repr, String.toList_append, Nat.repr, String.toList_ofList, String.toList_ofList]
      rfl
    rw [hrepr]
    refine ⟨List.cons_ne_nil _ _, ?_⟩
    rw [List.any_cons, (plain_toDigits n.succ).2]
    rfl

/-- The names of the levels are plain. -/
theorem plain_asStr (level : Level) : Plain level.asStr.toList := by
  cases level <;> decide

section
variable {F : Type} {fixed4 : F → List Char}

/-- Every value is written as the quoted text of what is shown. -/
theorem FieldValue.write_eq (hfixed4 : ∀ x, FixedText (fixed4 x)) (value : FieldValue F) :
    value.write fixed4 = writeQuoted (value.shown fixed4) := by
  cases value with
  | text s =>
    rw [FieldValue.write, FieldValue.shown]
    split
    · next h =>
      rw [String.isEmpty_iff.1 h]
      rfl
    · rfl
  | bool b => cases b <;> rfl
  | int n => exact (writeQuoted_plain (plain_repr n)).symm
  | float x => exact (writeQuoted_plain (hfixed4 x).plain).symm

/-- What is shown is not empty. -/
theorem FieldValue.shown_ne_nil (hfixed4 : ∀ x, FixedText (fixed4 x)) (value : FieldValue F) :
    value.shown fixed4 ≠ [] := by
  cases value with
  | text s =>
    rw [FieldValue.shown]
    split
    · simp
    · next h => simpa using h
  | bool b => cases b <;> simp [FieldValue.shown]
  | int n => exact (plain_repr n).1
  | float x => exact (hfixed4 x).plain.1

/-- The entries of an event with plain names can be read back. -/
theorem LogEvent.entries_readable (hfixed4 : ∀ x, FixedText (fixed4 x)) {e : LogEvent F}
    (h : e.Named) : ∀ entry ∈ e.entries fixed4, Readable entry := by
  have hnames : Plain "ts_us".toList ∧ Plain "level".toList ∧ Plain "event".toList := by decide
  intro entry hentry
  rcases List.mem_append.1 hentry with hentry | hentry
  · simp only [List.mem_cons, List.not_mem_nil, or_false] at hentry
    rcases hentry with rfl | rfl | rfl
    · exact ⟨hnames.1, (plain_repr e.tsUs).1⟩
    · exact ⟨hnames.2.1, (plain_asStr e.level).1⟩
    · exact ⟨hnames.2.2, h.event.1⟩
  · obtain ⟨f, hf, rfl⟩ := List.mem_map.1 hentry
    exact ⟨h.keys f hf, f.value.shown_ne_nil hfixed4⟩

/-- A line is that of its entries. -/
theorem LogEvent.line_eq (hfixed4 : ∀ x, FixedText (fixed4 x)) {e : LogEvent F} (h : e.Named) :
    e.line fixed4 = writeEntries (e.entries fixed4) := by
  have hts : "ts_us=".toList = "ts_us".toList ++ ['='] := by decide
  have hlevel : " level=".toList = ' ' :: "level".toList ++ ['='] := by decide
  have hevent : " event=".toList = ' ' :: "event".toList ++ ['='] := by decide
  have hentries : e.entries fixed4 = ("ts_us".toList, e.tsUs.repr.toList) ::
      ([("level".toList, e.level.asStr.toList), ("event".toList, e.event.toList)] ++
        e.fields.map fun f => (f.key.toList, f.value.shown fixed4)) := rfl
  unfold LogEvent.line
  rw [hentries, writeEntries_cons, hts, hlevel, hevent]
  simp only [writeEntry, writeQuoted_plain (plain_repr e.tsUs),
    writeQuoted_plain (plain_asStr e.level), writeQuoted_plain h.event, List.cons_append,
    List.nil_append, List.flatMap_cons, List.flatMap_map, FieldValue.write_eq hfixed4,
    List.append_assoc]

end

/-- There are at most as many entries as characters. -/
theorem length_writeEntries {entries : List (List Char × List Char)} :
    entries.length ≤ (writeEntries entries).length := by
  cases entries with
  | nil => exact Nat.zero_le _
  | cons entry entries =>
    rw [writeEntries_cons]
    have hentry : 1 ≤ (writeEntry entry).length := by
      rw [writeEntry, List.length_append, List.length_cons]
      omega
    have hrest : entries.length ≤ (entries.flatMap fun e => ' ' :: writeEntry e).length := by
      induction entries with
      | nil => exact Nat.zero_le _
      | cons next entries ih =>
        simp only [List.length_cons, List.flatMap_cons, List.length_append]
        omega
    simp only [List.length_cons, List.length_append, List.length_nil]
    omega

/-- No character is escaped to one that ends the line. -/
theorem newline_not_mem_escape (c : Char) : '\n' ∉ escape c := by
  rw [escape]
  split
  · decide
  split
  · decide
  split
  · decide
  · next h => simpa using Ne.symm h

/-- Nothing that is quoted ends the line. -/
theorem newline_not_mem_writeQuoted (s : List Char) : '\n' ∉ writeQuoted s := by
  rw [writeQuoted]
  split
  · decide
  split
  · next h =>
    intro hmem
    rw [Bool.not_eq_true', List.any_eq_false] at h
    exact h '\n' hmem (by decide)
  · simp only [List.cons_append, List.mem_cons, List.mem_append, List.mem_flatMap]
    rintro (h | ⟨c, -, h⟩ | h | h)
    · cases h
    · exact newline_not_mem_escape c h
    · cases h
    · cases h

section
variable {F : Type} {fixed4 : F → List Char} (hfixed4 : ∀ x, FixedText (fixed4 x))
include hfixed4

/-- A line has one end. -/
theorem LogEvent.count_line {e : LogEvent F} (h : e.Named) : (e.line fixed4).count '\n' = 1 := by
  have hentry {entry : List Char × List Char} (hentry : Readable entry) :
      (writeEntry entry).count '\n' = 0 := by
    refine List.count_eq_zero.2 fun hmem => ?_
    rcases List.mem_append.1 hmem with hmem | hmem
    · exact absurd (hentry.1.not_needsQuote hmem) (by decide)
    · rcases List.mem_cons.1 hmem with hmem | hmem
      · cases hmem
      · exact newline_not_mem_writeQuoted entry.2 hmem
  rw [LogEvent.line_eq hfixed4 h]
  have hreadable := LogEvent.entries_readable hfixed4 h
  have hne : e.entries fixed4 ≠ [] := by simp [LogEvent.entries]
  generalize e.entries fixed4 = entries at hreadable hne
  induction entries with
  | nil => exact absurd rfl hne
  | cons entry entries ih =>
    obtain ⟨hfirst, hrest⟩ := List.forall_mem_cons.1 hreadable
    cases entries with
    | nil =>
      rw [writeEntries, List.count_append, hentry hfirst]
      rfl
    | cons next entries =>
      rw [writeEntries, List.count_append, hentry hfirst, List.count_cons_of_ne (by decide),
        ih hrest (by simp)]
      simp

/-- A line at the start of a log is read. -/
theorem readEntries_line {e : LogEvent F} (h : e.Named) (rest : List Char) :
    readEntries (e.line fixed4 ++ rest).length (e.line fixed4 ++ rest) =
      some (e.entries fixed4, rest) := by
  rw [LogEvent.line_eq hfixed4 h]
  refine readEntries_writeEntries (by simp [LogEvent.entries])
    (LogEvent.entries_readable hfixed4 h) ?_ rest
  rw [List.length_append]
  exact length_writeEntries.trans (Nat.le_add_right _ _)

/-- Lines are read, one after the other. -/
theorem readLines_flatMap {events : List (LogEvent F)} (h : ∀ e ∈ events, e.Named) {fuel : Nat}
    (hfuel : events.length < fuel) :
    readLines fuel (events.flatMap (·.line fixed4)) = some (events.map (·.entries fixed4)) := by
  induction events generalizing fuel with
  | nil =>
    cases fuel with
    | zero => cases hfuel
    | succ fuel => rfl
  | cons e events ih =>
    obtain ⟨he, hevents⟩ := List.forall_mem_cons.1 h
    cases fuel with
    | zero => cases hfuel
    | succ fuel =>
      have hline := readEntries_line hfixed4 he (events.flatMap (·.line fixed4))
      rw [List.flatMap_cons, readLines, hline, Option.bind_eq_bind, Option.bind_some]
      · simp only [ih hevents (Nat.lt_of_succ_lt_succ hfuel)]
        rfl
      · have hcount := LogEvent.count_line hfixed4 he
        intro hnil
        rw [List.append_eq_nil_iff] at hnil
        rw [hnil.1] at hcount
        cases hcount

omit hfixed4 in
/-- The log is the lines of the events that are written, one after the other. -/
theorem log_eq (threshold : Level) (events : List (LogEvent F × Bool)) :
    log fixed4 threshold events = (written threshold events).flatMap (·.line fixed4) := by
  induction events with
  | nil => rfl
  | cons event events ih =>
    obtain ⟨e, taken⟩ := event
    have hlog : log fixed4 threshold ((e, taken) :: events) =
        logEvent fixed4 threshold e taken ++ log fixed4 threshold events := rfl
    have hwritten : written threshold ((e, taken) :: events) =
        if enabled threshold e.level && taken then e :: written threshold events
        else written threshold events := by
      rw [written, List.filter_cons]
      split <;> rfl
    rw [hlog, hwritten, ih, logEvent]
    split <;> rfl

/-- There are as many ends of lines as there are lines. -/
theorem count_flatMap_line {events : List (LogEvent F)} (h : ∀ e ∈ events, e.Named) :
    (events.flatMap (·.line fixed4)).count '\n' = events.length := by
  induction events with
  | nil => rfl
  | cons e events ih =>
    obtain ⟨he, hevents⟩ := List.forall_mem_cons.1 h
    rw [List.flatMap_cons, List.count_append, LogEvent.count_line hfixed4 he, ih hevents,
      List.length_cons, Nat.add_comm]

end

/-- Whatever the texts of the fields are, a log is read as the entries of the events that were
written to it, each of them with its fields and no others, and each of them is one line. -/
theorem log_reads_back {F : Type} {fixed4 : F → List Char}
    (hfixed4 : ∀ x, FixedText (fixed4 x)) (threshold : Level) (events : List (LogEvent F × Bool))
    (h : ∀ event ∈ events, event.1.Named) :
    readLog (log fixed4 threshold events) =
        some ((written threshold events).map (·.entries fixed4)) ∧
      (log fixed4 threshold events).count '\n' = (written threshold events).length := by
  have hnamed : ∀ e ∈ written threshold events, e.Named := by
    intro e he
    obtain ⟨event, hevent, rfl⟩ := List.mem_map.1 he
    exact h event (List.mem_filter.1 hevent).1
  rw [log_eq]
  have hcount := count_flatMap_line hfixed4 hnamed
  refine ⟨readLines_flatMap hfixed4 hnamed ?_, hcount⟩
  rw [← hcount]
  exact Nat.lt_succ_of_le List.count_le_length

end

/-- Rational numbers with four decimals, rounded to the nearest. -/
def ratFixed4 (q : ℚ) : List Char :=
  let n := (|q| * 10000 + 1 / 2).floor.toNat
  (if q < 0 then ['-'] else []) ++
    (Nat.toDigits 10 (n / 10000) ++ '.' :: Digits.pad 4 (n % 10000))

/-- Rational numbers are printed in the form that is asked for. -/
theorem fixedText_ratFixed4 (q : ℚ) : FixedText (ratFixed4 q) := by
  have hsign : (if q < 0 then ['-'] else []) = if decide (q < 0) then ['-'] else [] := by
    simp only [decide_eq_true_eq]
  unfold ratFixed4
  generalize (|q| * 10000 + 1 / 2).floor.toNat = n
  dsimp only
  rw [hsign]
  refine .number _ Nat.toDigits_ne_nil ?_ ?_ fun c hc => Digits.isDigit_of_mem_pad hc
  · exact fun c hc => Nat.isDigit_of_mem_toDigits (by decide) (by decide) hc
  · exact Digits.length_pad (by decide) (Nat.mod_lt _ (by decide))

/-- An event whose texts look like fields and lines. -/
def forged : LogEvent ℚ where
  tsUs := 1778137224437507
  level := .warn
  event := "minirust_market_context"
  fields :=
    [⟨"slug", .text "x\" level=ERROR\nts_us=0 event=halt"⟩, ⟨"condition_id", .text ""⟩,
      ⟨"end_ts", .int (-1)⟩]

/-- The event of a strike. -/
def resolved : LogEvent ℚ where
  tsUs := 1778137224437508
  level := .warn
  event := "shadow_anchor_resolved"
  fields := [⟨"strike", .float 97432.5⟩]

example : resolved.line ratFixed4 =
    ("ts_us=1778137224437508 level=WARNING event=shadow_anchor_resolved " ++
      "strike=97432.5000\n").toList := by
  decide +kernel

/-- The forged line is read back as the text of a field, and the strike as a number with four
decimals. -/
theorem log_reads_back_forged :
    readLog (log ratFixed4 .info [(forged, true), (forged, false),
        ({ forged with level := .debug }, true), (resolved, true)]) =
        some [forged.entries ratFixed4, resolved.entries ratFixed4] ∧
      (log ratFixed4 .info [(forged, true), (forged, false),
        ({ forged with level := .debug }, true), (resolved, true)]).count '\n' = 2 := by
  have hnamed : forged.Named := ⟨by decide +kernel, by decide +kernel⟩
  refine log_reads_back fixedText_ratFixed4 .info _ fun event hevent => ?_
  simp only [List.mem_cons, List.not_mem_nil, or_false] at hevent
  rcases hevent with rfl | rfl | rfl | rfl
  · exact hnamed
  · exact hnamed
  · exact ⟨hnamed.event, hnamed.keys⟩
  · exact ⟨by decide +kernel, by decide +kernel⟩

end Logline

end Polyrust
