import Polyrust.Gamma
import Polyrust.Decimal.Exact
import Polyrust.Lib.Calendar

/-!
# End times

Timestamps written as a date, a time of day, an optional fraction and a zone. With a zone of zero
they are read as the seconds since 1970 of the Gregorian calendar (`parse_utc`). With another
offset they are refused, or the offset is ignored (`offset_iff`).
-/

namespace Polyrust

open IntWidth Digits

namespace Gamma

/-! ## Timestamps -/

/-- A date from the year zero on, a time of day, and the digits of a fraction. -/
structure Stamp where
  date : Calendar.Date
  hour : Nat
  min : Nat
  sec : Nat
  fraction : Option (List Char)
  year_nonneg : 0 ≤ date.year
  hour_lt : hour < 24
  min_lt : min < 60
  sec_lt : sec < 60
  fraction_digits : ∀ ds ∈ fraction, ∀ c ∈ ds, c.isDigit = true

/-- The zone of a timestamp that is at zero. -/
inductive Utc where
  | zulu
  | zero

/-- A zone of another offset. -/
structure Offset where
  /-- local time is ahead of UTC -/
  ahead : Bool
  hours : Nat
  minutes : Nat
  hours_lt : hours < 100
  minutes_lt : minutes < 60
  nonzero : hours ≠ 0 ∨ minutes ≠ 0

namespace Stamp

variable (stamp : Stamp)

/-- The Unix seconds of the timestamp at a zone of zero. -/
def unix : Int :=
  86400 * stamp.date.number + 3600 * stamp.hour + 60 * stamp.min + stamp.sec

/-- The same time on the next day. -/
def nextDay : Stamp :=
  { stamp with
    date := stamp.date.next
    year_nonneg := by
      have hyear := stamp.year_nonneg
      unfold Calendar.Date.next
      split_ifs
      · exact hyear
      · exact hyear
      · exact Int.add_nonneg hyear (by decide) }

/-- `YYYY-MM-DDTHH:MM:`. -/
def minutesText : List Char :=
  pad 4 stamp.date.year.toNat ++ '-' :: (pad 2 stamp.date.month ++ '-' ::
    (pad 2 stamp.date.day ++ 'T' :: (pad 2 stamp.hour ++ ':' :: (pad 2 stamp.min ++ [':']))))

/-- The parts before the seconds. -/
def minutesParts : List (List Char) :=
  [pad 4 stamp.date.year.toNat, pad 2 stamp.date.month, pad 2 stamp.date.day, pad 2 stamp.hour,
    pad 2 stamp.min]

/-- `YYYY-MM-DDTHH:MM:SS`. -/
def clock : List Char := stamp.minutesText ++ pad 2 stamp.sec

/-- The fraction of the second with its point, if there is one. -/
def fractionText : List Char :=
  match stamp.fraction with
  | some ds => '.' :: ds
  | none => []

/-- The text of the stamp in a zone. -/
def render (zone : List Char) : List Char := stamp.clock ++ (stamp.fractionText ++ zone)

/-- The fields of the timestamp. -/
def fields : CivilTime :=
  { year := stamp.date.year, month := stamp.date.month, day := stamp.date.day, hour := stamp.hour
    min := stamp.min, sec := stamp.sec }

end Stamp

namespace Utc

/-- The text of the zone. -/
def text : Utc → List Char
  | .zulu => ['Z']
  | .zero => "+00:00".toList

end Utc

namespace Offset

variable (offset : Offset)

/-- The sign of an offset. -/
def sign : Char := if offset.ahead then '+' else '-'

/-- `+hh:mm` or `-hh:mm`. -/
def text : List Char := offset.sign :: (pad 2 offset.hours ++ ':' :: pad 2 offset.minutes)

/-- What the offset adds to UTC. -/
def seconds : Int :=
  (if offset.ahead then 1 else -1) * (3600 * offset.hours + 60 * offset.minutes)

/-- An offset that is not zero moves the time. -/
theorem seconds_ne_zero : offset.seconds ≠ 0 := by
  have h := offset.nonzero
  unfold seconds
  split <;> omega

end Offset

/-! ## Parts -/

/-- A padded number is read back, if it is in range. -/
theorem parseI64_pad (width n : Nat) : parseI64 (pad width n) = i64.checked n := by
  have hval : halfValue (pad width n) = some (n : Int) := by
    rw [halfValue_digits fun c => isDigit_of_mem_pad, val_pad]
  ext v
  obtain ⟨c, rest, hpad⟩ := List.exists_cons_of_ne_nil (pad_ne_nil width n)
  rw [hpad] at hval ⊢
  rw [parseI64_some, hval, checked_eq_some, Option.some.injEq]
  constructor <;> (rintro ⟨rfl, h⟩; exact ⟨rfl, h⟩)

/-- A padded number of two digits is read back. -/
theorem parseI64_pad_of_lt (width : Nat) {n : Nat} (h : n < 100) :
    parseI64 (pad width n) = some n := by
  rw [parseI64_pad]
  exact if_pos ⟨by rw [i64_lo]; omega, by rw [i64_hi]; omega⟩

/-- A digit separates nothing. -/
theorem isSeparator_of_isDigit {c : Char} (h : c.isDigit = true) : isSeparator c = false := by
  have hne : ∀ d : Char, d.isDigit = false → (c == d) = false := by
    rintro d hd
    rw [beq_eq_false_iff_ne]
    rintro rfl
    rw [h] at hd
    cases hd
  simp only [isSeparator, hne '-' rfl, hne 'T' rfl, hne ':' rfl, Bool.or_false]

/-- Digits up to a separator are a part. -/
theorem splitOnP_pad (width n : Nat) (a : Char) (ha : isSeparator a = true) (rest : List Char) :
    (pad width n ++ a :: rest).splitOnP isSeparator = pad width n :: rest.splitOnP isSeparator :=
  List.splitOnP_append_cons_of_forall_mem
    (fun _ hc => isSeparator_of_isDigit (isDigit_of_mem_pad hc)) a ha rest

/-- Date, hour and minute are split into their fields. -/
theorem Stamp.splitOnP_minutesText (stamp : Stamp) (rest : List Char) :
    (stamp.minutesText ++ rest).splitOnP isSeparator =
      stamp.minutesParts ++ rest.splitOnP isSeparator := by
  simp only [minutesText, minutesParts, List.append_assoc, List.cons_append, List.nil_append]
  rw [splitOnP_pad _ _ '-' rfl, splitOnP_pad _ _ '-' rfl, splitOnP_pad _ _ 'T' rfl,
    splitOnP_pad _ _ ':' rfl, splitOnP_pad _ _ ':' rfl]

/-- The parts of a timestamp without a fraction whose seconds are followed by `rest`, read. -/
theorem Stamp.readFields_minutesText (stamp : Stamp) (part : List Char)
    (parts : List (List Char)) :
    readFields (stamp.minutesParts ++ part :: parts) =
      (i64.checked stamp.date.year).bind fun _ => (parseI64 part).map fun sec =>
        { stamp.fields with sec := sec } := by
  obtain ⟨-, hmonth⟩ := stamp.date.month_range
  have hday : stamp.date.day < 100 := by
    have hlast := stamp.date.day_range.2
    have := Calendar.monthLength_le stamp.date.year stamp.date.month
    omega
  simp only [minutesParts, List.cons_append, List.nil_append]
  rw [readFields, parseI64_pad, Int.toNat_of_nonneg stamp.year_nonneg,
    parseI64_pad_of_lt 2 (by omega : stamp.date.month < 100), parseI64_pad_of_lt 2 hday,
    parseI64_pad_of_lt 2 (stamp.hour_lt.trans (by decide)),
    parseI64_pad_of_lt 2 (stamp.min_lt.trans (by decide))]
  unfold checked
  split
  · cases parseI64 part <;> rfl
  · rfl

/-! ## The body -/

/-- A character of a timestamp. -/
def isStampChar (c : Char) : Bool := c.isDigit || isSeparator c || c == '.' || c == 'Z' || c == '+'

/-- What holds of all digits holds of a padded number. -/
theorem all_pad {p : Char → Bool} (hp : ∀ c, c.isDigit = true → p c = true) (width n : Nat) :
    (pad width n).all p = true :=
  List.all_eq_true.2 fun c hc => hp c (isDigit_of_mem_pad hc)

/-- A character of a stamp is no white space. -/
theorem isWhiteSpace_of_isStampChar {c : Char} (h : isStampChar c = true) :
    Text.isWhiteSpace c = false := by
  simp only [isStampChar, isSeparator, Bool.or_eq_true, beq_iff_eq] at h
  rcases h with (((h | (rfl | rfl) | rfl) | rfl) | rfl) | rfl
  · exact Text.isWhiteSpace_of_isDigit h
  all_goals rfl

/-- The body of a timestamp without white space and quotes. -/
theorem timestampBody_eq {s : List Char} (h : s.all isStampChar = true) :
    timestampBody s = (((Text.stripSuffix ['Z'] s).or
      (Text.stripSuffix "+00:00".toList s)).getD s).takeWhile (· ≠ '.') := by
  have hchars := List.all_eq_true.1 h
  have hquote : '\x22' ∉ s := fun hq => absurd (hchars _ hq) (by decide)
  rw [timestampBody, Text.trim_eq_self fun c hc => isWhiteSpace_of_isStampChar (hchars c hc),
    Text.trimMatches_eq_self hquote]

/-- A digit is a character of a stamp. -/
theorem isStampChar_of_isDigit {c : Char} (h : c.isDigit = true) : isStampChar c = true := by
  simp [isStampChar, h]

/-- A digit is no point. -/
theorem ne_dot_of_isDigit {c : Char} (h : c.isDigit = true) : decide (c ≠ '.') = true := by
  rw [decide_eq_true_eq]
  rintro rfl
  cases h

namespace Stamp

variable (stamp : Stamp)

/-- The time of day has the characters that digits and separators are among. -/
theorem all_clock {p : Char → Bool} (hp : ∀ c, c.isDigit = true → p c = true)
    (hsep : ∀ c, isSeparator c = true → p c = true) : stamp.clock.all p = true := by
  simp only [clock, minutesText, List.all_append, List.all_cons, List.all_nil, all_pad hp,
    hsep '-' rfl, hsep 'T' rfl, hsep ':' rfl, Bool.and_true]

/-- A stamp is of characters of stamps, if its zone is. -/
theorem all_render {zone : List Char} (hzone : zone.all isStampChar = true) :
    (stamp.render zone).all isStampChar = true := by
  have hclock : stamp.clock.all isStampChar = true :=
    stamp.all_clock (fun _ => isStampChar_of_isDigit) fun c hc => by simp [isStampChar, hc]
  have hfraction : stamp.fractionText.all isStampChar = true := by
    have hdigits := stamp.fraction_digits
    unfold fractionText
    split
    · next ds hds =>
      rw [List.all_cons, Bool.and_eq_true]
      exact ⟨rfl, List.all_eq_true.2 fun c hc => isStampChar_of_isDigit (hdigits ds hds c hc)⟩
    · rfl
  simp only [render, List.all_append, hclock, hfraction, hzone, Bool.and_true]

/-- What is left before the fraction: the time of day, and the zone where nothing is cut off. -/
theorem takeWhile_render {zone : List Char} (hzone : zone.all (· ≠ '.') = true) :
    (stamp.render zone).takeWhile (· ≠ '.') =
      stamp.clock ++ if stamp.fraction = none then zone else [] := by
  have hclock : ∀ c ∈ stamp.clock, decide (c ≠ '.') = true :=
    List.all_eq_true.1 (stamp.all_clock (fun _ => ne_dot_of_isDigit) fun c hc => by
      rw [decide_eq_true_eq]
      rintro rfl
      cases hc)
  rw [render, List.takeWhile_append_of_pos hclock, fractionText]
  cases stamp.fraction with
  | none =>
    rw [if_pos rfl, List.nil_append, List.takeWhile_eq_self_iff.2 (List.all_eq_true.1 hzone)]
  | some ds => rfl

end Stamp

/-! ## Zones -/

/-- The zones of zero are of characters of stamps. -/
theorem all_utc (zone : Utc) : zone.text.all isStampChar = true := by
  cases zone with
  | zulu => rfl
  | zero => rfl

/-- With a zone of zero, what is read of a stamp is its clock. -/
theorem timestampBody_utc (stamp : Stamp) (zone : Utc) :
    timestampBody (stamp.render zone.text) = stamp.clock := by
  have hbody : stamp.render zone.text = stamp.render [] ++ zone.text := by
    simp only [Stamp.render, List.append_assoc, List.append_nil]
  have hstrip : ((Text.stripSuffix ['Z'] (stamp.render zone.text)).or
      (Text.stripSuffix "+00:00".toList (stamp.render zone.text))) = some (stamp.render []) := by
    rw [hbody]
    cases zone with
    | zulu =>
      have hor : ∀ o, (Text.stripSuffix ['Z'] (stamp.render [] ++ ['Z'])).or o =
          some (stamp.render []) := by
        intro o
        rw [Text.stripSuffix_append]
        rfl
      exact hor _
    | zero =>
      have hz : Text.stripSuffix ['Z'] (stamp.render [] ++ "+00:00".toList) = none := by
        have hlast : "+00:00".toList = "+00:0".toList ++ ['0'] := by decide
        rw [hlast, ← List.append_assoc]
        exact Text.stripSuffix_eq_none _ rfl (by decide)
      exact congrArg₂ Option.or hz (Text.stripSuffix_append _ _)
  rw [timestampBody_eq (stamp.all_render (all_utc zone)), hstrip, Option.getD_some,
    stamp.takeWhile_render rfl]
  split <;> rw [List.append_nil]

namespace Offset

variable (offset : Offset)

/-- What holds of digits, signs and separators holds of an offset. -/
theorem all_text {p : Char → Bool} (hp : ∀ c, c.isDigit = true → p c = true)
    (hplus : p '+' = true) (hsep : ∀ c, isSeparator c = true → p c = true) :
    offset.text.all p = true := by
  have hsign : p offset.sign = true := by
    unfold sign
    split
    · exact hplus
    · exact hsep '-' rfl
  simp only [text, List.all_cons, List.all_append, all_pad hp, hsign, hsep ':' rfl, Bool.and_true]

/-- The offset is not the one that is stripped. -/
theorem text_ne_zero : offset.text ≠ "+00:00".toList := by
  intro h
  have hhours : (pad 2 offset.hours).length = 2 := length_pad (by decide) offset.hours_lt
  have htext : "+00:00".toList = '+' :: (['0', '0'] ++ ':' :: ['0', '0']) := by decide
  rw [htext] at h
  have hrest : pad 2 offset.hours ++ ':' :: pad 2 offset.minutes =
      ['0', '0'] ++ ':' :: ['0', '0'] := (List.cons.inj h).2
  obtain ⟨hh, hm⟩ := List.append_inj hrest hhours
  have hzero := val_pad 2 offset.hours
  have hzero' := val_pad 2 offset.minutes
  rw [hh] at hzero
  rw [(List.cons.inj hm).2] at hzero'
  have hval : val ['0', '0'] = 0 := by decide
  rw [hval] at hzero hzero'
  have hnonzero := offset.nonzero
  omega

/-- An offset has six characters. -/
theorem length_text : offset.text.length = 6 := by
  have hminutes := offset.minutes_lt
  simp only [text, List.length_cons, List.length_append,
    length_pad (by decide : 0 < 2) offset.hours_lt,
    length_pad (by decide : 0 < 2) (by omega : offset.minutes < 10 ^ 2)]

/-- No zone is stripped. -/
theorem timestampBody_render (stamp : Stamp) :
    timestampBody (stamp.render offset.text) =
      stamp.clock ++ if stamp.fraction = none then offset.text else [] := by
  have hchars : offset.text.all isStampChar = true :=
    offset.all_text (fun _ => isStampChar_of_isDigit) rfl fun c hc => by simp [isStampChar, hc]
  have hdots : offset.text.all (· ≠ '.') = true :=
    offset.all_text (fun _ => ne_dot_of_isDigit) rfl fun c hc => by
      rw [decide_eq_true_eq]
      rintro rfl
      cases hc
  have hbody : stamp.render offset.text = stamp.render [] ++ offset.text := by
    simp only [Stamp.render, List.append_assoc, List.append_nil]
  have hzulu : Text.stripSuffix ['Z'] (stamp.render offset.text) = none := by
    have hlast := List.dropLast_append_getLast (pad_ne_nil 2 offset.minutes)
    have hdigit := isDigit_of_mem_pad (List.getLast_mem (pad_ne_nil 2 offset.minutes))
    rw [hbody, text, ← hlast, ← List.cons_append, ← List.append_assoc, ← List.cons_append,
      ← List.append_assoc]
    refine Text.stripSuffix_eq_none _ rfl fun h => ?_
    rw [(List.cons.inj h).1] at hdigit
    cases hdigit
  have hzero : Text.stripSuffix "+00:00".toList (stamp.render offset.text) = none := by
    rw [hbody]
    exact Text.stripSuffix_eq_none _ offset.length_text offset.text_ne_zero
  rw [timestampBody_eq (stamp.all_render hchars), hzulu, hzero]
  exact stamp.takeWhile_render hdots

end Offset

/-! ## Reading the body -/

/-- A padded number has no separator in it. -/
theorem not_isSeparator_pad (width n : Nat) : ∀ c ∈ pad width n, isSeparator c = false :=
  fun _ hc => isSeparator_of_isDigit (isDigit_of_mem_pad hc)

/-- A body that starts with a time of day, up to its end or a separator, is read as its fields. -/
theorem parse_of_body (b : Build) {raw : List Char} {stamp : Stamp} {parts : List (List Char)}
    (h : (timestampBody raw).splitOnP isSeparator =
      stamp.minutesParts ++ pad 2 stamp.sec :: parts) :
    parseGammaIso8601 b raw =
      if i64.Fits stamp.date.year then do return some (← unixSeconds b stamp.fields)
      else .ok none := by
  rw [parseGammaIso8601, h, stamp.readFields_minutesText,
    parseI64_pad_of_lt 2 (stamp.sec_lt.trans (by decide))]
  by_cases hyear : i64.Fits stamp.date.year
  · rw [checked, if_pos hyear, if_pos hyear]
    rfl
  · rw [checked, if_neg hyear, if_neg hyear]
    rfl

/-- A stamp at a zone of zero is read as its seconds, where its year can be read. -/
theorem parse_utc_eq (b : Build) (stamp : Stamp) (zone : Utc) :
    parseGammaIso8601 b (stamp.render zone.text) =
      if i64.Fits stamp.date.year then do return some (← unixSeconds b stamp.fields)
      else .ok none := by
  have hsplit : (timestampBody (stamp.render zone.text)).splitOnP isSeparator =
      stamp.minutesParts ++ [pad 2 stamp.sec] := by
    rw [timestampBody_utc, Stamp.clock, stamp.splitOnP_minutesText,
      List.splitOnP_eq_singleton (not_isSeparator_pad 2 stamp.sec)]
  exact parse_of_body b hsplit

/-- With a positive offset and no fraction the seconds are not a number. -/
theorem parse_ahead (b : Build) (stamp : Stamp) (offset : Offset) (hahead : offset.ahead = true)
    (hfraction : stamp.fraction = none) :
    parseGammaIso8601 b (stamp.render offset.text) = .ok none := by
  have hsec : ∀ c ∈ pad 2 stamp.sec ++ '+' :: pad 2 offset.hours, isSeparator c = false := by
    simp only [List.mem_append, List.mem_cons]
    rintro c (hc | rfl | hc)
    · exact not_isSeparator_pad 2 _ c hc
    · rfl
    · exact not_isSeparator_pad 2 _ c hc
  have hparse : parseI64 (pad 2 stamp.sec ++ '+' :: pad 2 offset.hours) = none := by
    refine Option.eq_none_iff_forall_ne_some.2 fun v hv => ?_
    obtain ⟨c, rest, hpad⟩ := List.exists_cons_of_ne_nil (pad_ne_nil 2 stamp.sec)
    have hc : c.isDigit = true := isDigit_of_mem_pad (hpad ▸ List.mem_cons_self ..)
    rw [hpad, List.cons_append] at hv
    obtain ⟨sign, digits, hsign, hs, hdigits, -⟩ := halfValue_inv (parseI64_some.1 hv).1
    rcases hsign with rfl | rfl | rfl
    · have hplus : '+' ∈ digits := by
        rw [List.nil_append] at hs
        rw [← hs]
        simp
      exact absurd (hdigits _ hplus) (by decide)
    · rw [(List.cons.inj hs).1] at hc
      cases hc
    · rw [(List.cons.inj hs).1] at hc
      cases hc
  have hsplit : (timestampBody (stamp.render offset.text)).splitOnP isSeparator =
      stamp.minutesParts ++ (pad 2 stamp.sec ++ '+' :: pad 2 offset.hours) ::
        (pad 2 offset.minutes).splitOnP isSeparator := by
    rw [offset.timestampBody_render, if_pos hfraction, Stamp.clock, Offset.text, Offset.sign,
      if_pos hahead, List.append_assoc, stamp.splitOnP_minutesText, ← List.cons_append,
      ← List.append_assoc, List.splitOnP_append_cons_of_forall_mem hsec ':' rfl]
  rw [parseGammaIso8601, hsplit, stamp.readFields_minutesText, hparse]
  cases i64.checked stamp.date.year <;> rfl

/-- With another offset it is read like a zone of zero. -/
theorem parse_ignored (b : Build) (stamp : Stamp) (offset : Offset)
    (h : offset.ahead = false ∨ stamp.fraction ≠ none) :
    parseGammaIso8601 b (stamp.render offset.text) =
      if i64.Fits stamp.date.year then do return some (← unixSeconds b stamp.fields)
      else .ok none := by
  rcases Decidable.em (stamp.fraction = none) with hfraction | hfraction
  · have hahead : offset.ahead = false := h.resolve_right (not_not.2 hfraction)
    have hsplit : (timestampBody (stamp.render offset.text)).splitOnP isSeparator =
        stamp.minutesParts ++ pad 2 stamp.sec ::
          (pad 2 offset.hours ++ ':' :: pad 2 offset.minutes).splitOnP isSeparator := by
      rw [offset.timestampBody_render, if_pos hfraction, Stamp.clock, Offset.text, Offset.sign,
        hahead, if_neg Bool.false_ne_true, List.append_assoc, stamp.splitOnP_minutesText,
        splitOnP_pad _ _ '-' rfl]
    exact parse_of_body b hsplit
  · have hsplit : (timestampBody (stamp.render offset.text)).splitOnP isSeparator =
        stamp.minutesParts ++ [pad 2 stamp.sec] := by
      rw [offset.timestampBody_render, if_neg hfraction, List.append_nil, Stamp.clock,
        stamp.splitOnP_minutesText, List.splitOnP_eq_singleton (not_isSeparator_pad 2 stamp.sec)]
    exact parse_of_body b hsplit

/-! ## Seconds -/

/-- In a build that checks for overflow the seconds are exact. -/
theorem unixSeconds_checked {b : Build} (hb : b.overflowChecks = true) {stamp : Stamp} {x : Int}
    (h : unixSeconds b stamp.fields = .ok x) : x = stamp.unix := by
  obtain ⟨hmonth, hmonth'⟩ := stamp.date.month_range
  have hyear := stamp.year_nonneg
  have hjulian := stamp.date.julianDay_eq
  simp only [Calendar.julianDay] at hjulian
  obtain ⟨days, hdays, h⟩ := Except.ok_bind_inv h
  have hnumber : days = stamp.date.number := by
    repeat replace hdays := Build.arith_bind_checked hb hdays
    obtain ⟨-, rfl⟩ := (Build.arith_checked hb).1 hdays
    simp (disch := omega) only [Stamp.fields, Int.tdiv_eq_ediv_of_nonneg]
    rw [hjulian, add_sub_cancel_right]
  repeat replace h := Build.arith_bind_checked hb h
  obtain ⟨-, rfl⟩ := (Build.arith_checked hb).1 h
  simp only [Stamp.unix, Stamp.fields, hnumber]
  ring

/-- Where the seconds fit, the year is far from overflow. -/
theorem Stamp.year_le {stamp : Stamp} (h : i64.Fits stamp.unix) :
    stamp.date.year ≤ 1000000000000 := by
  obtain ⟨hnumber, -⟩ := stamp.date.number_bounds stamp.year_nonneg
  simp only [Fits, Stamp.unix, i64_hi] at h
  omega

/-- In every build the days are exact up to such a year. -/
theorem epochDays_eq (b : Build) {stamp : Stamp} (h : stamp.date.year ≤ 1000000000000) :
    epochDays b stamp.fields = .ok stamp.date.number := by
  obtain ⟨hmonth, hmonth'⟩ := stamp.date.month_range
  obtain ⟨hday, hday'⟩ := stamp.date.day_range
  have hlast := Calendar.monthLength_le stamp.date.year stamp.date.month
  have hyear := stamp.year_nonneg
  unfold epochDays
  simp only [Stamp.fields]
  simp (disch := omega) only [Build.arith_i64_bind, Int.tdiv_eq_ediv_of_nonneg]
  rw [Build.arith_i64 (by omega) (by omega)]
  have hjulian := stamp.date.julianDay_eq
  simp only [Calendar.julianDay] at hjulian
  rw [hjulian, add_sub_cancel_right]

/-- In every build the seconds are exact where they fit. -/
theorem unixSeconds_of_fits (b : Build) {stamp : Stamp} (h : i64.Fits stamp.unix) :
    unixSeconds b stamp.fields = .ok stamp.unix := by
  have hhour := stamp.hour_lt
  have hmin := stamp.min_lt
  have hsec := stamp.sec_lt
  have hunix : stamp.unix = stamp.date.number * 86400 + stamp.hour * 3600 + stamp.min * 60 +
      stamp.sec := by
    unfold Stamp.unix
    ring
  obtain ⟨hnumber, -⟩ := stamp.date.number_bounds stamp.year_nonneg
  have hyear := stamp.year_nonneg
  rw [unixSeconds, epochDays_eq b (Stamp.year_le h), Except.ok_bind, hunix]
  simp only [Fits, hunix, i64_lo, i64_hi] at h
  simp (disch := omega) only [Stamp.fields, Build.arith_i64_bind]
  exact Build.arith_i64 (by omega) (by omega)

/-- The seconds that are computed are in range. -/
theorem unixSeconds_fits {b : Build} {time : CivilTime} {x : Int} (h : unixSeconds b time = .ok x) :
    i64.Fits x := by
  obtain ⟨days, -, h⟩ := Except.ok_bind_inv h
  obtain ⟨secs, -, h⟩ := Except.ok_bind_inv h
  obtain ⟨hours, -, h⟩ := Except.ok_bind_inv h
  obtain ⟨secs', -, h⟩ := Except.ok_bind_inv h
  obtain ⟨mins, -, h⟩ := Except.ok_bind_inv h
  obtain ⟨secs'', -, h⟩ := Except.ok_bind_inv h
  exact Build.arith_fits h

/-- Up to the year 9999 the seconds fit. -/
theorem Stamp.unix_fits {stamp : Stamp} (h : stamp.date.year ≤ 9999) : i64.Fits stamp.unix := by
  obtain ⟨hnumber, hnumber'⟩ := stamp.date.number_bounds stamp.year_nonneg
  have hyear := stamp.year_nonneg
  have hhour := stamp.hour_lt
  have hmin := stamp.min_lt
  have hsec := stamp.sec_lt
  simp only [Fits, Stamp.unix, i64_lo, i64_hi]
  omega

/-! ## End times -/

/-- A timestamp at a zone of zero is read as its Unix seconds, in every build, unless they are not
a number of 64 bits; those of the years that four digits are enough for always are. Consecutive
days are 86400 seconds apart. -/
theorem parse_utc (b : Build) (stamp : Stamp) (zone : Utc) :
    (parseGammaIso8601 b (stamp.render zone.text) = .ok (some stamp.unix) ↔
      i64.Fits stamp.unix) ∧
    (stamp.date.year ≤ 9999 →
      parseGammaIso8601 b (stamp.render zone.text) = .ok (some stamp.unix)) ∧
    stamp.nextDay.unix = stamp.unix + 86400 := by
  have hparse : i64.Fits stamp.unix →
      parseGammaIso8601 b (stamp.render zone.text) = .ok (some stamp.unix) := by
    intro h
    have hle := Stamp.year_le h
    have hyear : i64.Fits stamp.date.year := by
      have hnonneg := stamp.year_nonneg
      rw [Fits, i64_lo, i64_hi]
      omega
    rw [parse_utc_eq, if_pos hyear, unixSeconds_of_fits b h]
    rfl
  refine ⟨⟨fun h => ?_, hparse⟩, fun h => hparse (Stamp.unix_fits h), ?_⟩
  · rw [parse_utc_eq] at h
    split at h
    · obtain ⟨x, hx, h⟩ := Except.ok_bind_inv h
      cases h
      exact unixSeconds_fits hx
    · cases h
  · simp only [Stamp.unix, Stamp.nextDay, stamp.date.number_next]
    ring

/-- Noon on 10 May 2026. -/
def mayNoon : Stamp where
  date := { year := 2026, month := 5, day := 10, month_range := by decide, day_range := by decide }
  hour := 12
  min := 0
  sec := 0
  fraction := none
  year_nonneg := by decide
  hour_lt := by decide
  min_lt := by decide
  sec_lt := by decide
  fraction_digits := nofun

/-- Noon of the tenth of May 2026. -/
theorem parse_utc_noon :
    parseGammaIso8601 ⟨true⟩ (mayNoon.render Utc.zulu.text) = .ok (some 1778414400) := by
  have hunix : mayNoon.unix = 1778414400 := by decide +kernel
  rw [← hunix]
  exact (parse_utc ⟨true⟩ mayNoon .zulu).2.1 (by decide)

/-- A timestamp with another offset is refused, or read as the instant it denotes, in every build
if and only if the offset is positive and there is no fraction, or not even the year is read. -/
theorem offset_iff (stamp : Stamp) (offset : Offset) :
    (∀ b, parseGammaIso8601 b (stamp.render offset.text) = .ok none ∨
      parseGammaIso8601 b (stamp.render offset.text) =
        .ok (some (stamp.unix - offset.seconds))) ↔
    offset.ahead = true ∧ stamp.fraction = none ∨ ¬i64.Fits stamp.date.year := by
  rcases Decidable.em (offset.ahead = true ∧ stamp.fraction = none) with h | h
  · exact ⟨fun _ => .inl h, fun _ b => .inl (parse_ahead b stamp offset h.1 h.2)⟩
  have hignored : offset.ahead = false ∨ stamp.fraction ≠ none := by
    rwa [Decidable.not_and_iff_or_not, Bool.not_eq_true] at h
  refine ⟨?_, ?_⟩
  · intro hread
    refine .inr fun hyear => ?_
    have hchecked := hread ⟨true⟩
    rw [parse_ignored _ stamp offset hignored, if_pos hyear] at hchecked
    rcases hchecked with hnone | hsome
    · obtain ⟨x, -, hx⟩ := Except.ok_bind_inv hnone
      cases hx
    · obtain ⟨x, hx, hsome⟩ := Except.ok_bind_inv hsome
      cases hsome
      have hexact := unixSeconds_checked rfl hx
      have hzero := offset.seconds_ne_zero
      omega
  · rintro (hahead | hyear) b
    · exact absurd hahead h
    · rw [parse_ignored _ stamp offset hignored, if_neg hyear]
      exact .inl rfl

/-- Five hours behind. -/
def fiveBehind : Offset where
  ahead := false
  hours := 5
  minutes := 0
  hours_lt := by decide
  minutes_lt := by decide
  nonzero := by decide

/-- Noon five hours behind UTC is read as noon at UTC. -/
theorem offset_ignored :
    ¬ ∀ (b : Build) (stamp : Stamp) (offset : Offset),
      parseGammaIso8601 b (stamp.render offset.text) = .ok none ∨
        parseGammaIso8601 b (stamp.render offset.text) =
          .ok (some (stamp.unix - offset.seconds)) := by
  intro h
  have hread : parseGammaIso8601 ⟨false⟩ (mayNoon.render fiveBehind.text) =
      .ok (some 1778414400) := by
    decide +kernel
  have hunix : mayNoon.unix - fiveBehind.seconds = 1778432400 := by decide +kernel
  have hnoon := h ⟨false⟩ mayNoon fiveBehind
  rw [hread, hunix] at hnoon
  rcases hnoon with hnoon | hnoon
  · cases hnoon
  · cases hnoon

end Gamma

end Polyrust
