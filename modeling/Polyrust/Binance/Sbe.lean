import Mathlib.Tactic.Ring
import Polyrust.Binance

/-!
# Binary frames

The binary best-bid-and-offer frame as it is documented: a header of eight bytes, eight fields in
little-endian two's complement, and what follows them. Parsing a frame gives back the fields it was
laid out from, the prices and sizes as floating-point numbers (`sbe_decodes`).
-/

namespace Polyrust

open IntWidth F64

namespace Binance

/-! ## Little-endian numbers -/

/-- The lowest `len` bytes of a number, the lowest one first. -/
def natToLe : Nat → Nat → List UInt8
  | 0, _ => []
  | len + 1, n => UInt8.ofNat (n % 256) :: natToLe len (n / 256)

/-- The bytes of a signed number in two's complement. -/
def intToLe (len : Nat) (x : Int) : List UInt8 := natToLe len (x % 2 ^ (8 * len)).toNat

/-- A number takes the bytes it is given. -/
@[simp] theorem length_natToLe (len n : Nat) : (natToLe len n).length = len := by
  induction len generalizing n with
  | zero => rfl
  | succ len ih => rw [natToLe, List.length_cons, ih]

/-- An integer takes the bytes it is given. -/
@[simp] theorem length_intToLe (len : Nat) (x : Int) : (intToLe len x).length = len :=
  length_natToLe len _

/-- A number is read back from its bytes, as far as they go. -/
theorem natFromLe_natToLe (len n : Nat) : natFromLe (natToLe len n) = n % 256 ^ len := by
  induction len generalizing n with
  | zero => rw [natToLe, natFromLe, pow_zero, Nat.mod_one]
  | succ len ih =>
    have hbyte : (UInt8.ofNat (n % 256)).toNat = n % 256 :=
      Nat.mod_eq_of_lt (Nat.mod_lt n (by decide))
    rw [natToLe, natFromLe, ih, hbyte, pow_succ', Nat.mod_mul]

/-- A signed number that its bytes have room for is read back from them. -/
theorem intFromLe_intToLe {len : Nat} (hlen : 0 < len) {x : Int}
    (hlo : -2 ^ (8 * len - 1) ≤ x) (hhi : x < 2 ^ (8 * len - 1)) :
    intFromLe (intToLe len x) = x := by
  have hpow : (2 : Int) ^ (8 * len) = 2 * 2 ^ (8 * len - 1) := by
    rw [← pow_succ']
    congr 1
    omega
  have hbytes : (256 : Nat) ^ len = 2 ^ (8 * len) := by
    rw [pow_mul]
    norm_num
  have hpos : (0 : Int) < 2 ^ (8 * len) := by positivity
  have hnonneg := Int.emod_nonneg x hpos.ne'
  have hlt := Int.emod_lt_of_pos x hpos
  have hnat : natFromLe (intToLe len x) = (x % 2 ^ (8 * len)).toNat := by
    rw [intToLe, natFromLe_natToLe, hbytes]
    refine Nat.mod_eq_of_lt ?_
    zify
    rwa [Int.toNat_of_nonneg hnonneg]
  have hcast : ((x % 2 ^ (8 * len)).toNat : Int) = x % 2 ^ (8 * len) := Int.toNat_of_nonneg hnonneg
  rw [intFromLe, hnat, length_intToLe]
  rcases lt_or_ge x 0 with hneg | hx
  · -- a negative number is in the upper half
    have hmod : x % 2 ^ (8 * len) = x + 2 ^ (8 * len) := by
      rw [← Int.add_emod_right, Int.emod_eq_of_lt (by omega) (by omega)]
    rw [if_neg, hcast, hmod]
    · omega
    · zify
      rw [hcast, hmod]
      omega
  · have hmod : x % 2 ^ (8 * len) = x := Int.emod_eq_of_lt hx (by omega)
    rw [if_pos, hcast, hmod]
    zify
    rwa [hcast, hmod]

/-! ## Slices -/

/-- A chunk is sliced at the sum of the lengths before it. -/
theorem slice_flatten (chunks : List (List UInt8)) (i : Nat) (h : i < chunks.length) :
    slice chunks.flatten (chunks.take i).flatten.length chunks[i].length = .ok chunks[i] := by
  have hsplit : chunks.flatten =
      (chunks.take i).flatten ++ (chunks[i] ++ (chunks.drop (i + 1)).flatten) := by
    rw [← List.flatten_cons, ← List.drop_eq_getElem_cons h, ← List.flatten_append,
      List.take_append_drop]
  rw [slice, if_pos, hsplit, List.drop_left, List.take_left]
  rw [hsplit, List.length_append, List.length_append]
  omega

/-- A slice within the frame succeeds. -/
theorem slice_ok {raw : List UInt8} {start len : Nat} (h : start + len ≤ raw.length) :
    slice raw start len = .ok ((raw.drop start).take len) := if_pos h

/-- An integer within the frame is read. -/
theorem readInt_ok {raw : List UInt8} {start len : Nat} (h : start + len ≤ raw.length) :
    ∃ n, readInt raw start len = .ok n :=
  ⟨_, by rw [readInt, slice_ok h]; rfl⟩

/-! ## Frames -/

/-- What a binary frame is laid out from: an event with positive mantissas in the ranges of its
fields, the rest of the header, and what follows the root. -/
structure SbeFrame where
  eventTime : Int
  updateId : Int
  priceExp : Int
  qtyExp : Int
  bidMantissa : Int
  bidQtyMantissa : Int
  askMantissa : Int
  askQtyMantissa : Int
  /-- schema id and version -/
  schema : List UInt8
  /-- the symbol -/
  trailing : List UInt8
  eventTime_range : 0 < eventTime ∧ eventTime ≤ i64.hi
  updateId_range : 0 < updateId ∧ updateId ≤ i64.hi
  priceExp_range : -128 ≤ priceExp ∧ priceExp ≤ 127
  qtyExp_range : -128 ≤ qtyExp ∧ qtyExp ≤ 127
  bid_range : 0 < bidMantissa ∧ bidMantissa ≤ askMantissa
  ask_range : askMantissa ≤ i64.hi
  bidQty_range : 0 < bidQtyMantissa ∧ bidQtyMantissa ≤ i64.hi
  askQty_range : 0 < askQtyMantissa ∧ askQtyMantissa ≤ i64.hi
  schema_length : schema.length = 4
  trailing_length : 1 ≤ trailing.length

namespace SbeFrame

/-- The parts of the frame: block length 50 and template 10001, the rest of the header, the fields
of the root in their order, and the trailing bytes. -/
def parts (frame : SbeFrame) : List (List UInt8) :=
  [[0x32, 0x00], [0x11, 0x27], frame.schema, intToLe 8 frame.eventTime, intToLe 8 frame.updateId,
    intToLe 1 frame.priceExp, intToLe 1 frame.qtyExp, intToLe 8 frame.bidMantissa,
    intToLe 8 frame.bidQtyMantissa, intToLe 8 frame.askMantissa, intToLe 8 frame.askQtyMantissa,
    frame.trailing]

/-- The bytes of a frame. -/
def bytes (frame : SbeFrame) : List UInt8 := frame.parts.flatten

variable (frame : SbeFrame)

/-- The lengths of the fields. -/
theorem map_length_parts : frame.parts.map List.length =
    [2, 2, 4, 8, 8, 1, 1, 8, 8, 8, 8, frame.trailing.length] := by
  simp [parts, frame.schema_length]

/-- The part at an offset. -/
theorem slice_bytes (i : Nat) {start : Nat} {part : List UInt8}
    (hpart : frame.parts[i]? = some part)
    (hstart : ([2, 2, 4, 8, 8, 1, 1, 8, 8, 8, 8, frame.trailing.length].take i).sum = start) :
    slice frame.bytes start part.length = .ok part := by
  obtain ⟨hi, rfl⟩ := List.getElem?_eq_some_iff.1 hpart
  rw [← hstart, ← frame.map_length_parts, ← List.map_take, ← List.length_flatten]
  exact slice_flatten frame.parts i hi

/-- The number at an offset. -/
theorem readInt_bytes (i : Nat) {start len : Nat} {x : Int}
    (hpart : frame.parts[i]? = some (intToLe len x))
    (hstart : ([2, 2, 4, 8, 8, 1, 1, 8, 8, 8, 8, frame.trailing.length].take i).sum = start)
    (hlen : 0 < len) (hlo : -2 ^ (8 * len - 1) ≤ x) (hhi : x < 2 ^ (8 * len - 1)) :
    readInt frame.bytes start len = .ok x := by
  have hslice := frame.slice_bytes i hpart hstart
  rw [length_intToLe] at hslice
  rw [readInt, hslice]
  exact congrArg _ (intFromLe_intToLe hlen hlo hhi)

/-- A positive number of 64 bits at an offset. -/
theorem readI64_bytes (i : Nat) {start : Nat} {x : Int}
    (hpart : frame.parts[i]? = some (intToLe 8 x))
    (hstart : ([2, 2, 4, 8, 8, 1, 1, 8, 8, 8, 8, frame.trailing.length].take i).sum = start)
    (hx : 0 < x ∧ x ≤ i64.hi) : readInt frame.bytes start 8 = .ok x := by
  rw [i64_hi] at hx
  exact frame.readInt_bytes i hpart hstart (by decide) (by omega) (by omega)

/-- An exponent at an offset. -/
theorem readI8_bytes (i : Nat) {start : Nat} {x : Int}
    (hpart : frame.parts[i]? = some (intToLe 1 x))
    (hstart : ([2, 2, 4, 8, 8, 1, 1, 8, 8, 8, 8, frame.trailing.length].take i).sum = start)
    (hx : -128 ≤ x ∧ x ≤ 127) : readInt frame.bytes start 1 = .ok x :=
  frame.readInt_bytes i hpart hstart (by decide) (by omega) (by omega)

/-- A frame has 58 bytes and what trails. -/
theorem length_bytes : frame.bytes.length = 58 + frame.trailing.length := by
  simp [bytes, parts, frame.schema_length]
  omega

end SbeFrame

section
variable {F : Type} [F64 F] {lib : FloatLib F}

/-- Within a number of 64 bits and an exponent of 8 bits, `mantissa_to_f64` keeps the sign and the
order. -/
structure MantissaMonotone (lib : FloatLib F) : Prop where
  pos : ∀ m e : Int, 0 < m → m ≤ i64.hi → -128 ≤ e → e ≤ 127 →
    le (mantissaToF64 lib m e) 0.0 = false
  mono : ∀ m m' e : Int, 0 < m → m ≤ m' → m' ≤ i64.hi → -128 ≤ e → e ≤ 127 →
    lt (mantissaToF64 lib m' e) (mantissaToF64 lib m e) = false

/-- The ticker of a frame. -/
def SbeFrame.ticker (lib : FloatLib F) (frame : SbeFrame) : BinanceBookTicker F :=
  { eventTime := ⟨frame.eventTime⟩, updateId := frame.updateId
    bid := mantissaToF64 lib frame.bidMantissa frame.priceExp
    ask := mantissaToF64 lib frame.askMantissa frame.priceExp
    bidQty := mantissaToF64 lib frame.bidQtyMantissa frame.qtyExp
    askQty := mantissaToF64 lib frame.askQtyMantissa frame.qtyExp }

/-- The parser accepts the prices and sizes of a frame. -/
theorem SbeFrame.book_valid (hlib : MantissaMonotone lib) (frame : SbeFrame) :
    (le (mantissaToF64 lib frame.bidMantissa frame.priceExp) 0.0 ||
      le (mantissaToF64 lib frame.askMantissa frame.priceExp) 0.0 ||
      le (mantissaToF64 lib frame.bidQtyMantissa frame.qtyExp) 0.0 ||
      le (mantissaToF64 lib frame.askQtyMantissa frame.qtyExp) 0.0 ||
      lt (mantissaToF64 lib frame.askMantissa frame.priceExp)
        (mantissaToF64 lib frame.bidMantissa frame.priceExp)) = false := by
  obtain ⟨hp, hp'⟩ := frame.priceExp_range
  obtain ⟨hq, hq'⟩ := frame.qtyExp_range
  obtain ⟨hbid, hle⟩ := frame.bid_range
  have hask := frame.ask_range
  rw [hlib.pos _ _ hbid (hle.trans hask) hp hp', hlib.pos _ _ (hbid.trans_le hle) hask hp hp',
    hlib.pos _ _ frame.bidQty_range.1 frame.bidQty_range.2 hq hq',
    hlib.pos _ _ frame.askQty_range.1 frame.askQty_range.2 hq hq',
    hlib.mono _ _ _ hbid hle hask hp hp']
  rfl

/-- A frame is parsed as its ticker. -/
theorem parseSbeBestBidAsk_bytes (hlib : MantissaMonotone lib) (frame : SbeFrame) :
    parseSbeBestBidAsk lib frame.bytes = .ok (.ok (some (frame.ticker lib))) := by
  have htime := frame.eventTime_range
  have hid := frame.updateId_range
  obtain ⟨hbid, hle⟩ := frame.bid_range
  have hask := frame.ask_range
  have hlength : ¬frame.bytes.length < 59 := by
    have htrailing := frame.trailing_length
    rw [frame.length_bytes]
    omega
  -- the parts at the offsets that the parser reads
  have hblock : slice frame.bytes 0 2 = .ok [0x32, 0x00] := frame.slice_bytes 0 rfl rfl
  have htemplate : slice frame.bytes 2 2 = .ok [0x11, 0x27] := frame.slice_bytes 1 rfl rfl
  have heventTime : readInt frame.bytes 8 8 = .ok frame.eventTime :=
    frame.readI64_bytes 3 rfl rfl htime
  have hupdateId : readInt frame.bytes (8 + 8) 8 = .ok frame.updateId :=
    frame.readI64_bytes 4 rfl rfl hid
  have hpriceExp : readInt frame.bytes (8 + 16) 1 = .ok frame.priceExp :=
    frame.readI8_bytes 5 rfl rfl frame.priceExp_range
  have hqtyExp : readInt frame.bytes (8 + 17) 1 = .ok frame.qtyExp :=
    frame.readI8_bytes 6 rfl rfl frame.qtyExp_range
  have hbidMantissa : readInt frame.bytes (8 + 18) 8 = .ok frame.bidMantissa :=
    frame.readI64_bytes 7 rfl rfl ⟨hbid, hle.trans hask⟩
  have hbidQty : readInt frame.bytes (8 + 26) 8 = .ok frame.bidQtyMantissa :=
    frame.readI64_bytes 8 rfl rfl frame.bidQty_range
  have haskMantissa : readInt frame.bytes (8 + 34) 8 = .ok frame.askMantissa :=
    frame.readI64_bytes 9 rfl rfl ⟨hbid.trans_le hle, hask⟩
  have haskQty : readInt frame.bytes (8 + 42) 8 = .ok frame.askQtyMantissa :=
    frame.readI64_bytes 10 rfl rfl frame.askQty_range
  have hpositive : ¬(frame.eventTime ≤ 0 ∨ frame.updateId ≤ 0) :=
    not_or.2 ⟨not_le.2 htime.1, not_le.2 hid.1⟩
  rw [parseSbeBestBidAsk, if_neg hlength, hblock, Except.ok_bind]
  dsimp only
  rw [if_neg (by decide), htemplate, Except.ok_bind, if_neg (by decide), heventTime,
    Except.ok_bind, hupdateId, Except.ok_bind, hpriceExp, Except.ok_bind, hqtyExp, Except.ok_bind,
    hbidMantissa, Except.ok_bind, hbidQty, Except.ok_bind, haskMantissa, Except.ok_bind, haskQty,
    Except.ok_bind, if_neg hpositive, frame.book_valid hlib]
  rfl

/-- Whatever the bytes are, no access of the parser is out of bounds. -/
theorem parseSbeBestBidAsk_total (lib : FloatLib F) (raw : List UInt8) :
    ∃ r, parseSbeBestBidAsk lib raw = .ok r := by
  rw [parseSbeBestBidAsk]
  split
  · exact ⟨_, rfl⟩
  · next hlength =>
    obtain ⟨eventTime, heventTime⟩ := readInt_ok (show 8 + 8 ≤ raw.length by omega)
    obtain ⟨updateId, hupdateId⟩ := readInt_ok (show 8 + 8 + 8 ≤ raw.length by omega)
    obtain ⟨priceExp, hpriceExp⟩ := readInt_ok (show 8 + 16 + 1 ≤ raw.length by omega)
    obtain ⟨qtyExp, hqtyExp⟩ := readInt_ok (show 8 + 17 + 1 ≤ raw.length by omega)
    obtain ⟨bid, hbid⟩ := readInt_ok (show 8 + 18 + 8 ≤ raw.length by omega)
    obtain ⟨bidQty, hbidQty⟩ := readInt_ok (show 8 + 26 + 8 ≤ raw.length by omega)
    obtain ⟨ask, hask⟩ := readInt_ok (show 8 + 34 + 8 ≤ raw.length by omega)
    obtain ⟨askQty, haskQty⟩ := readInt_ok (show 8 + 42 + 8 ≤ raw.length by omega)
    rw [slice_ok (show 0 + 2 ≤ raw.length by omega), Except.ok_bind]
    dsimp only
    split
    · exact ⟨_, rfl⟩
    · rw [slice_ok (show 2 + 2 ≤ raw.length by omega), Except.ok_bind]
      split
      · exact ⟨_, rfl⟩
      · rw [heventTime, Except.ok_bind, hupdateId, Except.ok_bind, hpriceExp, Except.ok_bind,
          hqtyExp, Except.ok_bind, hbid, Except.ok_bind, hbidQty, Except.ok_bind, hask,
          Except.ok_bind, haskQty, Except.ok_bind]
        split
        · exact ⟨_, rfl⟩
        · split
          · exact ⟨_, rfl⟩
          · exact ⟨_, rfl⟩

/-- A frame is parsed to the fields it was laid out from, and no bytes make the parser of binary
frames read outside of them. -/
theorem sbe_decodes (hlib : MantissaMonotone lib) (pl : Platform) :
    (∀ frame : SbeFrame,
      parseBookTicker lib pl frame.bytes = .ok (.ok (some (frame.ticker lib)))) ∧
    ∀ raw, (∃ r, parseSbeBestBidAsk lib raw = .ok r) ∧ ∃ r, parseBookTicker lib pl raw = .ok r := by
  refine ⟨fun frame => ?_, fun raw => ⟨parseSbeBestBidAsk_total lib raw, ?_⟩⟩
  · have hsbe : isSbe frame.bytes = true := rfl
    rw [parseBookTicker, if_pos hsbe, parseSbeBestBidAsk_bytes hlib]
  · rw [parseBookTicker]
    split
    · exact parseSbeBestBidAsk_total lib raw
    · exact ⟨_, rfl⟩

end

/-- The library of rational numbers that reads no text. -/
def powLib : FloatLib Rat where
  parse _ := none
  powi x n := x ^ n

/-- Powers of ten over the rational numbers grow with the mantissa. -/
theorem mantissaMonotone_powLib : MantissaMonotone powLib where
  pos m e hm _ _ _ := by
    have hpow : (0 : Rat) < 10.0 ^ e := zpow_pos (by norm_num) e
    have hm' : (0 : Rat) < m := by exact_mod_cast hm
    have hzero : (0.0 : Rat) = 0 := by norm_num
    have hprod : (0.0 : Rat) < m * 10.0 ^ e := by
      rw [hzero]
      exact mul_pos hm' hpow
    exact decide_eq_false (not_le.2 hprod)
  mono m m' e _ hle _ _ _ := by
    have hpow : (0 : Rat) ≤ 10.0 ^ e := zpow_nonneg (by norm_num) e
    have hle' : (m : Rat) ≤ m' := by exact_mod_cast hle
    exact decide_eq_false (not_lt.2 (mul_le_mul_of_nonneg_right hle' hpow))

/-- A frame of the exchange: schema 1, version 0, and its symbol. -/
def btcFrame : SbeFrame where
  eventTime := 1777000000123456
  updateId := 400900217
  priceExp := -8
  qtyExp := -8
  bidMantissa := 50012300000
  bidQtyMantissa := 3121000000
  askMantissa := 50036520000
  askQtyMantissa := 4066000000
  schema := [1, 0, 0, 0]
  trailing := 7 :: "BTCUSDT".toUTF8.toList
  eventTime_range := by decide
  updateId_range := by decide
  priceExp_range := by decide
  qtyExp_range := by decide
  bid_range := by decide
  ask_range := by decide
  bidQty_range := by decide
  askQty_range := by decide
  schema_length := rfl
  trailing_length := by decide

/-- That frame is parsed to a bid of 500.123 and an ask of 500.3652, and the first 58 bytes of it
are parsed. -/
theorem sbe_decodes_btc :
    parseBookTicker powLib (.reading []) btcFrame.bytes = .ok (.ok (some
      { eventTime := ⟨1777000000123456⟩, updateId := 400900217, bid := 500.123, ask := 500.3652
        bidQty := 31.21, askQty := 40.66 })) ∧
    ∃ r, parseSbeBestBidAsk powLib (btcFrame.bytes.take 58) = .ok r := by
  obtain ⟨hframe, htotal⟩ := sbe_decodes mantissaMonotone_powLib (.reading [])
  have hticker : btcFrame.ticker powLib =
      { eventTime := ⟨1777000000123456⟩, updateId := 400900217, bid := 500.123, ask := 500.3652
        bidQty := 31.21, askQty := 40.66 } := by
    simp only [SbeFrame.ticker, btcFrame, BinanceBookTicker.mk.injEq, true_and]
    decide +kernel
  rw [← hticker]
  exact ⟨hframe btcFrame, (htotal _).1⟩

end Binance

end Polyrust
