import Polyrust.Auth.Agreement
import Polyrust.Lib.Digits
import Polyrust.Lib.Hex

/-!
# What the venue reads

The other end of an order: the venue reads the fields of the body back, and recovers from the
signature who signed them. What it reads is the order that was hashed, field by field
(`readOrder_orderBody`), so that a body of the program is an order of its signer that the venue can
verify (`signs_for_venue`).
-/

namespace Polyrust

open Bytes Ecdsa

namespace Signing

/-- The chain of the exchange. -/
def POLYGON_CHAIN_ID : BitVec 64 := 137

/-- The exchange contract of the normal markets. -/
def EXCHANGE_V2_NORMAL : H160 :=
  ⟨natToBe 20 0xe11118000d2663c0091e4f400237545b87b996b, length_natToBe 20 _⟩

section
variable {Key Point : Type} (lib : SigningLib Key Point)

/-! ## Reading -/

/-- Bytes of a known length, in hexadecimal after `0x`. -/
def readBytes (len : Nat) (value : Json.Value) : Option (Bytes len) := do
  let text ← value.asStr
  let digits ← Text.stripPrefix "0x".toList text.toList
  let bytes ← lib.hexDecode (String.ofList digits)
  if h : bytes.length = len then some ⟨bytes, h⟩ else none

/-- A 256-bit number, in decimal. -/
def readU256 (value : Json.Value) : Option (BitVec 256) := do lib.fromDecStr (← value.asStr)

/-- A number that is written as one and fits the width. -/
def readUint (width : Nat) : Json.Value → Option (BitVec width)
  | .number (.posInt n) => if n < 2 ^ width then some (.ofNat width n) else none
  | _ => none

/-- The side of an order in a body. -/
def readSide (value : Json.Value) : Option OrderSide := do
  match ← value.asStr with
  | "BUY" => some .buy
  | "SELL" => some .sell
  | _ => none

/-- The signature type of an order in a body. -/
def readKind (value : Json.Value) : Option SignatureKind := do
  match ← readUint 8 value with
  | 0 => some .eoa
  | 1 => some .polyProxy
  | 2 => some .polyGnosisSafe
  | _ => none

/-- What is read under a key. -/
def readField {α : Type} (order : Json.Value) (key : String) (read : Json.Value → Option α) :
    Option α := (order.get key).bind read

/-- The fields of an order, with the 65 bytes of its signature. -/
def readFields (order : Json.Value) : Option (OrderV2 × Bytes 65) := do
  let salt ← readField order "salt" (readUint 64)
  let maker ← readField order "maker" (readBytes lib 20)
  let signer ← readField order "signer" (readBytes lib 20)
  let tokenId ← readField order "tokenId" (readU256 lib)
  let makerAmount ← readField order "makerAmount" (readU256 lib)
  let takerAmount ← readField order "takerAmount" (readU256 lib)
  let side ← readField order "side" readSide
  let signatureKind ← readField order "signatureType" readKind
  let timestamp ← readField order "timestamp" (readU256 lib)
  let metadata ← readField order "metadata" (readBytes lib 32)
  let builder ← readField order "builder" (readBytes lib 32)
  let signature ← readField order "signature" (readBytes lib 65)
  return ({ salt, maker, signer, tokenId, makerAmount, takerAmount, side, signatureKind
            timestampMs := timestamp.setWidth 128, metadata, builder }, signature)

/-- The order that a body is for. -/
def readOrder (body : Json.Value) : Option (OrderV2 × Bytes 65) :=
  (body.get "order").bind (readFields lib)

/-- The venue's reader of JSON. -/
abbrev JsonReader := List UInt8 → Option Json.Value

/-- What the program relies on in `hex`, in `primitive-types` and in `serde_json`: bytes and numbers
that are written are read back, and so are the bodies of orders, by the reader of the venue. -/
structure Readable (fromSlice : JsonReader) : Prop where
  hexDecode_hexEncode : ∀ bytes, lib.hexDecode (lib.hexEncode bytes) = some bytes
  fromDecStr_repr : ∀ v : BitVec 256, lib.fromDecStr v.toNat.repr = some v
  fromSlice_toVec : ∀ {order signature apiKey bytes},
    lib.toVec (orderBody lib order signature apiKey) = .ok bytes →
      fromSlice bytes = some (orderBody lib order signature apiKey)

/-! ## What is written is read -/

section
variable {lib} {fromSlice : JsonReader}

/-- Bytes that are written in hex are read back. -/
theorem readBytes_hex0x (hread : Readable lib fromSlice) {len : Nat} (bytes : Bytes len) :
    readBytes lib len (.string (hex0x lib bytes.toList)) = some bytes := by
  have hstrip : Text.stripPrefix "0x".toList (hex0x lib bytes.toList).toList =
      some (lib.hexEncode bytes.toList).toList := by
    rw [hex0x, String.toList_append, Text.stripPrefix, if_pos (List.prefix_append ..),
      List.drop_left]
  simp only [readBytes, Json.Value.asStr, Option.bind_eq_bind, Option.bind_some, hstrip,
    String.ofList_toList, hread.hexDecode_hexEncode, dif_pos bytes.length_eq]

/-- A number that is written in decimal is read back. -/
theorem readU256_repr (hread : Readable lib fromSlice) (v : BitVec 256) :
    readU256 lib (.string v.toNat.repr) = some v := by
  simp [readU256, Json.Value.asStr, hread.fromDecStr_repr]

/-- A number that is written as one is read back. -/
theorem readUint_toNat {width : Nat} (v : BitVec width) :
    readUint width (.number (.posInt v.toNat)) = some v := by
  simp [readUint, v.isLt]

/-- A side is read back from its name. -/
theorem readSide_asStr (side : OrderSide) : readSide (.string side.asStr) = some side := by
  cases side <;> rfl

/-- A signature type is read back from its number. -/
theorem readKind_asU8 (kind : SignatureKind) :
    readKind (.number (.posInt kind.asU8.toNat)) = some kind := by
  cases kind <;> rfl

/-- A timestamp is written with its 128 bits, and read as a number of 256. -/
theorem readU256_timestamp (hread : Readable lib fromSlice) (v : BitVec 128) :
    (readU256 lib (.string v.toNat.repr)).map (·.setWidth 128) = some v := by
  have hwide : (v.setWidth 256).toNat = v.toNat := by simp [BitVec.toNat_setWidth]; omega
  have hread' := readU256_repr hread (v.setWidth 256)
  rw [hwide] at hread'
  rw [hread', Option.map_some]
  simp

/-- An encoded signature has 65 bytes. -/
theorem length_encodeSignature (sig : EcdsaSignature) (rid : RecoveryId) :
    (encodeSignature sig rid).length = 65 := by
  simp [encodeSignature]

/-- What is rendered for an order and its signature is read back, all fields of it. -/
theorem readOrder_orderBody (hread : Readable lib fromSlice) (order : OrderV2)
    (signature : Bytes 65) (apiKey : String) :
    readOrder lib (orderBody lib order signature.toList apiKey) = some (order, signature) := by
  obtain ⟨timestamp, htimestamp, hwidth⟩ :=
    Option.map_eq_some_iff.1 (readU256_timestamp hread order.timestampMs)
  rw [readOrder, orderBody, Json.Value.get, List.find?_cons_of_pos rfl, Option.map_some,
    Option.bind_some]
  simp only [readFields, readField, Json.Value.get, List.find?_cons, String.reduceBEq,
    Option.map_some, Option.bind_eq_bind, Option.bind_some, readUint_toNat, readBytes_hex0x hread,
    readU256_repr hread, readSide_asStr, readKind_asU8, htimestamp, hwidth, Option.pure_def]

end

end

end Signing

/-! ## Amounts -/

section
variable {order : FakOrder}

/-- The amounts of an order that is signed have less than 128 bits. -/
theorem signFakBuy_fits {target : BuyCanonicalTarget} (h : signFakBuy target = .ok order) :
    order.makerAmount < 2 ^ 127 ∧ order.takerAmount < 2 ^ 127 := by
  obtain ⟨maker, hm, h⟩ := Except.ok_bind_inv h
  obtain ⟨taker, ht, h⟩ := Except.ok_bind_inv h
  cases h
  have hmaker := (IntWidth.checked_eq_some.1 (bodyAtoms_ok hm).1)
  have htaker := (IntWidth.checked_eq_some.1 (bodyAtoms_ok ht).1)
  simp only [IntWidth.Fits, IntWidth.i128] at hmaker htaker
  dsimp only
  omega

/-- The amounts of a signed SELL, from its plan. -/
theorem signFakSell_ok {price : PriceTick} {size : Shares2}
    (h : signFakSell price size = .ok order) :
    order.side = .sell ∧ (order.makerAmount : Int) = size.units * 10000 ∧
      (order.takerAmount : Int) = price.ticks * size.units * 100 := by
  obtain ⟨maker, hm, h⟩ := Except.ok_bind_inv h
  obtain ⟨taker, ht, h⟩ := Except.ok_bind_inv h
  cases h
  obtain ⟨product, hproduct, ht⟩ := Option.bind_eq_some_iff.1 (bodyAtoms_ok ht).1
  obtain rfl := (IntWidth.checked_eq_some.1 hproduct).1
  exact ⟨rfl, (IntWidth.checked_eq_some.1 (bodyAtoms_ok hm).1).1.symm,
    (IntWidth.checked_eq_some.1 ht).1.symm⟩

/-- The amounts of a SELL are below 2^127. -/
theorem signFakSell_fits {price : PriceTick} {size : Shares2}
    (h : signFakSell price size = .ok order) :
    order.makerAmount < 2 ^ 127 ∧ order.takerAmount < 2 ^ 127 := by
  obtain ⟨maker, hm, h⟩ := Except.ok_bind_inv h
  obtain ⟨taker, ht, h⟩ := Except.ok_bind_inv h
  cases h
  obtain ⟨product, -, ht⟩ := Option.bind_eq_some_iff.1 (bodyAtoms_ok ht).1
  have hmaker := (IntWidth.checked_eq_some.1 (bodyAtoms_ok hm).1)
  have htaker := (IntWidth.checked_eq_some.1 ht)
  simp only [IntWidth.Fits, IntWidth.i128] at hmaker htaker
  dsimp only
  omega

/-- Such an amount is kept in a word. -/
theorem toNat_ofNat_fits {n : Nat} (h : n < 2 ^ 127) : (BitVec.ofNat 256 n).toNat = n := by
  rw [BitVec.toNat_ofNat]
  exact Nat.mod_eq_of_lt (h.trans (by decide))

end

/-! ## What the program signs -/

namespace OrderSigner

open Signing Auth

section
variable {Key Point : Type} (lib : SigningLib Key Point)

/-- The digest of an order of a signer. -/
def digest (signer : OrderSigner Key) (order : OrderV2) : H256 :=
  typedDataDigest lib signer.domainSeparator (structHash lib order)

/-- The order of a signer: its own addresses, and neither metadata nor builder. -/
structure Owns (signer : OrderSigner Key) (inputs : SignInputs) (order : OrderV2) : Prop where
  salt : order.salt = inputs.salt
  timestampMs : order.timestampMs = inputs.timestampMs
  maker : order.maker = signer.maker
  address : order.signer = signer.address
  signatureKind : order.signatureKind = signer.signatureKind
  metadata : order.metadata.toList = List.replicate 32 0
  builder : order.builder.toList = List.replicate 32 0

/-- The address of a signer is the one of its key. -/
def HasAddress (lib : SigningLib Key Point) (signer : OrderSigner Key) : Prop :=
  deriveAddress lib (lib.verifyingKey signer.signingKey) = signer.address

variable {lib} in
/-- A signer that could be built has the address of its key, signs in the domain of the contract,
and takes the money from its funder, if it has one. -/
theorem new_ok {signer : OrderSigner Key} {privateKeyHex apiKey : String} {funder : Option H160}
    {kind : SignatureKind} {chainId : BitVec 64} {contract : H160}
    (h : OrderSigner.new lib privateKeyHex apiKey funder kind chainId contract = .ok signer) :
    signer.HasAddress lib ∧ signer.maker = funder.getD signer.address ∧
      signer.domainSeparator =
        computeDomainSeparator lib domainName domainVersionV2 chainId contract := by
  simp only [OrderSigner.new] at h
  generalize ((Text.stripPrefix "0x".toList privateKeyHex.toList).map String.ofList).getD
    privateKeyHex = pkHex at h
  cases hdecode : lib.hexDecode pkHex with
  | none =>
    rw [hdecode] at h
    cases h
  | some pkBytes =>
    simp only [hdecode] at h
    by_cases hlen : pkBytes.length ≠ 32
    · rw [if_pos hlen] at h
      cases h
    rw [if_neg hlen] at h
    cases hkey : lib.keyFromSlice pkBytes with
    | none =>
      rw [hkey] at h
      cases h
    | some signingKey =>
      simp only [hkey] at h
      by_cases hempty : apiKey.isEmpty = true
      · rw [if_pos hempty] at h
        cases h
      rw [if_neg hempty] at h
      split at h
      · cases h
        exact ⟨rfl, rfl, rfl⟩
      · cases h
      · cases h
        exact ⟨rfl, rfl, rfl⟩
      · cases h
        exact ⟨rfl, rfl, rfl⟩
      · cases h
      · cases h

variable [AddCommGroup Point] [Module (ZMod secp256k1Order) Point]

/-- The body is of this order: the venue reads its bytes as a FAK order of the account of the
signer, and in it the order and a signature of it that recovers to the address the order names as
its signer. -/
def Signs (curve : Curve secp256k1Order Point) (fromSlice : JsonReader) (signer : OrderSigner Key)
    (body : SignedFakOrderBody) (order : OrderV2) : Prop :=
  ∃ value signature, fromSlice body.bytes = some value ∧
    readField value "orderType" Json.Value.asStr = some "FAK" ∧
    readField value "owner" Json.Value.asStr = some signer.apiKey ∧
    readOrder lib value = some (order, signature) ∧
    BytesRecoverTo lib curve (signer.digest lib order) signature.toList order.signer

section
variable {lib} {curve : Curve secp256k1Order Point} {fromSlice : JsonReader}
  {signer : OrderSigner Key} {token : TokenId} {inputs : SignInputs} {body : SignedFakOrderBody}

/-- The order that `sign_v2` signs and renders. -/
theorem signV2_order (hlib : RecoverableSigning lib curve) {side : OrderSide}
    {makerAmount takerAmount : BitVec 256}
    (h : signer.signV2 lib token side makerAmount takerAmount inputs = .ok body) :
    ∃ (order : OrderV2) (sig : EcdsaSignature) (rid : RecoveryId), signer.Owns inputs order ∧
      lib.fromDecStr token.str = some order.tokenId ∧ order.side = side ∧
      order.makerAmount = makerAmount ∧ order.takerAmount = takerAmount ∧
      lib.signPrehashRecoverable signer.signingKey (signer.digest lib order) = some (sig, rid) ∧
      lib.toVec (orderBody lib order
        (encodeSignature sig.low (if sig.IsHigh then rid.flip else rid)) signer.apiKey) =
          .ok body.bytes := by
  unfold signV2 at h
  split at h
  · next tokenId htoken =>
    simp only at h
    split at h
    · next sig rid hsign =>
      rw [signatureV2_eq hlib, Except.ok_bind] at h
      split at h
      · next hbytes =>
        obtain rfl := Except.ok.inj h
        exact ⟨_, sig, rid, ⟨rfl, rfl, rfl, rfl, rfl, rfl, rfl⟩, htoken, rfl, rfl, rfl, hsign,
          hbytes⟩
      · cases h
    · cases h
  · cases h

/-- The body that `sign_v2` makes is of the order it was called for. -/
theorem signV2_signs (hlib : RecoverableSigning lib curve) (hread : Readable lib fromSlice)
    (haddress : signer.HasAddress lib) {side : OrderSide} {makerAmount takerAmount : BitVec 256}
    (h : signer.signV2 lib token side makerAmount takerAmount inputs = .ok body) :
    ∃ order, signer.Signs lib curve fromSlice body order ∧ signer.Owns inputs order ∧
      lib.fromDecStr token.str = some order.tokenId ∧ order.side = side ∧
      order.makerAmount = makerAmount ∧ order.takerAmount = takerAmount := by
  obtain ⟨order, sig, rid, howns, htoken, hside, hmaker, htaker, hsign, hbytes⟩ :=
    signV2_order hlib h
  have hrecovers := recovers_low (hlib.sign_recovers _ _ _ _ hsign)
  obtain ⟨signature, hsignature⟩ : ∃ signature : Bytes 65, signature.toList =
      encodeSignature sig.low (if sig.IsHigh then rid.flip else rid) :=
    ⟨⟨_, length_encodeSignature _ _⟩, rfl⟩
  rw [← hsignature] at hbytes
  refine ⟨order, ⟨_, signature, hread.fromSlice_toVec hbytes, rfl, rfl,
    readOrder_orderBody hread order signature _, lib.verifyingKey signer.signingKey, ?_, ?_⟩, howns,
    htoken, hside, hmaker, htaker⟩
  · rw [hsignature]
    exact bytesRecover_encode.2 hrecovers
  · exact haddress.trans howns.address.symm

/-- The terms of a BUY: the dollars of the target for its shares. -/
theorem signFakBuy_signs (hlib : RecoverableSigning lib curve) (hread : Readable lib fromSlice)
    (haddress : signer.HasAddress lib) {target : BuyCanonicalTarget}
    (h : signer.signFakBuy lib token target inputs = .ok body) :
    ∃ order, signer.Signs lib curve fromSlice body order ∧ signer.Owns inputs order ∧
      lib.fromDecStr token.str = some order.tokenId ∧ order.side = .buy ∧
      (order.makerAmount.toNat : Int) = target.makerAmount.cents * 10000 ∧
      (order.takerAmount.toNat : Int) = target.size.units * 100 := by
  obtain ⟨fak, hfak, h⟩ := Except.ok_bind_inv h
  obtain ⟨order, hsigns, howns, htoken, hside, hmaker, htaker⟩ :=
    signV2_signs hlib hread haddress h
  obtain ⟨hbuy, hmakerAtoms, htakerAtoms⟩ := signFakBuy_ok hfak
  obtain ⟨hmakerFits, htakerFits⟩ := signFakBuy_fits hfak
  refine ⟨order, hsigns, howns, htoken, hside.trans hbuy, ?_, ?_⟩
  · rw [hmaker, toNat_ofNat_fits hmakerFits, hmakerAtoms]
  · rw [htaker, toNat_ofNat_fits htakerFits, htakerAtoms]

/-- The terms of a SELL: its shares for the dollars of the price. -/
theorem signFakSell_signs (hlib : RecoverableSigning lib curve) (hread : Readable lib fromSlice)
    (haddress : signer.HasAddress lib) {price : PriceTick} {size : Shares2}
    (h : signer.signFakSell lib token price size inputs = .ok body) :
    ∃ order, signer.Signs lib curve fromSlice body order ∧ signer.Owns inputs order ∧
      lib.fromDecStr token.str = some order.tokenId ∧ order.side = .sell ∧
      (order.makerAmount.toNat : Int) = size.units * 10000 ∧
      (order.takerAmount.toNat : Int) = price.ticks * size.units * 100 := by
  obtain ⟨fak, hfak, h⟩ := Except.ok_bind_inv h
  obtain ⟨order, hsigns, howns, htoken, hside, hmaker, htaker⟩ :=
    signV2_signs hlib hread haddress h
  obtain ⟨hsell, hmakerAtoms, htakerAtoms⟩ := signFakSell_ok hfak
  obtain ⟨hmakerFits, htakerFits⟩ := signFakSell_fits hfak
  refine ⟨order, hsigns, howns, htoken, hside.trans hsell, ?_, ?_⟩
  · rw [hmaker, toNat_ofNat_fits hmakerFits, hmakerAtoms]
  · rw [htaker, toNat_ofNat_fits htakerFits, htakerAtoms]

/-- A body that a signer makes is read by the venue as an order of this signer, for the token and
the amounts it was called with, and with a signature that recovers to its address. -/
theorem signs_for_venue (hlib : RecoverableSigning lib curve) (hread : Readable lib fromSlice)
    {privateKeyHex apiKey : String} {funder : Option H160} {kind : SignatureKind}
    {chainId : BitVec 64} {contract : H160}
    (hnew : OrderSigner.new lib privateKeyHex apiKey funder kind chainId contract = .ok signer) :
    signer.maker = funder.getD signer.address ∧
    signer.domainSeparator =
      computeDomainSeparator lib domainName domainVersionV2 chainId contract ∧
    (∀ token target inputs body, signer.signFakBuy lib token target inputs = .ok body →
      ∃ order, signer.Signs lib curve fromSlice body order ∧ signer.Owns inputs order ∧
        lib.fromDecStr token.str = some order.tokenId ∧ order.side = .buy ∧
        (order.makerAmount.toNat : Int) = target.makerAmount.cents * 10000 ∧
        (order.takerAmount.toNat : Int) = target.size.units * 100) ∧
    (∀ token price size inputs body, signer.signFakSell lib token price size inputs = .ok body →
      ∃ order, signer.Signs lib curve fromSlice body order ∧ signer.Owns inputs order ∧
        lib.fromDecStr token.str = some order.tokenId ∧ order.side = .sell ∧
        (order.makerAmount.toNat : Int) = size.units * 10000 ∧
        (order.takerAmount.toNat : Int) = price.ticks * size.units * 100) := by
  obtain ⟨haddress, hmaker, hdomain⟩ := new_ok hnew
  refine ⟨hmaker, hdomain, ?_, ?_⟩
  · exact fun token target inputs body h => signFakBuy_signs hlib hread haddress h
  · exact fun token price size inputs body h => signFakSell_signs hlib hread haddress h

end

end

end OrderSigner

/-! ## Orders of the key one -/

namespace Signing

open Auth

/-- An order of the key one, with its words after the type hash, their hash and the digest. The
point of the signature is even. -/
structure KeyOneOrder where
  words : List Nat
  hash : Nat
  digest : Nat
  signature : EcdsaSignature

namespace KeyOneOrder

/-- The inputs that are hashed for an order of the key one, with their hashes. -/
def hashes (order : KeyOneOrder) : List (List UInt8 × Nat) :=
  let domainType := 0x8b73c3c69bb8fe3d512ecc4cf759cc79239f7b179b0ffacaa9a75d522b39400f
  let name := 0xf30041e9aac4c4d3a1481d2941dfb0a844a72040e9bbc79a810d1ec5b5d6c7af
  let version := 0xad7c5bef027816a800da1736444fb58a807ef4c9603b7848673f7e3a68eb14a5
  let domain := 0x3264e159346253e26a64e00b69032db0e7d32f94628de3e6eecb50304d7af3d2
  let orderType := 0xbb86318a2138f5fa8ae32fbe8e659f8fcf13cc6ae4014a707893055433818589
  let words (ns : List Nat) := (ns.map (natToBe 32)).flatten
  [(words [0x79be667ef9dcbbac55a06295ce870b07029bfcdb2dce28d959f2815b16f81798,
      0x483ada7726a3c4655da4fbfc0e1108a8fd17b448a68554199c47d08ffb10d4b8],
      0xc0a6c424ac7157ae408398df7e5f4552091a69125d5dfcb7b8c2659029395bdf),
    (textBytes eip712DomainType, domainType), (textBytes domainName, name),
    (textBytes domainVersionV2, version),
    (words [domainType, name, version, 137, natFromBe EXCHANGE_V2_NORMAL.toList], domain),
    (textBytes orderTypeStringV2, orderType), (words (orderType :: order.words), order.hash),
    (0x19 :: 0x01 :: words [domain, order.hash], order.digest)]

/-- The digest, in bytes. -/
def prehash (order : KeyOneOrder) : H256 := ⟨natToBe 32 order.digest, length_natToBe 32 _⟩

/-- The account of the key one. -/
def apiKey : String := "00000000-0000-0000-0000-000000000001"

/-- The order of the words. -/
def fields (order : KeyOneOrder) : OrderV2 where
  salt := .ofNat 64 (order.words.getD 0 0)
  maker := keyOneAddress
  signer := keyOneAddress
  tokenId := .ofNat 256 (order.words.getD 3 0)
  makerAmount := .ofNat 256 (order.words.getD 4 0)
  takerAmount := .ofNat 256 (order.words.getD 5 0)
  side := if order.words.getD 6 0 = 0 then .buy else .sell
  signatureKind := .eoa
  timestampMs := .ofNat 128 (order.words.getD 8 0)
  metadata := .ofNat 32 0
  builder := .ofNat 32 0

/-- The libraries on the key one, as far as the order is signed, without rendering. -/
def signing (order : KeyOneOrder) : SigningLib Unit (ZMod secp256k1Order) where
  keccak256 bytes :=
    ⟨natToBe 32 (((order.hashes.find? fun e => e.1 == bytes).map Prod.snd).getD 0),
      length_natToBe 32 _⟩
  keyFromSlice bytes := if bytes = natToBe 32 1 then some () else none
  verifyingKey _ := (1 : Nat)
  toEncodedPoint := (keyOneLib order.signature evenPoint).toEncodedPoint
  signPrehashRecoverable _ digest :=
    if digest = order.prehash then some (order.signature, evenPoint) else none
  normalizeS sig := if sig.IsHigh then some sig.neg else none
  hexEncode := Hex.encode
  hexDecode := Hex.decode
  fromDecStr text :=
    let value := Digits.val text.toList
    if text.toList.all Char.isDigit ∧ value < 2 ^ 256 then some (.ofInt 256 value) else none
  toVec _ := .error "no body"

/-- The body of the order, which its one signature is in. -/
def body (order : KeyOneOrder) : Json.Value :=
  orderBody order.signing order.fields
    ((signatureV2 order.signing order.signature evenPoint).toOption.getD []) apiKey

/-- The bytes of the body. -/
def bodyBytes (order : KeyOneOrder) : List UInt8 := order.body.chars.map fun c => c.val.toUInt8

/-- The libraries on the key one, which render the one body. -/
def lib (order : KeyOneOrder) : SigningLib Unit (ZMod secp256k1Order) :=
  { order.signing with
    toVec value := if value = order.body then .ok order.bodyBytes else .error "another value" }

/-- The reader of the one body. -/
def fromSlice (order : KeyOneOrder) : JsonReader := fun bytes =>
  if bytes = order.bodyBytes then some order.body else none

/-- The one signature recovers to the key one. -/
theorem lib_signs {order : KeyOneOrder} {curve : Curve secp256k1Order (ZMod secp256k1Order)}
    (h : curve.Recovers (digestNumber order.prehash) order.signature evenPoint (1 : Nat)) :
    RecoverableSigning order.lib curve where
  normalizeS_eq _ := rfl
  sign_recovers key digest sig rid hsign := by
    simp only [lib, signing] at hsign
    split at hsign
    · next hdigest =>
      obtain ⟨rfl, rfl⟩ := Prod.mk.inj (Option.some.inj hsign)
      rw [hdigest]
      exact h
    · cases hsign

/-- The one body that is written is read back. -/
theorem fromSlice_of_toVec (order : KeyOneOrder) {value : Json.Value} {bytes : List UInt8}
    (h : order.lib.toVec value = .ok bytes) : order.fromSlice bytes = some value := by
  simp only [lib] at h
  split at h
  · next hbody =>
    rw [← Except.ok.inj h, hbody, fromSlice, if_pos rfl]
  · cases h

/-- The libraries of the order read what they write. -/
theorem lib_reads (order : KeyOneOrder) : Readable order.lib order.fromSlice where
  hexDecode_hexEncode := Hex.decode_encode
  fromDecStr_repr v := by
    have hread : v.toNat.repr.toList.all Char.isDigit = true ∧
        Digits.val v.toNat.repr.toList < 2 ^ 256 := by
      rw [List.all_eq_true, Nat.toList_repr, Digits.val_toDigits]
      refine ⟨fun c hc => Nat.isDigit_of_mem_toDigits (by decide) (by decide) hc, ?_⟩
      exact_mod_cast v.isLt
    simp only [lib, signing]
    rw [if_pos hread, Nat.toList_repr, Digits.val_toDigits, BitVec.ofInt_natCast,
      BitVec.ofNat_toNat, BitVec.setWidth_eq]
  fromSlice_toVec h := order.fromSlice_of_toVec h

/-- The signer of the key one, which pays for itself. -/
def signer (order : KeyOneOrder) : Except SigningError (OrderSigner Unit) :=
  OrderSigner.new order.lib
    "0x0000000000000000000000000000000000000000000000000000000000000001" apiKey none .eoa
    POLYGON_CHAIN_ID EXCHANGE_V2_NORMAL

end KeyOneOrder

/-- The number of the point that the SELL is signed with. -/
def keyOneSellR : Nat := 0x188aeacd6d8e066e8dbd221a4164090d7f16fb4430345fa8645f4e070d76281

/-- The logarithm of that point. -/
def keyOneSellNonce : Nat := 0xedda0e15ec0c32d6e606e7009c5f82a0b606d720d6bd546a785417742bfc7675

/-- Five shares, sold for 36 cents each. -/
def keyOneSell : KeyOneOrder where
  words :=
    let address := natFromBe keyOneAddress.toList
    [0, address, address, 11, 5000000, 1800000, 1, 0, 1777000000000, 0, 0]
  hash := 0x1443f065483ce37863ab35fc60d70f6626369b3a7b01fbdfa4841b3f5096b72e
  digest := 0x25bc886c277f37ae0822706082a1ab9be9a2e7673d464d1d81a72d3759747af6
  signature :=
    { r := keyOneSellR
      s := 0x30c64d6bb183d90541a931b4b28d32b1ed8d31c085f0084b8b2f870db4caa161
      r_range := by decide +kernel
      s_range := by decide +kernel }

/-- The nonce of the SELL has an inverse. -/
theorem isUnit_keyOneSellNonce : IsUnit (keyOneSellNonce : ZMod secp256k1Order) :=
  Curve.isUnit_of_mul_mod
    0x4d79ce3401e9402fb8c6201611ca743196e3aed017ba3936af290aaa20565fd (by decide +kernel)

/-- The group by discrete logarithms, in which the key one is the generator. -/
def keyOneSellCurve : Curve secp256k1Order (ZMod secp256k1Order) :=
  .ofLog secp256k1Order keyOneSellR keyOneSellNonce isUnit_keyOneSellNonce

/-- The one signature of the SELL recovers to the key one. -/
theorem keyOneSell_signs : RecoverableSigning keyOneSell.lib keyOneSellCurve :=
  KeyOneOrder.lib_signs (Curve.ofLog_recovers rfl rfl (by decide +kernel))

end Signing

/-- The venue reads the five shares that were signed. -/
theorem OrderSigner.signs_for_venue_sell :
    ∃ (signer : OrderSigner Unit) (body : SignedFakOrderBody) (order : OrderV2),
      Signing.keyOneSell.signer = .ok signer ∧
      signer.signFakSell Signing.keyOneSell.lib ⟨"11"⟩ ⟨36⟩ ⟨500⟩ ⟨0, 1777000000000⟩ = .ok body ∧
      signer.Signs Signing.keyOneSell.lib Signing.keyOneSellCurve Signing.keyOneSell.fromSlice body
        order ∧
      order.makerAmount.toNat = 5000000 ∧ order.takerAmount.toNat = 1800000 := by
  have h : Signing.keyOneSell.signer.Succeeds fun signer =>
      (signer.signFakSell Signing.keyOneSell.lib ⟨"11"⟩ ⟨36⟩ ⟨500⟩
        ⟨0, 1777000000000⟩).Succeeds fun _ => True := by
    decide +kernel
  obtain ⟨signer, hnew, hbody⟩ := h.exists
  obtain ⟨body, hbody, -⟩ := hbody.exists
  obtain ⟨-, -, -, hsell⟩ :=
    signs_for_venue Signing.keyOneSell_signs Signing.keyOneSell.lib_reads hnew
  obtain ⟨order, hsigns, -, -, -, hmaker, htaker⟩ := hsell _ _ _ _ _ hbody
  refine ⟨signer, body, order, hnew, hbody, hsigns, ?_, ?_⟩
  · dsimp only at hmaker
    omega
  · dsimp only at htaker
    omega

end Polyrust
