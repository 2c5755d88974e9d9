import Polyrust.Json
import Polyrust.Lib.Bytes
import Polyrust.Lib.Ecdsa
import Polyrust.Signing
import Polyrust.Text

/-!
# Signed orders

The order that `sign_v2` hashes, signs and renders (`signing.rs`): its encoding as typed data, the
signature with a low `s`, and the body of the request. The libraries for hashing, signing and
rendering are a parameter of the model (`SigningLib`).
-/

namespace Polyrust

open Bytes Ecdsa

/-- An address. -/
abbrev H160 := Bytes 20
/-- A hash. -/
abbrev H256 := Bytes 32

/-- The order of the group of secp256k1. -/
def secp256k1Order : Nat :=
  0xfffffffffffffffffffffffffffffffebaaedce6af48a03bbfd25e8cd0364141

/-- A signature over secp256k1. -/
abbrev EcdsaSignature := Signature secp256k1Order

/-- What the program uses of the libraries for hashing (`sha3`), signing (`k256`), 256-bit numbers
(`primitive-types`), hexadecimal (`hex`) and JSON (`serde_json`). -/
structure SigningLib (Key Point : Type) where
  keccak256 : List UInt8 → H256
  /-- `SigningKey::from_slice` -/
  keyFromSlice : List UInt8 → Option Key
  verifyingKey : Key → Point
  /-- `to_encoded_point`, uncompressed -/
  toEncodedPoint : Point → Bytes 65
  signPrehashRecoverable : Key → H256 → Option (EcdsaSignature × RecoveryId)
  normalizeS : EcdsaSignature → Option EcdsaSignature
  hexEncode : List UInt8 → String
  hexDecode : String → Option (List UInt8)
  /-- `U256::from_dec_str` -/
  fromDecStr : String → Option (BitVec 256)
  /-- `serde_json::to_vec` -/
  toVec : Json.Value → Except String (List UInt8)

/-- Who signs for the maker: the maker, or the owner of its proxy or of its safe. -/
inductive SignatureKind where
  | eoa
  | polyProxy
  | polyGnosisSafe
  deriving DecidableEq, Repr

/-- `SignatureKind::as_u8`. -/
def SignatureKind.asU8 : SignatureKind → BitVec 8
  | .eoa => 0
  | .polyProxy => 1
  | .polyGnosisSafe => 2

/-- The name of the side in the body. -/
def OrderSide.asStr : OrderSide → String
  | .buy => "BUY"
  | .sell => "SELL"

/-- The number of the side in the hash. -/
def OrderSide.asU8 : OrderSide → BitVec 8
  | .buy => 0
  | .sell => 1

/-- What has to be fresh in every order. -/
structure SignInputs where
  salt : BitVec 64
  timestampMs : BitVec 128
  deriving DecidableEq, Repr

/-- An order of the exchange. -/
structure OrderV2 where
  salt : BitVec 64
  maker : H160
  signer : H160
  tokenId : BitVec 256
  makerAmount : BitVec 256
  takerAmount : BitVec 256
  side : OrderSide
  signatureKind : SignatureKind
  timestampMs : BitVec 128
  metadata : H256
  builder : H256
  deriving DecidableEq, Repr

/-- A body that is signed and ready for `POST /order`. -/
structure SignedFakOrderBody where
  bytes : List UInt8
  deriving DecidableEq, Repr

namespace Signing

/-! ## Typed data -/

/-- The bytes of a text. -/
def textBytes (s : String) : List UInt8 := s.toUTF8.toList

/-- The type of an order, as it is hashed. -/
def orderTypeStringV2 : String :=
  "Order(uint256 salt,address maker,address signer,uint256 tokenId," ++
  "uint256 makerAmount,uint256 takerAmount,uint8 side,uint8 signatureType," ++
  "uint256 timestamp,bytes32 metadata,bytes32 builder)"

/-- The type of the domain, as it is hashed. -/
def eip712DomainType : String :=
  "EIP712Domain(string name,string version,uint256 chainId,address verifyingContract)"

/-- The name of the domain of the exchange. -/
def domainName : String := "Polymarket CTF Exchange"

/-- The version of the domain of the exchange. -/
def domainVersionV2 : String := "2"

/-- Bytes at the end of a word of 32 bytes, zeros before them. -/
def padToUint256 (bytes : List UInt8) : List UInt8 := List.replicate (32 - bytes.length) 0 ++ bytes

/-- `u8_to_uint256_be`. -/
def u8ToUint256Be (v : BitVec 8) : List UInt8 := padToUint256 (natToBe 1 v.toNat)

/-- `u32_to_uint256_be`. -/
def u32ToUint256Be (v : BitVec 32) : List UInt8 := padToUint256 (natToBe 4 v.toNat)

/-- `u64_to_uint256_be`. -/
def u64ToUint256Be (v : BitVec 64) : List UInt8 := padToUint256 (natToBe 8 v.toNat)

/-- `u128_to_uint256_be`. -/
def u128ToUint256Be (v : BitVec 128) : List UInt8 := padToUint256 (natToBe 16 v.toNat)

/-- `address_to_uint256_be`. -/
def addressToUint256Be (addr : H160) : List UInt8 := padToUint256 addr.toList

/-- `U256::to_big_endian`. -/
def toBigEndian (v : BitVec 256) : List UInt8 := natToBe 32 v.toNat

section
variable {Key Point : Type} (lib : SigningLib Key Point)

/-- The bytes that `OrderV2::struct_hash` hashes. -/
def structBytes (order : OrderV2) : List UInt8 :=
  (lib.keccak256 (textBytes orderTypeStringV2)).toList ++ u64ToUint256Be order.salt ++
    addressToUint256Be order.maker ++ addressToUint256Be order.signer ++
    toBigEndian order.tokenId ++ toBigEndian order.makerAmount ++ toBigEndian order.takerAmount ++
    u8ToUint256Be order.side.asU8 ++ u8ToUint256Be order.signatureKind.asU8 ++
    u128ToUint256Be order.timestampMs ++ order.metadata.toList ++ order.builder.toList

/-- `OrderV2::struct_hash`. -/
def structHash (order : OrderV2) : H256 := lib.keccak256 (structBytes lib order)

/-- `compute_domain_separator`. -/
def computeDomainSeparator (name version : String) (chainId : BitVec 64)
    (verifyingContract : H160) : H256 :=
  lib.keccak256 ((lib.keccak256 (textBytes eip712DomainType)).toList ++
    (lib.keccak256 (textBytes name)).toList ++ (lib.keccak256 (textBytes version)).toList ++
    u64ToUint256Be chainId ++ addressToUint256Be verifyingContract)

/-- The digest of a struct in a domain. -/
def typedDataDigest (domainSeparator structHash : H256) : H256 :=
  lib.keccak256 (0x19 :: 0x01 :: (domainSeparator.toList ++ structHash.toList))

/-- `derive_address`: the last 20 bytes of the hash of the point. -/
def deriveAddress (vk : Point) : H160 :=
  let hash := lib.keccak256 ((lib.toEncodedPoint vk).toList.drop 1)
  ⟨hash.toList.drop 12, by rw [List.length_drop, hash.length_eq]⟩

/-! ## Signatures -/

/-- `encode_signature`. -/
def encodeSignature (sig : EcdsaSignature) (rid : RecoveryId) : List UInt8 :=
  natToBe 32 sig.r ++ natToBe 32 sig.s ++ [27 + rid.toByte]

/-- The signature of `sign_v2`, normalized: where `s` is flipped, the parity is flipped with it. -/
def normalizeRecoverable (sig : EcdsaSignature) (rid : RecoveryId) :
    Except SigningError (EcdsaSignature × RecoveryId) :=
  match lib.normalizeS sig with
  | some flipped =>
    match RecoveryId.tryFrom (rid.toByte ^^^ 1) with
    | some newRid => .ok (flipped, newRid)
    | none => .error .invalidPrivateKey
  | none => .ok (sig, rid)

/-- The 65 bytes that `sign_v2` makes of a signature. -/
def signatureV2 (sig : EcdsaSignature) (rid : RecoveryId) : Except SigningError (List UInt8) := do
  let (sig, rid) ← normalizeRecoverable lib sig rid
  return encodeSignature sig rid

/-! ## Rendering -/

/-- Bytes in hexadecimal, after `0x`. -/
def hex0x (bytes : List UInt8) : String := "0x" ++ lib.hexEncode bytes

/-- `SignedOrderBodyV2`, as the JSON library renders it. -/
def orderBody (order : OrderV2) (signature : List UInt8) (apiKey : String) : Json.Value :=
  .object [
    ("order", .object [
      ("salt", .number (.posInt order.salt.toNat)),
      ("maker", .string (hex0x lib order.maker.toList)),
      ("signer", .string (hex0x lib order.signer.toList)),
      ("tokenId", .string order.tokenId.toNat.repr),
      ("makerAmount", .string order.makerAmount.toNat.repr),
      ("takerAmount", .string order.takerAmount.toNat.repr),
      ("side", .string order.side.asStr),
      ("expiration", .string "0"),
      ("signatureType", .number (.posInt order.signatureKind.asU8.toNat)),
      ("timestamp", .string order.timestampMs.toNat.repr),
      ("metadata", .string (hex0x lib order.metadata.toList)),
      ("builder", .string (hex0x lib order.builder.toList)),
      ("signature", .string (hex0x lib signature))]),
    ("orderType", .string "FAK"),
    ("owner", .string apiKey),
    ("deferExec", .bool false)]

end

end Signing

/-! ## The signer -/

/-- The key with its address, the maker it signs for, and the domain it signs in. -/
structure OrderSigner (Key : Type) where
  signingKey : Key
  address : H160
  apiKey : String
  maker : H160
  signatureKind : SignatureKind
  domainSeparator : H256

namespace OrderSigner

open Signing

section
variable {Key Point : Type} (lib : SigningLib Key Point)

/-- `OrderSigner::new`. -/
def new (privateKeyHex apiKey : String) (funder : Option H160) (signatureKind : SignatureKind)
    (chainId : BitVec 64) (verifyingContract : H160) : Except SigningError (OrderSigner Key) := do
  let pkHex := ((Text.stripPrefix "0x".toList privateKeyHex.toList).map String.ofList).getD
    privateKeyHex
  let some pkBytes := lib.hexDecode pkHex | throw .invalidPrivateKey
  if pkBytes.length ≠ 32 then throw .invalidPrivateKey
  let some signingKey := lib.keyFromSlice pkBytes | throw .invalidPrivateKey
  let address := deriveAddress lib (lib.verifyingKey signingKey)
  if apiKey.isEmpty then throw .invalidApiKey
  let maker ←
    match signatureKind, funder with
    | .eoa, none => pure address
    | .eoa, some _ => throw .invalidFunder
    | .polyProxy, some funder | .polyGnosisSafe, some funder => pure funder
    | .polyProxy, none | .polyGnosisSafe, none => throw .invalidFunder
  let domainSeparator :=
    computeDomainSeparator lib domainName domainVersionV2 chainId verifyingContract
  return { signingKey, address, apiKey, maker, signatureKind, domainSeparator }

/-- `sign_v2`. -/
def signV2 (signer : OrderSigner Key) (token : TokenId) (side : OrderSide)
    (makerAmount takerAmount : BitVec 256) (inputs : SignInputs) :
    Except SigningError SignedFakOrderBody := do
  let some tokenId := lib.fromDecStr token.str | throw .invalidTokenId
  let zero : H256 := ⟨List.replicate 32 0, List.length_replicate⟩
  let order : OrderV2 :=
    { salt := inputs.salt, maker := signer.maker, signer := signer.address, tokenId
      makerAmount, takerAmount, side, signatureKind := signer.signatureKind
      timestampMs := inputs.timestampMs, metadata := zero, builder := zero }
  let digest := typedDataDigest lib signer.domainSeparator (structHash lib order)
  let some (sig, rid) := lib.signPrehashRecoverable signer.signingKey digest
    | throw .invalidPrivateKey
  let signature ← signatureV2 lib sig rid
  match lib.toVec (orderBody lib order signature signer.apiKey) with
  | .ok bytes => return ⟨bytes⟩
  | .error e => throw (.serializeBody e)

/-- `OrderSigner::sign_fak_buy`. -/
def signFakBuy (signer : OrderSigner Key) (token : TokenId) (target : BuyCanonicalTarget)
    (inputs : SignInputs) : Except SigningError SignedFakOrderBody := do
  let order ← Polyrust.signFakBuy target
  signer.signV2 lib token order.side (.ofNat 256 order.makerAmount) (.ofNat 256 order.takerAmount)
    inputs

/-- `OrderSigner::sign_fak_sell`. -/
def signFakSell (signer : OrderSigner Key) (token : TokenId) (price : PriceTick) (size : Shares2)
    (inputs : SignInputs) : Except SigningError SignedFakOrderBody := do
  let order ← Polyrust.signFakSell price size
  signer.signV2 lib token order.side (.ofNat 256 order.makerAmount) (.ofNat 256 order.takerAmount)
    inputs

end

end OrderSigner

end Polyrust
