import Polyrust.Auth
import Polyrust.Lib.TypedData

/-!
# The typed data that is hashed

The buffers that `signing.rs` hashes are the typed data of their type strings: after the hash of the
type string one word for each member, in the order of the type string. The buffer of an order
commits to all fields of the order (`structBytes_commits`), and what is signed commits to the order,
unless the buffers that are hashed for two orders are a collision (`orderDigest_inj`).
-/

namespace Polyrust

open Bytes TypedData

namespace Signing

/-! ## Words -/

/-- Bytes with zeros before them are the word of their number. -/
theorem padToUint256_eq {bytes : List UInt8} (h : bytes.length ≤ 32) :
    padToUint256 bytes = natToBe 32 (natFromBe bytes) := by
  have hpad := replicate_append_natToBe (32 - bytes.length) (natFromBe_lt bytes)
  rwa [natToBe_natFromBe, Nat.sub_add_cancel h] at hpad

/-- A number is padded to a word. -/
theorem padToUint256_natToBe {len n : Nat} (hlen : len ≤ 32) (hn : n < 256 ^ len) :
    padToUint256 (natToBe len n) = natToBe 32 n := by
  rw [padToUint256_eq (by rwa [length_natToBe]), natFromBe_natToBe, Nat.mod_eq_of_lt hn]

/-- The word of a number of 8 bits. -/
theorem u8ToUint256Be_eq (v : BitVec 8) : u8ToUint256Be v = natToBe 32 v.toNat :=
  padToUint256_natToBe (by decide) v.isLt

/-- The word of a number of 64 bits. -/
theorem u64ToUint256Be_eq (v : BitVec 64) : u64ToUint256Be v = natToBe 32 v.toNat :=
  padToUint256_natToBe (by decide) v.isLt

/-- The word of a number of 128 bits. -/
theorem u128ToUint256Be_eq (v : BitVec 128) : u128ToUint256Be v = natToBe 32 v.toNat :=
  padToUint256_natToBe (by decide) v.isLt

/-- The word of an address. -/
theorem addressToUint256Be_eq (addr : H160) :
    addressToUint256Be addr = natToBe 32 (natFromBe addr.toList) :=
  padToUint256_eq (by rw [addr.length_eq]; decide)

/-! ## Orders -/

/-- The members of an order, in the order of its type string. -/
def orderMembers (order : OrderV2) : List Member := [
  .ofUint 256 "salt" order.salt (by decide),
  .ofAddress "maker" order.maker,
  .ofAddress "signer" order.signer,
  .ofUint 256 "tokenId" order.tokenId (by decide),
  .ofUint 256 "makerAmount" order.makerAmount (by decide),
  .ofUint 256 "takerAmount" order.takerAmount (by decide),
  .ofUint 8 "side" order.side.asU8 (by decide),
  .ofUint 8 "signatureType" order.signatureKind.asU8 (by decide),
  .ofUint 256 "timestamp" order.timestampMs (by decide),
  .ofBytes32 "metadata" order.metadata,
  .ofBytes32 "builder" order.builder]

/-- The type text of the source is that of the members of an order. -/
theorem orderTypeStringV2_eq (order : OrderV2) :
    orderTypeStringV2 = encodeType "Order" (orderMembers order) := by
  simp only [encodeType, orderMembers, List.map_cons, List.map_nil, Member.text_ofUint,
    Member.text_ofAddress, Member.text_ofBytes32]
  decide +kernel

/-- The two sides have different numbers. -/
theorem orderSide_asU8_inj {side side' : OrderSide} :
    side.asU8 = side'.asU8 ↔ side = side' := by
  cases side <;> cases side' <;> decide

/-- The signature types have different numbers. -/
theorem signatureKind_asU8_inj {kind kind' : SignatureKind} :
    kind.asU8 = kind'.asU8 ↔ kind = kind' := by
  cases kind <;> cases kind' <;> decide

/-- The values of the members determine the order. -/
theorem orderMembers_inj {order order' : OrderV2} :
    (orderMembers order).map Member.value = (orderMembers order').map Member.value ↔
      order = order' := by
  obtain ⟨_, _, _, _, _, _, _, _, _, _, _⟩ := order
  obtain ⟨_, _, _, _, _, _, _, _, _, _, _⟩ := order'
  simp only [orderMembers, List.map_cons, List.map_nil, Member.ofUint, Member.ofAddress,
    Member.ofBytes32, List.cons.injEq, BitVec.toNat_inj, natFromBe_toList_inj, orderSide_asU8_inj,
    signatureKind_asU8_inj, OrderV2.mk.injEq, and_true]

section
variable {Key Point : Type} (lib : SigningLib Key Point)

/-- What is hashed for an order is its typed data. -/
theorem structBytes_eq (order : OrderV2) :
    structBytes lib order =
      hashInput (lib.keccak256 (textBytes orderTypeStringV2)) (orderMembers order) := by
  simp only [structBytes, hashInput, orderMembers, u64ToUint256Be_eq, addressToUint256Be_eq,
    u8ToUint256Be_eq, u128ToUint256Be_eq, toBigEndian, List.map_cons, List.map_nil,
    Member.word_ofUint, Member.word_ofAddress, Member.word_ofBytes32, List.flatten_cons,
    List.flatten_nil, List.append_nil, List.append_assoc]

/-- Two orders with one buffer are the same. -/
theorem structBytes_inj {order order' : OrderV2} :
    structBytes lib order = structBytes lib order' ↔ order = order' := by
  rw [structBytes_eq, structBytes_eq, hashInput_inj, orderMembers_inj]

/-- The buffer of an order has one word for its type and one for each member of the type string, the
value of the member as a big-endian number, and commits to all fields of the order. -/
theorem structBytes_commits (order : OrderV2) :
    (structBytes lib order).length = 384 ∧
      orderTypeStringV2 = encodeType "Order" (orderMembers order) ∧
      words 12 (structBytes lib order) =
        (lib.keccak256 (textBytes orderTypeStringV2)).toList ::
          (orderMembers order).map Member.word ∧
      ∀ order', structBytes lib order = structBytes lib order' ↔ order = order' := by
  refine ⟨?_, orderTypeStringV2_eq order, ?_, fun order' => structBytes_inj lib⟩
  · rw [structBytes_eq, length_hashInput]
    rfl
  · rw [structBytes_eq]
    exact words_hashInput _ (orderMembers order)

/-! ## Domains -/

/-- The members of the domain of the orders. -/
def domainMembers (name version : String) (chainId : BitVec 64) (verifyingContract : H160) :
    List Member := [
  .ofString "name" (lib.keccak256 (textBytes name)),
  .ofString "version" (lib.keccak256 (textBytes version)),
  .ofUint 256 "chainId" chainId (by decide),
  .ofAddress "verifyingContract" verifyingContract]

/-- The domain text of the source is that of the members of the domain. -/
theorem eip712DomainType_eq (name version : String) (chainId : BitVec 64)
    (verifyingContract : H160) :
    eip712DomainType =
      encodeType "EIP712Domain" (domainMembers lib name version chainId verifyingContract) := by
  simp only [encodeType, domainMembers, List.map_cons, List.map_nil, Member.text_ofUint,
    Member.text_ofAddress, Member.text_ofString]
  decide +kernel

/-- The domain separator is the EIP-712 hash of these members. -/
theorem computeDomainSeparator_eq (name version : String) (chainId : BitVec 64)
    (verifyingContract : H160) :
    let members := domainMembers lib name version chainId verifyingContract
    computeDomainSeparator lib name version chainId verifyingContract =
      lib.keccak256 (hashInput (lib.keccak256 (textBytes (encodeType "EIP712Domain" members)))
        members) := by
  intro members
  rw [← eip712DomainType_eq]
  simp only [members, computeDomainSeparator, hashInput, domainMembers, u64ToUint256Be_eq,
    addressToUint256Be_eq, List.map_cons, List.map_nil, Member.word_ofUint, Member.word_ofAddress,
    Member.word_ofString, List.flatten_cons, List.flatten_nil, List.append_nil, List.append_assoc]

/-! ## Collisions -/

/-- These two inputs differ and have one hash. -/
def Collide (xs ys : List UInt8) : Prop := xs ≠ ys ∧ lib.keccak256 xs = lib.keccak256 ys

/-- What is hashed for a digest. -/
def typedDataBytes (domain hash : H256) : List UInt8 :=
  0x19 :: 0x01 :: (domain.toList ++ hash.toList)

/-- The buffers of the two orders are a collision, or what is hashed for their digests is one. -/
def DigestsCollide (domain : H256) (order order' : OrderV2) : Prop :=
  Collide lib (structBytes lib order) (structBytes lib order') ∨
    Collide lib (typedDataBytes domain (structHash lib order))
      (typedDataBytes domain (structHash lib order'))

variable {lib}

/-- What has one hash is the same, or a collision. -/
theorem keccak256_inj {xs ys : List UInt8} (h : lib.keccak256 xs = lib.keccak256 ys) :
    xs = ys ∨ Collide lib xs ys := by
  by_cases he : xs = ys
  · exact .inl he
  · exact .inr ⟨he, h⟩

/-- Orders that are hashed alike are the same, unless their buffers are a collision. -/
theorem structHash_inj {order order' : OrderV2} (h : structHash lib order = structHash lib order') :
    order = order' ∨ Collide lib (structBytes lib order) (structBytes lib order') :=
  (keccak256_inj h).imp_left (structBytes_inj lib).1

/-- A digest is of one struct in one domain, unless what is hashed for the two is a collision. -/
theorem typedDataDigest_inj {domain domain' hash hash' : H256}
    (h : typedDataDigest lib domain hash = typedDataDigest lib domain' hash') :
    (domain = domain' ∧ hash = hash') ∨
      Collide lib (typedDataBytes domain hash) (typedDataBytes domain' hash') := by
  refine (keccak256_inj h).imp_left fun hbytes => ?_
  have happend := (List.cons.inj (List.cons.inj hbytes).2).2
  obtain ⟨hdomain, hhash⟩ :=
    List.append_inj happend (domain.length_eq.trans domain'.length_eq.symm)
  exact ⟨Bytes.ext hdomain, Bytes.ext hhash⟩

/-- What is signed for an order in a domain commits to the order, unless there is a collision of the
two orders at hand. -/
theorem orderDigest_inj {domain : H256} {order order' : OrderV2}
    (h : typedDataDigest lib domain (structHash lib order) =
      typedDataDigest lib domain (structHash lib order')) :
    order = order' ∨ DigestsCollide lib domain order order' := by
  rcases typedDataDigest_inj h with ⟨-, hhash⟩ | hcollide
  · exact (structHash_inj hhash).imp_right .inl
  · exact .inr (.inr hcollide)

end

end Signing

end Polyrust
