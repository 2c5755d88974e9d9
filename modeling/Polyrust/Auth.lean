import Polyrust.Signing.Order

/-!
# L1 authentication

The signature that API credentials are derived with (`sign_clob_auth`, `auth.rs`): the `ClobAuth`
typed data, and the encoding of its signature, a second time next to the one of the orders.
-/

namespace Polyrust

open Bytes Ecdsa Signing

/-- What goes wrong when requests are signed. -/
inductive AuthError where
  | invalidSecretBase64
  deriving DecidableEq, Repr

namespace Auth

/-- The type of the attestation, as it is hashed. -/
def clobAuthTypeString : String :=
  "ClobAuth(address address,string timestamp,uint256 nonce,string message)"

/-- The type of its domain, as it is hashed. -/
def clobAuthDomainType : String := "EIP712Domain(string name,string version,uint256 chainId)"

/-- The name of its domain. -/
def clobAuthDomainName : String := "ClobAuthDomain"

/-- The version of its domain. -/
def clobAuthDomainVersion : String := "1"

/-- What is attested. -/
def clobAuthMessage : String := "This message attests that I control the given wallet"

section
variable {Key Point : Type} (lib : SigningLib Key Point)

/-- `clob_auth_struct_hash`. -/
def clobAuthStructHash (typehash : H256) (address : H160) (timestamp : String)
    (nonce : BitVec 32) : H256 :=
  lib.keccak256 (typehash.toList ++ addressToUint256Be address ++
    (lib.keccak256 (textBytes timestamp)).toList ++ u32ToUint256Be nonce ++
    (lib.keccak256 (textBytes clobAuthMessage)).toList)

/-- `compute_clob_auth_domain`. -/
def computeClobAuthDomain (chainId : BitVec 64) : H256 :=
  lib.keccak256 ((lib.keccak256 (textBytes clobAuthDomainType)).toList ++
    (lib.keccak256 (textBytes clobAuthDomainName)).toList ++
    (lib.keccak256 (textBytes clobAuthDomainVersion)).toList ++ u64ToUint256Be chainId)

/-- The 65 bytes that `sign_clob_auth` makes of a signature: `s` is normalized, the recovery id is
taken as it is. -/
def clobAuthSignature (sig : EcdsaSignature) (rid : RecoveryId) : List UInt8 :=
  let sig := (lib.normalizeS sig).getD sig
  natToBe 32 sig.r ++ natToBe 32 sig.s ++ [27 + rid.toByte]

/-- `sign_clob_auth`. -/
def signClobAuth (signingKey : Key) (address : H160) (timestamp : String) (nonce : BitVec 32)
    (chainId : BitVec 64) : Except AuthError (List UInt8) :=
  let typehash := lib.keccak256 (textBytes clobAuthTypeString)
  let digest := typedDataDigest lib (computeClobAuthDomain lib chainId)
    (clobAuthStructHash lib typehash address timestamp nonce)
  match lib.signPrehashRecoverable signingKey digest with
  | some (sig, rid) => .ok (clobAuthSignature lib sig rid)
  | none => .error .invalidSecretBase64

end

end Auth

end Polyrust
