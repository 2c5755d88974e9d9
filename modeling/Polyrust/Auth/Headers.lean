import Polyrust.Auth
import Polyrust.Decimal.Written
import Polyrust.Lib.Base64
import Polyrust.Lib.Utf8

/-!
# L2 authentication

The headers of a request to the REST interface (`auth.rs`): the secret of the API credentials is
decoded once, and signs the time, the method, the path and the body of every request. The secret is
read from what was encoded, with all of its padding or with less (`decodeSecretB64Padded_ok_iff`);
the encoding and HMAC-SHA256 are parameters (`Auth.L2Lib`).
The signed parts follow each other without separators, and the signed message determines them all
the same (`L2AuthSigner.message_inj`).
-/

namespace Polyrust

open IntWidth Signing

namespace Auth

/-- What the L2 authentication uses of the libraries. -/
structure L2Lib where
  /-- HMAC-SHA256 of a message under a secret -/
  hmac : List UInt8 → List UInt8 → Bytes 32
  /-- `BASE64_URL_SAFE` -/
  base64 : Base64.Engine

/-- Two messages that differ have one HMAC under the secret. -/
def L2Lib.Collide (lib : L2Lib) (secret m m' : List UInt8) : Prop :=
  m ≠ m' ∧ lib.hmac secret m = lib.hmac secret m'

variable {lib : L2Lib}

variable (lib) in
/-- `decode_secret_b64_padded`. -/
def decodeSecretB64Padded (s : String) : Except AuthError (List UInt8) :=
  let pad := (4 - Text.byteLen s.toList % 4) % 4
  match lib.base64.decode (s.toList ++ List.replicate pad '=') with
  | some bytes => .ok bytes
  | none => .error .invalidSecretBase64

/-- A secret is decoded as what its text is the encoding of, with the padding that completes it. -/
theorem decodeSecretB64Padded_eq_ok (hbase64 : lib.base64.UrlSafe) {s : String}
    {bytes : List UInt8} :
    decodeSecretB64Padded lib s = .ok bytes ↔
      s.toList ++ List.replicate ((4 - Text.byteLen s.toList % 4) % 4) '=' =
        lib.base64.encode bytes := by
  rw [← hbase64.decode_eq_some_iff, decodeSecretB64Padded]
  cases lib.base64.decode _ <;> simp

/-- Where pads complete a text at all, those that the length asks for do. -/
theorem decodeSecretB64Padded_of_pads (hbase64 : lib.base64.UrlSafe) {s : String}
    {bytes : List UInt8} {pads : Nat}
    (h : s.toList ++ List.replicate pads '=' = lib.base64.encode bytes) :
    decodeSecretB64Padded lib s = .ok bytes := by
  have hascii : Text.Ascii s.toList := fun c hc =>
    hbase64.ascii bytes c (h ▸ List.mem_append_left _ hc)
  rw [decodeSecretB64Padded_eq_ok hbase64, hascii.byteLen, ← hbase64.pads_eq h, h]

/-- A secret is decoded exactly if it is what was encoded, less some of the padding. -/
theorem decodeSecretB64Padded_ok_iff (hbase64 : lib.base64.UrlSafe) {s : String}
    {bytes : List UInt8} :
    decodeSecretB64Padded lib s = .ok bytes ↔
      ∃ pads, s.toList ++ List.replicate pads '=' = lib.base64.encode bytes := by
  refine ⟨fun h => ⟨_, (decodeSecretB64Padded_eq_ok hbase64).1 h⟩, ?_⟩
  rintro ⟨pads, h⟩
  exact decodeSecretB64Padded_of_pads hbase64 h

/-- The padding of five bytes is left off. -/
theorem decodeSecretB64Padded_ok_secret :
    Base64.urlSafe.UrlSafe ∧
      decodeSecretB64Padded ⟨fun _ _ => ⟨List.replicate 32 0, rfl⟩, Base64.urlSafe⟩ "c2VjcmU" =
        .ok [115, 101, 99, 114, 101] :=
  ⟨Base64.urlSafe_spec,
    (decodeSecretB64Padded_ok_iff Base64.urlSafe_spec).2 ⟨1, by decide +kernel⟩⟩

end Auth

/-! ## Headers -/

/-- Decoded credentials for L2 signing. -/
structure L2AuthSigner where
  apiKey : String
  passphrase : String
  address : String
  secret : List UInt8
  deriving DecidableEq, Repr

/-- Header pairs ready for HTTP attachment. -/
structure L2Headers where
  polyApiKey : String
  polyPassphrase : String
  polySignature : String
  polyTimestamp : String
  polyAddress : String
  contentType : String
  deriving DecidableEq, Repr

/-- `L2Headers::as_pairs`. -/
def L2Headers.asPairs (headers : L2Headers) : List (String × String) :=
  [("POLY_API_KEY", headers.polyApiKey), ("POLY_PASSPHRASE", headers.polyPassphrase),
    ("POLY_SIGNATURE", headers.polySignature), ("POLY_TIMESTAMP", headers.polyTimestamp),
    ("POLY_ADDRESS", headers.polyAddress), ("Content-Type", headers.contentType)]

namespace L2AuthSigner

variable (lib : Auth.L2Lib)

/-- `L2AuthSigner::new`. -/
def new (apiKey passphrase apiSecretB64 address : String) : Except AuthError L2AuthSigner := do
  return { apiKey, passphrase, address, secret := ← Auth.decodeSecretB64Padded lib apiSecretB64 }

/-- What is signed of a request. -/
def message (ts method path : String) (body : List UInt8) : List UInt8 :=
  textBytes ts ++ textBytes method ++ textBytes path ++ body

/-- The signature of a message. -/
def signature (signer : L2AuthSigner) (message : List UInt8) : String :=
  String.ofList (lib.base64.encode (lib.hmac signer.secret message).toList)

/-- `L2AuthSigner::headers`. -/
def headers (signer : L2AuthSigner) (method path : String) (body : List UInt8) (tsSecs : Int) :
    L2Headers :=
  let method := String.ofList (Text.toAsciiUppercase method.toList)
  let ts := tsSecs.repr
  { polyApiKey := signer.apiKey
    polyPassphrase := signer.passphrase
    polySignature := signer.signature lib (message ts method path body)
    polyTimestamp := ts
    polyAddress := signer.address
    contentType := "application/json" }

/-! ## Messages -/

/-- A character of a decimal number with its sign. -/
def isDecimal (c : Char) : Bool := c.isDigit || c == '-' || c == '+'

/-- The parts of a message as HTTP writes them: a number, a method in capitals, and a path that
begins with a slash. -/
structure WellFormed (ts method path : String) : Prop where
  ts : ∀ c ∈ ts.toList, isDecimal c = true
  method : ∀ c ∈ method.toList, c.isUpper = true
  path : ∃ rest, path.toList = '/' :: rest

/-- What is read as a number is written in decimal. -/
theorem isDecimal_of_parseI64 {s : List Char} {n : Int} (h : parseI64 s = some n) :
    ∀ c ∈ s, isDecimal c = true := by
  have hdigits : ∀ {digits : List Char} {x : Int},
      (if digits.isEmpty || !digits.all Char.isDigit then none else i64.checked x) = some n →
        ∀ c ∈ digits, isDecimal c = true := by
    intro digits x h c hc
    split at h
    · cases h
    · next hall =>
      simp only [Bool.or_eq_true, Bool.not_eq_true', not_or, Bool.not_eq_false,
        List.all_eq_true] at hall
      rw [isDecimal, hall.2 c hc]
      rfl
  unfold parseI64 at h
  split at h
  next sign digits hsplit =>
  split at hsplit
  · cases hsplit
    exact List.forall_mem_cons.2 ⟨rfl, hdigits h⟩
  · cases hsplit
    exact List.forall_mem_cons.2 ⟨rfl, hdigits h⟩
  · cases hsplit
    exact hdigits h

section
variable {ts ts' method method' path path' : String} {body body' : List UInt8}

/-- The bytes of a text, whose characters are of a kind that takes one byte each. -/
theorem textBytes_kind {kind : Char → Bool} (hascii : ∀ c, kind c = true → c.toNat < 128)
    {s : String} (h : ∀ c ∈ s.toList, kind c = true) :
    ∀ byte ∈ textBytes s, kind (Char.ofNat byte.toNat) = true := by
  have hsize : ∀ c ∈ s.toList, c.utf8Size = 1 := by
    intro c hc
    have hlt : c.toNat < 128 := hascii c (h c hc)
    have hle : c.val ≤ 127 := UInt32.le_iff_toNat_le.2 (Nat.le_of_lt_succ hlt)
    exact if_pos hle
  intro byte hbyte
  rw [textBytes, Utf8.toUTF8_toList_of_ascii hsize] at hbyte
  obtain ⟨c, hc, rfl⟩ := List.mem_map.1 hbyte
  have hnat : c.val.toUInt8.toNat = c.toNat := by
    have hlt := hascii c (h c hc)
    rw [UInt32.toNat_toUInt8]
    exact Nat.mod_eq_of_lt (hlt.trans (by decide : 128 < 2 ^ 8))
  rw [hnat, Char.ofNat_toNat]
  exact h c hc

/-- A digit is ASCII. -/
theorem isDecimal_ascii (c : Char) (h : isDecimal c = true) : c.toNat < 128 := by
  simp only [isDecimal, Bool.or_eq_true, beq_iff_eq] at h
  rcases h with (h | rfl) | rfl
  · have := Digits.isDigit_toNat h
    omega
  · decide
  · decide

/-- A capital letter is ASCII. -/
theorem isUpper_ascii (c : Char) (h : c.isUpper = true) : c.toNat < 128 := by
  have := (Text.isUpper_toNat h).2
  omega

/-- A capital letter belongs to no number. -/
theorem isDecimal_of_isUpper {c : Char} (h : c.isUpper = true) : isDecimal c = false := by
  have hlo := (Text.isUpper_toNat h).1
  rw [Bool.eq_false_iff]
  intro hdecimal
  simp only [isDecimal, Bool.or_eq_true, beq_iff_eq] at hdecimal
  rcases hdecimal with (hdigit | rfl) | rfl
  · have := (Digits.isDigit_toNat hdigit).2
    omega
  · exact absurd hlo (by decide)
  · exact absurd hlo (by decide)

/-- A path begins with the byte of the slash. -/
theorem textBytes_path (h : WellFormed ts method path) (body : List UInt8) :
    (textBytes path ++ body).head? = some 47 := by
  obtain ⟨rest, hrest⟩ := h.path
  rw [textBytes, Utf8.toUTF8_toList, hrest]
  rfl

/-- What follows the method is no capital letter. -/
theorem WellFormed.after_method (h : WellFormed ts method path) (body : List UInt8) :
    ∀ byte ∈ (textBytes path ++ body).head?, (Char.ofNat byte.toNat).isUpper = false := by
  rw [textBytes_path h]
  rintro _ ⟨⟩
  decide

/-- What follows the timestamp is no digit. -/
theorem WellFormed.after_ts (h : WellFormed ts method path) (body : List UInt8) :
    ∀ byte ∈ (textBytes method ++ (textBytes path ++ body)).head?,
      isDecimal (Char.ofNat byte.toNat) = false := by
  intro byte hbyte
  rw [List.head?_append] at hbyte
  cases hmethod : (textBytes method).head? with
  | none =>
    rw [hmethod, Option.none_or, textBytes_path h] at hbyte
    cases hbyte
    decide
  | some first =>
    rw [hmethod] at hbyte
    cases hbyte
    exact isDecimal_of_isUpper
      (textBytes_kind isUpper_ascii h.method _ (List.mem_of_mem_head? hmethod))

/-- The parts of a message can be read off it, up to where the path ends. -/
theorem message_inj (h : WellFormed ts method path) (h' : WellFormed ts' method' path') :
    message ts method path body = message ts' method' path' body' ↔
      ts = ts' ∧ method = method' ∧ textBytes path ++ body = textBytes path' ++ body' := by
  refine ⟨fun heq => ?_, ?_⟩
  · rw [message, message, List.append_assoc, List.append_assoc, List.append_assoc,
      List.append_assoc] at heq
    obtain ⟨hts, heq⟩ := Utf8.append_inj_of_kind heq
      (textBytes_kind isDecimal_ascii h.ts) (textBytes_kind isDecimal_ascii h'.ts)
      (h.after_ts body) (h'.after_ts body')
    obtain ⟨hmethod, hrest⟩ := Utf8.append_inj_of_kind heq
      (textBytes_kind isUpper_ascii h.method) (textBytes_kind isUpper_ascii h'.method)
      (h.after_method body) (h'.after_method body')
    exact ⟨Utf8.toUTF8_toList_inj.1 hts, Utf8.toUTF8_toList_inj.1 hmethod, hrest⟩
  · rintro ⟨rfl, rfl, hrest⟩
    rw [message, message, List.append_assoc, List.append_assoc, List.append_assoc,
      List.append_assoc, hrest]

end

end L2AuthSigner

end Polyrust
