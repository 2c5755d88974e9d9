import Polyrust.Lib.Bytes

/-!
# Typed data

Structs whose members are unsigned integers, addresses, words of 32 bytes and strings, for which
their hash stands: the text of the type of a struct (`encodeType`), and the words that are hashed
for a struct, the hash of that text and then one word for each member (`hashInput`). The words
commit to the values of all members (`hashInput_inj`).
-/

namespace TypedData

open Bytes

/-- The type of a member. -/
inductive MemberType where
  | uint (bits : Fin 257)
  | address
  | bytes32
  | string
  deriving DecidableEq, Repr

namespace MemberType

/-- The name of the type. -/
def name : MemberType → String
  | uint bits => "uint" ++ bits.val.repr
  | address => "address"
  | bytes32 => "bytes32"
  | string => "string"

/-- The bits of a value; of a string, those of its hash. -/
def bits : MemberType → Nat
  | uint bits => bits
  | address => 160
  | bytes32 => 256
  | string => 256

/-- Every type fits a word. -/
theorem bits_le : ∀ type : MemberType, type.bits ≤ 256
  | uint bits => Nat.le_of_lt_succ bits.isLt
  | address => by decide
  | bytes32 => le_refl 256
  | string => le_refl 256

end MemberType

/-- A member with its value, which the type has room for. -/
structure Member where
  type : MemberType
  name : String
  value : Nat
  value_lt : value < 2 ^ type.bits
  deriving DecidableEq, Repr

namespace Member

/-- A member that is an unsigned number. -/
def ofUint (bits : Fin 257) (name : String) {w : Nat} (v : BitVec w) (h : w ≤ bits) : Member :=
  ⟨.uint bits, name, v.toNat, lt_of_lt_of_le v.isLt (Nat.pow_le_pow_right Nat.two_pos h)⟩

/-- A member that is an address. -/
def ofAddress (name : String) (addr : Bytes 20) : Member :=
  ⟨.address, name, natFromBe addr.toList, natFromBe_lt_two_pow addr⟩

/-- A member of 32 bytes. -/
def ofBytes32 (name : String) (bytes : Bytes 32) : Member :=
  ⟨.bytes32, name, natFromBe bytes.toList, natFromBe_lt_two_pow bytes⟩

/-- A string, by its hash. -/
def ofString (name : String) (hash : Bytes 32) : Member :=
  ⟨.string, name, natFromBe hash.toList, natFromBe_lt_two_pow hash⟩

end Member

/-- A member as the text of the type has it. -/
def Member.text (member : Member) : String := member.type.name ++ " " ++ member.name

@[simp] theorem Member.text_ofUint (bits : Fin 257) (name : String) {w : Nat} (v : BitVec w)
    (h : w ≤ bits) : (ofUint bits name v h).text = "uint" ++ bits.val.repr ++ " " ++ name := rfl

@[simp] theorem Member.text_ofAddress (name : String) (addr : Bytes 20) :
    (ofAddress name addr).text = "address" ++ " " ++ name := rfl

@[simp] theorem Member.text_ofBytes32 (name : String) (bytes : Bytes 32) :
    (ofBytes32 name bytes).text = "bytes32" ++ " " ++ name := rfl

@[simp] theorem Member.text_ofString (name : String) (hash : Bytes 32) :
    (ofString name hash).text = "string" ++ " " ++ name := rfl

/-- The word of a member: its value as a big-endian number of 32 bytes, with zeros before it. -/
def Member.word (member : Member) : List UInt8 := natToBe 32 member.value

/-- The text of the type of a struct. -/
def encodeType (name : String) (members : List Member) : String :=
  name ++ "(" ++ ",".intercalate (members.map Member.text) ++ ")"

/-- What is hashed for a struct. -/
def hashInput (typeHash : Bytes 32) (members : List Member) : List UInt8 :=
  (typeHash.toList :: members.map Member.word).flatten

/-- The first `n` words of a buffer. -/
def words : Nat → List UInt8 → List (List UInt8)
  | 0, _ => []
  | n + 1, buf => buf.take 32 :: words n (buf.drop 32)

/-- Words are cut where they were joined. -/
theorem words_flatten {ws : List (List UInt8)} (h : ∀ w ∈ ws, w.length = 32) :
    words ws.length ws.flatten = ws := by
  induction ws with
  | nil => rfl
  | cons w ws ih =>
    obtain ⟨hw, hws⟩ := List.forall_mem_cons.1 h
    rw [List.length_cons, words, List.flatten_cons, List.take_left' hw, List.drop_left' hw, ih hws]

/-- Words that are joined keep their length. -/
theorem length_flatten_words {ws : List (List UInt8)} (h : ∀ w ∈ ws, w.length = 32) :
    ws.flatten.length = 32 * ws.length := by
  induction ws with
  | nil => rfl
  | cons w ws ih =>
    obtain ⟨hw, hws⟩ := List.forall_mem_cons.1 h
    rw [List.flatten_cons, List.length_append, hw, ih hws, List.length_cons, Nat.mul_succ,
      Nat.add_comm]

section
variable {typeHash : Bytes 32} {members members' : List Member}

/-- The value of a member fits a word. -/
theorem Member.value_lt_word (member : Member) : member.value < 256 ^ 32 :=
  lt_of_lt_of_le member.value_lt (Nat.pow_le_pow_right (by decide) member.type.bits_le)

@[simp] theorem Member.word_ofUint (bits : Fin 257) (name : String) {w : Nat} (v : BitVec w)
    (h : w ≤ bits) : (ofUint bits name v h).word = natToBe 32 v.toNat := rfl

@[simp] theorem Member.word_ofAddress (name : String) (addr : Bytes 20) :
    (ofAddress name addr).word = natToBe 32 (natFromBe addr.toList) := rfl

@[simp] theorem Member.word_ofBytes32 (name : String) (bytes : Bytes 32) :
    (ofBytes32 name bytes).word = bytes.toList :=
  natToBe_toList bytes

@[simp] theorem Member.word_ofString (name : String) (hash : Bytes 32) :
    (ofString name hash).word = hash.toList :=
  natToBe_toList hash

/-- The word of a member is read as its value. -/
theorem Member.natFromBe_word (member : Member) : natFromBe member.word = member.value := by
  rw [word, natFromBe_natToBe, Nat.mod_eq_of_lt member.value_lt_word]

/-- The words of the members and their values determine each other. -/
theorem map_word_inj :
    members.map Member.word = members'.map Member.word ↔
      members.map Member.value = members'.map Member.value := by
  have hvalue : Member.value = natFromBe ∘ Member.word := by
    funext member
    rw [Function.comp_apply, Member.natFromBe_word]
  have hword : Member.word = natToBe 32 ∘ Member.value := rfl
  refine ⟨fun h => ?_, fun h => ?_⟩
  · rw [hvalue, ← List.map_map, h, List.map_map]
  · rw [hword, ← List.map_map, h, List.map_map]

/-- What is hashed consists of words. -/
theorem hashInput_words_length (typeHash : Bytes 32) (members : List Member) :
    ∀ w ∈ typeHash.toList :: members.map Member.word, w.length = 32 := by
  refine List.forall_mem_cons.2 ⟨typeHash.length_eq, ?_⟩
  exact List.forall_mem_map.2 fun member _ => length_natToBe 32 member.value

/-- One word for the type and one for each member. -/
theorem length_hashInput (typeHash : Bytes 32) (members : List Member) :
    (hashInput typeHash members).length = 32 * (members.length + 1) := by
  rw [hashInput, length_flatten_words (hashInput_words_length typeHash members), List.length_cons,
    List.length_map]

/-- The words of what is hashed are the type hash and those of the members. -/
theorem words_hashInput (typeHash : Bytes 32) (members : List Member) :
    words (members.length + 1) (hashInput typeHash members) =
      typeHash.toList :: members.map Member.word := by
  have h := words_flatten (hashInput_words_length typeHash members)
  rwa [List.length_cons, List.length_map] at h

/-- Structs of one type that are hashed alike have the same values. -/
theorem hashInput_inj :
    hashInput typeHash members = hashInput typeHash members' ↔
      members.map Member.value = members'.map Member.value := by
  rw [← map_word_inj]
  refine ⟨fun h => ?_, fun h => ?_⟩
  · have hlen := congrArg List.length h
    rw [length_hashInput, length_hashInput] at hlen
    have hwords := words_hashInput typeHash members
    rw [h, Nat.eq_of_mul_eq_mul_left (by decide) hlen, words_hashInput] at hwords
    exact (List.cons.inj hwords).2.symm
  · rw [hashInput, h, hashInput]

end

end TypedData
