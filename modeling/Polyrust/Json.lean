import Mathlib.Data.String.Defs
import Polyrust.Lib.Arith

/-!
# JSON values

The values that the JSON library (`serde_json`) hands to the parsers, and the accessors they use.
The library itself, from the bytes of a frame to a value or an error text, is a parameter of the
model (`Platform`).
-/

namespace Polyrust

namespace Json

/-- A number as the library keeps it: an unsigned or a negative integer of 64 bits, or a
floating-point number, of which only its text is used. -/
inductive Number where
  | posInt (n : Nat)
  | negInt (n : Int)
  | float (text : String)
  deriving DecidableEq, Repr

/-- A JSON value; the entries of an object stand in their order. -/
inductive Value where
  | null
  | bool (b : Bool)
  | number (n : Number)
  | string (s : String)
  | array (items : List Value)
  | object (entries : List (String × Value))
  deriving Repr

/-- `Number::to_string`. -/
def Number.toText : Number → String
  | .posInt n => n.repr
  | .negInt n => n.repr
  | .float text => text

/-- `Number::as_i64`. -/
def Number.asI64 : Number → Option Int
  | .posInt n => IntWidth.i64.checked n
  | .negInt n => some n
  | .float _ => none

namespace Value

/-- `Value::get` at a key, which only objects have. -/
def get (value : Value) (key : String) : Option Value :=
  match value with
  | .object entries => (entries.find? fun e => e.1 == key).map Prod.snd
  | _ => none

/-- `Value::as_str`. -/
def asStr : Value → Option String
  | .string s => some s
  | _ => none

/-- `Value::as_i64`. -/
def asI64 : Value → Option Int
  | .number n => n.asI64
  | _ => none

/-- `Value::as_bool`. -/
def asBool : Value → Option Bool
  | .bool b => some b
  | _ => none

/-- `Value::as_array`. -/
def asArray : Value → Option (List Value)
  | .array items => some items
  | _ => none

/-- What a key of an object holds is smaller than the object. -/
theorem sizeOf_get_lt {value inner : Value} {key : String} (h : value.get key = some inner) :
    sizeOf inner < sizeOf value := by
  unfold get at h
  split at h
  · next entries =>
    obtain ⟨⟨key', inner'⟩, he, rfl⟩ := Option.map_eq_some_iff.1 h
    have hmem := List.sizeOf_lt_of_mem (List.mem_of_find?_eq_some he)
    simp only [Prod.mk.sizeOf_spec, Value.object.sizeOf_spec] at hmem ⊢
    omega
  · cases h

mutual
/-- The two values are the same. -/
def same : Value → Value → Bool
  | .null, .null => true
  | .bool a, .bool b => a == b
  | .number m, .number n => m == n
  | .string s, .string t => s.toList == t.toList
  | .array us, .array vs => sameItems us vs
  | .object us, .object vs => sameEntries us vs
  | _, _ => false

/-- The comparison of the items of two arrays. -/
def sameItems : List Value → List Value → Bool
  | [], [] => true
  | u :: us, v :: vs => u.same v && sameItems us vs
  | _, _ => false

/-- The comparison of the entries of two objects. -/
def sameEntries : List (String × Value) → List (String × Value) → Bool
  | [], [] => true
  | (key, u) :: us, (key', v) :: vs => key.toList == key'.toList && u.same v && sameEntries us vs
  | _, _ => false
end

mutual
/-- The comparison decides equality. -/
theorem same_iff : ∀ {u v : Value}, u.same v = true ↔ u = v
  | .null, v | .bool _, v | .number _, v | .string _, v => by
    cases v <;> simp [same, String.toList_inj]
  | .array us, v => by cases v <;> simp [same, sameItems_iff]
  | .object us, v => by cases v <;> simp [same, sameEntries_iff]

/-- The comparison of items decides the equality of the lists. -/
theorem sameItems_iff : ∀ {us vs : List Value}, sameItems us vs = true ↔ us = vs
  | [], vs => by cases vs <;> simp [sameItems]
  | u :: us, vs => by cases vs <;> simp [sameItems, u.same_iff, sameItems_iff]

/-- The comparison of entries decides the equality of the lists. -/
theorem sameEntries_iff : ∀ {us vs : List (String × Value)}, sameEntries us vs = true ↔ us = vs
  | [], vs => by cases vs <;> simp [sameEntries]
  | (key, u) :: us, vs => by
    rcases vs with _ | ⟨⟨key', v⟩, vs⟩
    · simp [sameEntries]
    · simp [sameEntries, String.toList_inj, u.same_iff, sameEntries_iff, and_assoc]
end

instance : DecidableEq Value := fun u v => decidable_of_iff (u.same v = true) same_iff

mutual
/-- `Value::to_string`, where no string has a character to escape. -/
def toText : Value → String
  | .null => "null"
  | .bool true => "true"
  | .bool false => "false"
  | .number n => n.toText
  | .string s => "\"" ++ s ++ "\""
  | .array items => "[" ++ itemsText items ++ "]"
  | .object entries => "\x7b" ++ entriesText entries ++ "\x7d"

/-- The items of an array, separated by commas. -/
def itemsText : List Value → String
  | [] => ""
  | [item] => item.toText
  | item :: items => item.toText ++ "," ++ itemsText items

/-- The entries of an object, separated by commas. -/
def entriesText : List (String × Value) → String
  | [] => ""
  | [(key, value)] => "\"" ++ key ++ "\":" ++ value.toText
  | (key, value) :: entries => "\"" ++ key ++ "\":" ++ value.toText ++ "," ++ entriesText entries
end

/-- The bytes of the text of a value, where all its characters are ASCII. -/
def toBytes (value : Value) : List UInt8 := value.toText.toList.map fun c => c.val.toUInt8

mutual
/-- The characters of the text, which is what a run on fixed inputs is evaluated with. -/
def chars : Value → List Char
  | .null => "null".toList
  | .bool true => "true".toList
  | .bool false => "false".toList
  | .number n => n.toText.toList
  | .string s => '\x22' :: s.toList ++ ['\x22']
  | .array items => '[' :: itemsChars items ++ [']']
  | .object entries => '\x7b' :: entriesChars entries ++ ['\x7d']

/-- The characters of the items of an array. -/
def itemsChars : List Value → List Char
  | [] => []
  | [item] => item.chars
  | item :: items => item.chars ++ ',' :: itemsChars items

/-- The characters of the entries of an object. -/
def entriesChars : List (String × Value) → List Char
  | [] => []
  | [(key, value)] => '\x22' :: key.toList ++ '\x22' :: ':' :: value.chars
  | (key, value) :: entries =>
    '\x22' :: key.toList ++ '\x22' :: ':' :: value.chars ++ ',' :: entriesChars entries
end

mutual
/-- The text of a value has its characters. -/
theorem toText_toList : ∀ value : Value, value.toText.toList = value.chars
  | .null | .bool true | .bool false | .number _ => by rw [toText, chars]
  | .string s => by simp [toText, chars]
  | .array items => by simp [toText, chars, itemsText_toList items]
  | .object entries => by simp [toText, chars, entriesText_toList entries]

/-- The text of the items of an array has their characters. -/
theorem itemsText_toList : ∀ items : List Value, (itemsText items).toList = itemsChars items
  | [] => rfl
  | [item] => by rw [itemsText, itemsChars, item.toText_toList]
  | item :: next :: items => by
    simp [itemsText, itemsChars, item.toText_toList, itemsText_toList (next :: items)]

/-- The text of the entries of an object has their characters. -/
theorem entriesText_toList :
    ∀ entries : List (String × Value), (entriesText entries).toList = entriesChars entries
  | [] => rfl
  | [(key, value)] => by simp [entriesText, entriesChars, value.toText_toList]
  | (key, value) :: next :: entries => by
    simp [entriesText, entriesChars, value.toText_toList, entriesText_toList (next :: entries)]
end

/-- The bytes of a value are those of its characters. -/
theorem toBytes_eq (value : Value) : value.toBytes = value.chars.map fun c => c.val.toUInt8 := by
  rw [toBytes, toText_toList]

end Value

end Json

/-- What the program runs on: the build it was compiled with, and the JSON library, which reads a
frame as a value or refuses it with an error text (`serde_json::from_slice`). -/
structure Platform where
  build : Build
  fromSlice : List UInt8 → Except String Json.Value

/-- A release build whose JSON library reads the texts of these values and refuses all others, for
the runs on fixed inputs. -/
def Platform.reading (values : List Json.Value) : Platform where
  build := ⟨false⟩
  fromSlice raw :=
    match values.find? fun value => value.toBytes == raw with
    | some value => .ok value
    | none => .error "expected value at line 1 column 1"

/-- The platform that reads the values, with their texts computed from their characters. -/
theorem Platform.reading_eq (values : List Json.Value) :
    Platform.reading values =
      { build := ⟨false⟩
        fromSlice raw :=
          match values.find? fun value => value.chars.map (fun c => c.val.toUInt8) == raw with
          | some value => .ok value
          | none => .error "expected value at line 1 column 1" } := by
  simp only [reading, Json.Value.toBytes_eq]

/-- Values with distinct texts are read back. -/
theorem Platform.reading_toBytes {values : List Json.Value}
    (h : values.Pairwise fun u v => u.toBytes ≠ v.toBytes) {value : Json.Value}
    (hmem : value ∈ values) : (Platform.reading values).fromSlice value.toBytes = .ok value := by
  have hfind : values.find? (fun v => v.toBytes == value.toBytes) = some value := by
    induction values with
    | nil => cases hmem
    | cons head values ih =>
      obtain ⟨hhead, htail⟩ := List.pairwise_cons.1 h
      rcases List.mem_cons.1 hmem with rfl | hmem
      · exact List.find?_cons_of_pos (beq_self_eq_true _)
      · rw [List.find?_cons_of_neg (by simpa using hhead value hmem)]
        exact ih htail hmem
  rw [Platform.reading]
  dsimp only
  rw [hfind]

end Polyrust
