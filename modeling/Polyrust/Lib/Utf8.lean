import Mathlib.Data.List.Basic
import Mathlib.Data.List.TakeWhile

/-!
# Texts as bytes

The bytes of a text determine it (`toUTF8_toList_inj`), and those of a text whose characters take
one byte each are read off it character by character. Texts that are written one after the other can
be taken apart where one kind of bytes ends and the next begins (`append_inj_of_kind`).
-/

namespace Utf8

/-- The loop over the bytes appends what is left. -/
theorem toList_loop (bytes : ByteArray) (left : Nat) :
    ∀ (i : Nat) (acc : List UInt8), bytes.size = i + left →
      ByteArray.toList.loop bytes i acc = acc.reverse ++ bytes.data.toList.drop i := by
  induction left with
  | zero =>
    intro i acc h
    rw [ByteArray.toList.loop, if_neg (by omega), List.drop_eq_nil_of_le, List.append_nil]
    simpa using h.le
  | succ left ih =>
    intro i acc h
    have hi : i < bytes.data.toList.length := by
      have : bytes.data.toList.length = bytes.size := by simp
      omega
    have hget : bytes.get! i = bytes.data.toList[i] := by
      change bytes.data[i]! = _
      rw [getElem!_pos bytes.data i (by simpa using hi), Array.getElem_toList]
    rw [ByteArray.toList.loop, if_pos (by omega), ih (i + 1) _ (by omega), hget,
      List.drop_eq_getElem_cons hi, List.reverse_cons, List.append_assoc]
    rfl

/-- The bytes of an array. -/
theorem toList_eq (bytes : ByteArray) : bytes.toList = bytes.data.toList := by
  rw [ByteArray.toList, toList_loop bytes bytes.size 0 [] (Nat.zero_add _).symm]
  rfl

/-- A text is encoded character by character. -/
theorem toUTF8_toList (s : String) :
    s.toUTF8.toList = s.toList.flatMap String.utf8EncodeChar := by
  rw [toList_eq, String.toUTF8_eq_toByteArray, ← String.utf8Encode_toList, List.utf8Encode,
    List.toList_data_toByteArray]

/-- The bytes of a text determine it. -/
theorem toUTF8_toList_inj {s t : String} : s.toUTF8.toList = t.toUTF8.toList ↔ s = t := by
  refine ⟨fun h => ?_, fun h => by rw [h]⟩
  rw [toList_eq, toList_eq] at h
  exact String.toByteArray_inj.1 (ByteArray.ext (Array.toList_inj.1 h))

/-- The bytes of a text whose characters take one byte each. -/
theorem toUTF8_toList_of_ascii {s : String} (h : ∀ c ∈ s.toList, c.utf8Size = 1) :
    s.toUTF8.toList = s.toList.map fun c => c.val.toUInt8 := by
  rw [toUTF8_toList]
  generalize s.toList = l at h
  induction l with
  | nil => rfl
  | cons c l ih =>
    have hc := String.utf8EncodeChar_eq_singleton (h c (List.mem_cons_self ..))
    rw [List.flatMap_cons, hc, ih fun d hd => h d (List.mem_cons_of_mem c hd), List.map_cons]
    rfl

/-- Two lists that each begin with elements of one kind, up to one of another kind, have the same
beginning if they are the same. -/
theorem append_inj_of_kind {α : Type _} {kind : α → Bool} {xs xs' ys ys' : List α}
    (h : xs ++ ys = xs' ++ ys') (hxs : ∀ x ∈ xs, kind x = true) (hxs' : ∀ x ∈ xs', kind x = true)
    (hys : ∀ y ∈ ys.head?, kind y = false) (hys' : ∀ y ∈ ys'.head?, kind y = false) :
    xs = xs' ∧ ys = ys' := by
  have hstop : ∀ {zs : List α}, (∀ z ∈ zs.head?, kind z = false) → zs.takeWhile kind = [] := by
    intro zs hzs
    cases zs with
    | nil => rfl
    | cons z zs => exact List.takeWhile_cons_of_neg (by simpa using hzs z rfl)
  have htake := congrArg (List.takeWhile kind) h
  rw [List.takeWhile_append_of_pos hxs, List.takeWhile_append_of_pos hxs', hstop hys, hstop hys',
    List.append_nil, List.append_nil] at htake
  refine ⟨htake, ?_⟩
  rw [htake] at h
  exact List.append_cancel_left h

end Utf8
