import Mathlib.Data.List.AList
import Mathlib.Data.List.Perm.Basic

/-!
# Unordered maps with an iteration order

A hash map is an association list with distinct keys (Mathlib's `AList`). Reading it by key does not
depend on the order of its entries; iterating over it does, and that order is not under the
program's control. So the order of the entries stands for the iteration order of the moment, two
maps that differ by it only are related by `HashMap.Reordered`, and a property of the unordered map
is one that `Reordered` maps share.

The three operations `AList` lacks are here: `mapValues` (iteration over the values, each updated in
place), `retain` (removal of the entries a test rejects) and `findKey?` (the first entry, in
iteration order, that passes a test), each with the equation for its lookups.
-/

/-- An unordered map from `K` to `V`: distinct keys, entries in the iteration order of the
moment. -/
abbrev HashMap (K V : Type _) := AList fun _ : K => V

namespace HashMap

section
variable {K V : Type _} [DecidableEq K]

/-- The two maps have the same entries, in possibly different iteration orders. -/
def Reordered (m m' : HashMap K V) : Prop := m.entries.Perm m'.entries

/-- `m` with every value replaced by its image under `f`, in the same iteration order. -/
def mapValues (f : K → V → V) (m : HashMap K V) : HashMap K V :=
  ⟨m.entries.map fun e => ⟨e.1, f e.1 e.2⟩, List.NodupKeys.map₂ f _ m.nodupKeys⟩

/-- `m` with the value at `k`, if there is one, replaced by its image under `f`. -/
def modify (k : K) (f : V → V) (m : HashMap K V) : HashMap K V :=
  m.mapValues fun k' v => if k' = k then f v else v

/-- The entries of `m` that pass `p`, in the same iteration order. -/
def retain (p : K → V → Bool) (m : HashMap K V) : HashMap K V :=
  ⟨m.entries.filter fun e => p e.1 e.2, m.nodupKeys.sublist List.filter_sublist⟩

/-- The key of the first entry, in iteration order, that passes `p`. -/
def findKey? (p : K → V → Bool) (m : HashMap K V) : Option K :=
  (m.entries.find? fun e => p e.1 e.2).map Sigma.fst

/-- Some value of `m` passes `p`. -/
def anyValue (p : V → Bool) (m : HashMap K V) : Bool := m.entries.any fun e => p e.2

/-! ## Lookups -/

/-- An entry is found by its key, since keys are distinct. -/
theorem mem_entries {m : HashMap K V} {k : K} {v : V} :
    (⟨k, v⟩ : Σ _ : K, V) ∈ m.entries ↔ m.lookup k = some v :=
  AList.mem_lookup_iff.symm

/-- A value that was changed is found changed. -/
@[simp] theorem lookup_mapValues (f : K → V → V) (m : HashMap K V) (k : K) :
    (m.mapValues f).lookup k = (m.lookup k).map (f k) :=
  List.dlookup_map₂ k

/-- The value of the key is changed. -/
@[simp] theorem lookup_modify_self (k : K) (f : V → V) (m : HashMap K V) :
    (m.modify k f).lookup k = (m.lookup k).map f := by
  simp [modify]

/-- The values of the other keys are not. -/
theorem lookup_modify_ne {k k' : K} (h : k' ≠ k) (f : V → V) (m : HashMap K V) :
    (m.modify k f).lookup k' = m.lookup k' := by
  simp [modify, h]

/-- What is retained is found, and nothing else. -/
@[simp] theorem lookup_retain (p : K → V → Bool) (m : HashMap K V) (k : K) :
    (m.retain p).lookup k = (m.lookup k).filter (p k) := by
  ext v
  rw [← mem_entries, Option.filter_eq_some_iff, ← mem_entries]
  simp [retain]

/-- Replacing every value by itself changes nothing. -/
theorem modify_eq_self {k : K} {f : V → V} {m : HashMap K V}
    (h : ∀ v, m.lookup k = some v → f v = v) : m.modify k f = m := by
  apply AList.ext
  refine (List.map_congr_left fun e he => ?_).trans (List.map_id _)
  obtain ⟨k', v⟩ := e
  by_cases hk : k' = k
  · subst hk
    simp [h v (mem_entries.1 he)]
  · simp [hk]

/-! ## The first entry that passes a test -/

/-- What `findKey?` finds passes the test. -/
theorem findKey?_some {p : K → V → Bool} {m : HashMap K V} {k : K} (h : m.findKey? p = some k) :
    ∃ v, m.lookup k = some v ∧ p k v = true := by
  obtain ⟨⟨k', v⟩, he, rfl⟩ := Option.map_eq_some_iff.1 h
  have hp := List.find?_some he
  exact ⟨v, mem_entries.1 (List.mem_of_find?_eq_some he), hp⟩

/-- `findKey?` finds nothing exactly when no entry passes the test. -/
theorem findKey?_none {p : K → V → Bool} {m : HashMap K V} :
    m.findKey? p = none ↔ ∀ k v, m.lookup k = some v → p k v = false := by
  simp only [findKey?, Option.map_eq_none_iff, List.find?_eq_none, Bool.not_eq_true]
  exact ⟨fun h k v hv => h ⟨k, v⟩ (mem_entries.2 hv), fun h e he => h e.1 e.2 (mem_entries.1 he)⟩

/-- Some value passes if that of some key does. -/
theorem anyValue_iff {p : V → Bool} {m : HashMap K V} :
    m.anyValue p = true ↔ ∃ k v, m.lookup k = some v ∧ p v = true := by
  simp only [anyValue, List.any_eq_true]
  exact ⟨fun ⟨e, he, hp⟩ => ⟨e.1, e.2, mem_entries.1 he, hp⟩,
    fun ⟨k, v, hv, hp⟩ => ⟨⟨k, v⟩, mem_entries.2 hv, hp⟩⟩

/-- `findKey?` finds a value's key exactly when some value passes. -/
theorem findKey?_isSome {p : V → Bool} {m : HashMap K V} :
    (m.findKey? fun _ v => p v).isSome = m.anyValue p := by
  rw [Bool.eq_iff_iff, Option.isSome_iff_ne_none, ne_eq, findKey?_none, anyValue_iff]
  simp only [not_forall, Bool.not_eq_false, exists_prop]

/-! ## Iteration orders -/

omit [DecidableEq K] in
/-- Every map has its own order. -/
theorem Reordered.refl (m : HashMap K V) : m.Reordered m := List.Perm.refl _

omit [DecidableEq K] in
/-- Orders of one map, the other way. -/
theorem Reordered.symm {m m' : HashMap K V} (h : m.Reordered m') : m'.Reordered m :=
  List.Perm.symm h

omit [DecidableEq K] in
/-- Orders of one map are orders of one map. -/
theorem Reordered.trans {m m' m'' : HashMap K V} (h : m.Reordered m') (h' : m'.Reordered m'') :
    m.Reordered m'' :=
  List.Perm.trans h h'

instance [DecidableEq V] (m m' : HashMap K V) : Decidable (m.Reordered m') :=
  inferInstanceAs (Decidable (m.entries.Perm m'.entries))

/-- Reading by key does not depend on the iteration order. -/
theorem Reordered.lookup {m m' : HashMap K V} (h : m.Reordered m') (k : K) :
    m.lookup k = m'.lookup k :=
  AList.perm_lookup h

/-- The change of one value depends on no order. -/
theorem Reordered.modify {m m' : HashMap K V} (h : m.Reordered m') (k : K) (f : V → V) :
    (m.modify k f).Reordered (m'.modify k f) :=
  List.Perm.map _ h

/-- The removal of a key depends on no order. -/
theorem Reordered.erase {m m' : HashMap K V} (h : m.Reordered m') (k : K) :
    Reordered (m.erase k) (m'.erase k) :=
  AList.perm_erase h

/-- Whether some value passes a test does not depend on the iteration order. -/
theorem Reordered.anyValue {m m' : HashMap K V} (h : m.Reordered m') (p : V → Bool) :
    m.anyValue p = m'.anyValue p := by
  rw [Bool.eq_iff_iff, anyValue_iff, anyValue_iff]
  simp only [h.lookup]

/-- A test that at most one entry passes finds the same entry in every iteration order. -/
theorem Reordered.findKey? {m m' : HashMap K V} (h : m.Reordered m') {p : K → V → Bool}
    (hu : ∀ k k' v v', m.lookup k = some v → m.lookup k' = some v' → p k v = true →
      p k' v' = true → k = k') : m.findKey? p = m'.findKey? p := by
  cases hm : HashMap.findKey? p m with
  | none =>
    rw [findKey?_none] at hm
    exact (findKey?_none.2 fun k v hv => hm k v ((h.lookup k).trans hv)).symm
  | some k =>
    obtain ⟨v, hv, hp⟩ := findKey?_some hm
    cases hm' : HashMap.findKey? p m' with
    | none =>
      rw [findKey?_none] at hm'
      rw [hm' k v ((h.lookup k).symm.trans hv)] at hp
      cases hp
    | some k' =>
      obtain ⟨v', hv', hp'⟩ := findKey?_some hm'
      rw [hu k k' v v' hv ((h.lookup k').trans hv') hp hp']

/-- The map with the entry of `k` moved to the front of the iteration order. -/
def front (k : K) (m : HashMap K V) : HashMap K V :=
  match m.lookup k with
  | some v => m.insert k v
  | none => m

/-- A key is brought to the front of the order. -/
theorem front_reordered (k : K) (m : HashMap K V) : m.Reordered (m.front k) := by
  unfold front
  split
  · next v hv =>
    show m.entries.Perm _
    rw [AList.entries_insert]
    have hn : List.Nodup (⟨k, v⟩ :: List.kerase k m.entries) := by
      refine List.nodup_cons.2 ⟨fun hmem => ?_, ?_⟩
      · exact List.notMem_keys_kerase k m.nodupKeys (List.mem_keys_of_mem hmem)
      · exact (m.nodupKeys.kerase k).nodup
    refine (List.perm_ext_iff_of_nodup m.nodupKeys.nodup hn).2 ?_
    rintro ⟨k', v'⟩
    have := mem_entries (m := (m.insert k v : HashMap K V)) (k := k') (v := v')
    rw [AList.entries_insert] at this
    rw [this, mem_entries]
    by_cases hk : k' = k
    · subst hk
      simp [hv]
    · rw [AList.lookup_insert_ne hk]
  · exact .refl m

/-- An entry that passes the test is the first to pass it in some iteration order. -/
theorem findKey?_front {p : K → V → Bool} {m : HashMap K V} {k : K} {v : V}
    (hv : m.lookup k = some v) (hp : p k v = true) : (m.front k).findKey? p = some k := by
  simp [front, hv, findKey?, AList.entries_insert, hp]

end

end HashMap
