import Polyrust.Orders

/-!
# Signed order amounts

The two amounts of a FAK order body (`signing.rs`), from the canonical parameters of the order: the
part of `sign_fak_buy` and `sign_fak_sell` before the order is hashed and signed. Both amounts are
in body atoms; a BUY gives dollars for shares, a SELL shares for dollars.
-/

namespace Polyrust

open IntWidth

/-- Why an order cannot be signed. -/
inductive SigningError where
  | invalidPrivateKey
  | invalidTokenId
  | invalidApiKey
  | invalidFunder
  | invalidPriceOrSize
  | serializeBody (e : String)
  deriving DecidableEq, Repr

/-- The side and the amounts that `sign_v2` is called with. -/
structure FakOrder where
  side : OrderSide
  makerAmount : Nat
  takerAmount : Nat
  deriving DecidableEq, Repr

/-- An amount in atoms: refused when the product is out of range or not positive. -/
def bodyAtoms (units : Option Int) : Except SigningError Nat :=
  match units with
  | some atoms => if atoms ≤ 0 then .error .invalidPriceOrSize else .ok atoms.toNat
  | none => .error .invalidPriceOrSize

/-- `sign_fak_buy`. -/
def signFakBuy (target : BuyCanonicalTarget) : Except SigningError FakOrder := do
  let makerAtoms ← bodyAtoms (i128.checked (target.makerAmount.cents * 10000))
  let takerAtoms ← bodyAtoms (i128.checked (target.size.units * 100))
  return ⟨.buy, makerAtoms, takerAtoms⟩

/-- `sign_fak_sell`. -/
def signFakSell (price : PriceTick) (size : Shares2) : Except SigningError FakOrder := do
  let makerAtoms ← bodyAtoms (i128.checked (size.units * 10000))
  let takerAtoms ← bodyAtoms ((i128.checked (price.ticks * size.units)).bind fun v =>
    i128.checked (v * 100))
  return ⟨.sell, makerAtoms, takerAtoms⟩

/-- The atoms of an amount that is signed are positive. -/
theorem bodyAtoms_ok {units : Option Int} {atoms : Nat} (h : bodyAtoms units = .ok atoms) :
    units = some (atoms : Int) ∧ 0 < atoms := by
  unfold bodyAtoms at h
  split at h
  · split at h
    · cases h
    · next hpos =>
      cases h
      exact ⟨by rw [Int.toNat_of_nonneg (by omega)], by omega⟩
  · cases h

/-- A positive amount has its atoms. -/
theorem bodyAtoms_of_pos {atoms : Int} (h : 0 < atoms) :
    bodyAtoms (some atoms) = .ok atoms.toNat := by
  rw [bodyAtoms, if_neg (not_le.2 h)]

/-- The amounts of a signed BUY, from its target. -/
theorem signFakBuy_ok {target : BuyCanonicalTarget} {order : FakOrder}
    (h : signFakBuy target = .ok order) :
    order.side = .buy ∧ (order.makerAmount : Int) = target.makerAmount.cents * 10000 ∧
      (order.takerAmount : Int) = target.size.units * 100 := by
  obtain ⟨maker, hm, h⟩ := Except.ok_bind_inv h
  obtain ⟨taker, ht, h⟩ := Except.ok_bind_inv h
  cases h
  exact ⟨rfl, (checked_eq_some.1 (bodyAtoms_ok hm).1).1.symm,
    (checked_eq_some.1 (bodyAtoms_ok ht).1).1.symm⟩

/-- A target of positive 64-bit amounts can be signed. -/
theorem signFakBuy_of_pos {target : BuyCanonicalTarget} (hm : 0 < target.makerAmount.cents)
    (hmf : i64.Fits target.makerAmount.cents) (hs : 0 < target.size.units)
    (hsf : i64.Fits target.size.units) :
    signFakBuy target =
      .ok ⟨.buy, (target.makerAmount.cents * 10000).toNat, (target.size.units * 100).toNat⟩ := by
  have hmaker : i128.checked (target.makerAmount.cents * 10000) =
      some (target.makerAmount.cents * 10000) :=
    checked_eq_some.2 ⟨rfl, by simp only [Fits, i64_hi, i128] at hmf ⊢; omega⟩
  have htaker : i128.checked (target.size.units * 100) = some (target.size.units * 100) :=
    checked_eq_some.2 ⟨rfl, by simp only [Fits, i64_hi, i128] at hsf ⊢; omega⟩
  rw [signFakBuy, hmaker, htaker, bodyAtoms_of_pos (by omega), bodyAtoms_of_pos (by omega)]
  rfl

/-- A SELL of a positive size at a price in range is signed at that price. -/
theorem signFakSell_of_pos {price : PriceTick} {size : Shares2} (hp : 0 < price.ticks)
    (hp99 : price.ticks ≤ 99) (hs : 0 < size.units) (hsf : i64.Fits size.units) :
    signFakSell price size =
      .ok ⟨.sell, (size.units * 10000).toNat, (price.ticks * size.units * 100).toNat⟩ := by
  have hpos : 0 < price.ticks * size.units := mul_pos hp hs
  have hle : price.ticks * size.units ≤ 99 * size.units := mul_le_mul_of_nonneg_right hp99 hs.le
  have hmaker : i128.checked (size.units * 10000) = some (size.units * 10000) :=
    checked_eq_some.2 ⟨rfl, by simp only [Fits, i64_hi, i128] at hsf ⊢; omega⟩
  have hprod : i128.checked (price.ticks * size.units) = some (price.ticks * size.units) :=
    checked_eq_some.2 ⟨rfl, by simp only [Fits, i64_hi, i128] at hsf ⊢; omega⟩
  have htaker : i128.checked (price.ticks * size.units * 100) =
      some (price.ticks * size.units * 100) :=
    checked_eq_some.2 ⟨rfl, by simp only [Fits, i64_hi, i128] at hsf ⊢; omega⟩
  rw [signFakSell, hmaker, hprod, Option.bind_some, htaker, bodyAtoms_of_pos (by omega),
    bodyAtoms_of_pos (by omega)]
  rfl

end Polyrust
