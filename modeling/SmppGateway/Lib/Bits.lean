import Mathlib.Data.Nat.Bitwise

-- A list of bytes as one row of bits, `width` of each byte, lowest bit first.

namespace Bits

def bitAt (width : Nat) (l : List UInt8) (p : Nat) : Bool :=
  (l.getD (p / width) 0).toNat.testBit (p % width)

theorem bitAt_cons_of_lt {width p : Nat} (h : p < width) (b : UInt8) (l : List UInt8) :
    bitAt width (b :: l) p = b.toNat.testBit p := by
  simp [bitAt, Nat.div_eq_of_lt h, Nat.mod_eq_of_lt h]

theorem bitAt_cons_of_le {width p : Nat} (hpos : 0 < width) (h : width ≤ p) (b : UInt8) (l : List UInt8) :
    bitAt width (b :: l) p = bitAt width l (p - width) := by
  obtain ⟨q, rfl⟩ := Nat.exists_eq_add_of_le h
  simp [bitAt, Nat.add_div_left q hpos]

theorem bitAt_of_length_le {width p : Nat} {l : List UInt8} (h : l.length ≤ p / width) : bitAt width l p = false := by
  simp [bitAt, List.getElem?_eq_none h]

theorem bitAt_replicate_zero (width n p : Nat) : bitAt width (List.replicate n 0) p = false := by
  by_cases h : p / width < n <;> simp [bitAt, h]

theorem bitAt_modify_or (l : List UInt8) (k : Nat) (v : UInt8) (p : Nat) :
    bitAt 8 (l.modify k (· ||| v)) p =
      (bitAt 8 l p || (decide (p / 8 = k ∧ k < l.length) && v.toNat.testBit (p % 8))) := by
  simp only [bitAt, List.getD_eq_getElem?_getD, List.getElem?_modify]
  by_cases hk : k = p / 8
  case neg => simp [hk, Ne.symm hk]
  case pos =>
    by_cases hlt : p / 8 < l.length <;> simp [hk, hlt]

theorem testBit_shiftLeft {v : UInt8} {n p : Nat} (hn : n < 8) (hp : p < 8) :
    (v <<< UInt8.ofNat n).toNat.testBit p = (decide (n ≤ p) && v.toNat.testBit (p - n)) := by
  have hshift : (UInt8.ofNat n).toNat % 8 = n := by rw [UInt8.toNat_ofNat']; omega
  rw [UInt8.toNat_shiftLeft, hshift, Nat.testBit_mod_two_pow, Nat.testBit_shiftLeft]
  simp [hp]

theorem testBit_shiftRight {v : UInt8} {n : Nat} (hn : n < 8) (p : Nat) :
    (v >>> UInt8.ofNat n).toNat.testBit p = v.toNat.testBit (n + p) := by
  have hshift : (UInt8.ofNat n).toNat % 8 = n := by rw [UInt8.toNat_ofNat']; omega
  rw [UInt8.toNat_shiftRight, hshift, Nat.testBit_shiftRight]

theorem eq_of_bits {width : Nat} {a b : UInt8} (ha : a.toNat < 2 ^ width) (hb : b.toNat < 2 ^ width)
    (h : ∀ q < width, a.toNat.testBit q = b.toNat.testBit q) : a = b := by
  apply UInt8.toNat_inj.mp
  apply Nat.eq_of_testBit_eq
  intro q
  by_cases hq : q < width
  case pos => exact h q hq
  case neg =>
    have hpow : 2 ^ width ≤ 2 ^ q := Nat.pow_le_pow_right (by decide) (by omega)
    rw [Nat.testBit_lt_two_pow (by omega), Nat.testBit_lt_two_pow (by omega)]

end Bits
