import SmppGateway.Lib.Bits
import SmppGateway.Message.Guess

-- Packed GSM 7-bit text read back: septets as a row of bits, seven of each, laid over bytes.

namespace SmppGateway

open Go Bits

theorem bitAt_packSeptet {septet : UInt8} (hseptet : septet.toNat < 128) (out : List UInt8) (i p : Nat) :
    bitAt 8 (packSeptet out septet i) p =
      (bitAt 8 out p || (decide (7 * i ≤ p ∧ p < 8 * out.length) && septet.toNat.testBit (p - 7 * i))) := by
  have hhigh {q : Nat} (hq : 7 ≤ q) : septet.toNat.testBit q = false := by
    have hpow : 2 ^ 7 ≤ 2 ^ q := Nat.pow_le_pow_right (by decide) hq
    exact Nat.testBit_lt_two_pow (by omega)
  have hdiv : 8 * (i * 7 / 8) + i * 7 % 8 = 7 * i := by omega
  have hp : 8 * (p / 8) + p % 8 = p := by omega
  have hshift : i * 7 % 8 < 8 := Nat.mod_lt _ (by decide)
  unfold packSeptet
  simp only [List.length_modify]
  generalize i * 7 / 8 = k at *
  generalize i * 7 % 8 = shift at *
  have hlow : bitAt 8 (out.modify k (· ||| septet <<< UInt8.ofNat shift)) p = (bitAt 8 out p ||
      (decide (p / 8 = k ∧ k < out.length ∧ shift ≤ p % 8) && septet.toNat.testBit (p % 8 - shift))) := by
    rw [bitAt_modify_or, testBit_shiftLeft hshift (Nat.mod_lt _ (by decide))]
    simp only [← Bool.and_assoc, ← Bool.decide_and, and_assoc]
  split
  case isTrue hnext =>
    have hlen : k + 1 < (out.modify k (· ||| septet <<< UInt8.ofNat shift)).length := by
      rw [List.length_modify]
      exact hnext.2
    rw [bitAt_modify_or, hlow, testBit_shiftRight (by omega)]
    by_cases hk : p / 8 = k
    case pos =>
      have hsub : p - 7 * i = p % 8 - shift := by omega
      have hiff : 7 * i ≤ p ∧ p < 8 * out.length ↔ shift ≤ p % 8 := by omega
      have hklen : k < out.length := by omega
      simp [hk, hklen, hiff, hsub]
    case neg =>
      by_cases hk' : p / 8 = k + 1
      case pos =>
        have hsub : p - 7 * i = 8 - shift + p % 8 := by omega
        have hin : 7 * i ≤ p ∧ p < 8 * out.length := by omega
        simp [hk', hnext.2, hin, hsub]
      case neg =>
        by_cases hle : 7 * i ≤ p
        case pos => simp [hk, hk', hhigh (show 7 ≤ p - 7 * i by omega)]
        case neg => simp [hk, hk', hle]
  case isFalse hnext =>
    rw [hlow]
    by_cases hk : p / 8 = k
    case pos =>
      have hsub : p - 7 * i = p % 8 - shift := by omega
      have hiff : 7 * i ≤ p ∧ p < 8 * out.length ↔ k < out.length ∧ shift ≤ p % 8 := by omega
      simp only [hk, true_and, hiff, hsub]
    case neg =>
      by_cases hin : 7 * i ≤ p ∧ p < 8 * out.length
      case pos => simp [hk, hhigh (show 7 ≤ p - 7 * i by omega)]
      case neg => simp [hk, hin]

theorem bitAt_packSeptets {septets : List UInt8} (h : ∀ septet ∈ septets, septet.toNat < 128) (k : Nat) (out : List UInt8)
    (p : Nat) : bitAt 8 ((septets.zipIdx k).foldl (fun out (septet, i) => packSeptet out septet i) out) p =
      (bitAt 8 out p || (decide (7 * k ≤ p ∧ p < 8 * out.length) && bitAt 7 septets (p - 7 * k))) := by
  induction septets generalizing k out
  case nil => simp [bitAt]
  case cons septet septets hi =>
    obtain ⟨hseptet, hseptets⟩ := List.forall_mem_cons.mp h
    rw [List.zipIdx_cons, List.foldl_cons, hi hseptets, bitAt_packSeptet hseptet, length_packSeptet]
    by_cases hfirst : p < 7 * k + 7
    case pos =>
      by_cases hle : 7 * k ≤ p
      case pos => simp [bitAt_cons_of_lt (show p - 7 * k < 7 by omega), show ¬7 * (k + 1) ≤ p by omega]
      case neg => simp [hle, show ¬7 * (k + 1) ≤ p by omega]
    case neg =>
      have hhigh : septet.toNat.testBit (p - 7 * k) = false := by
        have hpow : 2 ^ 7 ≤ 2 ^ (p - 7 * k) := Nat.pow_le_pow_right (by decide) (by omega)
        exact Nat.testBit_lt_two_pow (by omega)
      have hsub : p - 7 * k - 7 = p - 7 * (k + 1) := by omega
      simp [hhigh, bitAt_cons_of_le (by decide) (show 7 ≤ p - 7 * k by omega), hsub, show 7 * k ≤ p by omega,
        show 7 * (k + 1) ≤ p by omega]

def packSeptets (septets : List UInt8) : List UInt8 :=
  septets.zipIdx.foldl (fun out (septet, i) => packSeptet out septet i)
    (List.replicate ((septets.length * 7 + 7) / 8) 0)

theorem length_packSeptets (septets : List UInt8) : (packSeptets septets).length = (septets.length * 7 + 7) / 8 := by
  rw [packSeptets, length_foldl_packSeptet, List.length_replicate]

theorem bitAt_packSeptets_eq {septets : List UInt8} (h : ∀ septet ∈ septets, septet.toNat < 128) (p : Nat) :
    bitAt 8 (packSeptets septets) p = bitAt 7 septets p := by
  rw [packSeptets, bitAt_packSeptets h, bitAt_replicate_zero, List.length_replicate]
  by_cases hp : p < 8 * ((septets.length * 7 + 7) / 8)
  case pos => simp [hp]
  case neg => simp [hp, bitAt_of_length_le (show septets.length ≤ p / 7 by omega)]

theorem testBit_and_7F (v : UInt8) (q : Nat) : (v &&& 0x7F).toNat.testBit q = (decide (q < 7) && v.toNat.testBit q) := by
  have hmask : (0x7F : UInt8).toNat = 2 ^ 7 - 1 := rfl
  rw [UInt8.toNat_and, Nat.testBit_and, hmask, Nat.testBit_two_pow_sub_one, Bool.and_comm]

theorem unpackSeptet_bits {body : List UInt8} {i : Nat} (h : i * 7 / 8 < body.length) :
    ∃ value, unpackSeptet body i = some value ∧
      ∀ q, value.toNat.testBit q = (decide (q < 7) && bitAt 8 body (7 * i + q)) := by
  have hdiv : 8 * (i * 7 / 8) + i * 7 % 8 = 7 * i := by omega
  have hshift : i * 7 % 8 < 8 := Nat.mod_lt _ (by decide)
  unfold unpackSeptet
  dsimp only
  generalize i * 7 / 8 = k at *
  generalize i * 7 % 8 = shift at *
  have hlow (q : Nat) : (body[k] >>> UInt8.ofNat shift &&& 0x7F).toNat.testBit q =
      (decide (q < 7) && body[k].toNat.testBit (shift + q)) := by
    rw [testBit_and_7F, testBit_shiftRight hshift]
  have hhere {q : Nat} (hq : shift + q < 8) : bitAt 8 body (7 * i + q) = body[k].toNat.testBit (shift + q) := by
    have hindex : (7 * i + q) / 8 = k := by omega
    have hbit : (7 * i + q) % 8 = shift + q := by omega
    simp only [bitAt, hindex, hbit, List.getD_eq_getElem?_getD, List.getElem?_eq_getElem h, Option.getD_some]
  have hbeyond {q : Nat} (hq : 8 ≤ shift + q) : body[k].toNat.testBit (shift + q) = false := by
    have hpow : 2 ^ 8 ≤ 2 ^ (shift + q) := Nat.pow_le_pow_right (by decide) hq
    have hbyte := body[k].toNat_lt
    exact Nat.testBit_lt_two_pow (by omega)
  have hthere {q : Nat} (hq : 8 ≤ shift + q) (hseven : q < 7) :
      bitAt 8 body (7 * i + q) = (body.getD (k + 1) 0).toNat.testBit (q - (8 - shift)) := by
    have hindex : (7 * i + q) / 8 = k + 1 := by omega
    have hbit : (7 * i + q) % 8 = q - (8 - shift) := by omega
    rw [bitAt, hindex, hbit]
  -- Without bits of the next byte the row has none there either.
  have hcut (hno : shift ≤ 1 ∨ body[k + 1]? = none) (q : Nat) :
      (body[k] >>> UInt8.ofNat shift &&& 0x7F).toNat.testBit q = (decide (q < 7) && bitAt 8 body (7 * i + q)) := by
    rw [hlow]
    by_cases hseven : q < 7
    case neg => simp [hseven]
    case pos =>
      by_cases hq : shift + q < 8
      case pos => rw [hhere hq]
      case neg =>
        have hnone := hno.resolve_left (by omega)
        rw [hbeyond (by omega), hthere (by omega) hseven]
        simp [hnone]
  rw [List.getElem?_eq_getElem h]
  cases hnext : body[k + 1]?
  case none => exact ⟨_, rfl, hcut (.inr hnext)⟩
  case some high =>
    by_cases hone : shift > 1
    case neg => exact ⟨_, by simp [hone], hcut (.inl (by omega))⟩
    case pos =>
      refine ⟨body[k] >>> UInt8.ofNat shift &&& 0x7F ||| high <<< UInt8.ofNat (8 - shift) &&& 0x7F, by simp [hone], ?_⟩
      intro q
      by_cases hseven : q < 7
      case neg => simp only [UInt8.toNat_or, Nat.testBit_or, testBit_and_7F, hseven, decide_false, Bool.false_and, Bool.or_self]
      case pos =>
        have hhigh : (high <<< UInt8.ofNat (8 - shift) &&& 0x7F).toNat.testBit q =
            (decide (8 - shift ≤ q) && high.toNat.testBit (q - (8 - shift))) := by
          rw [testBit_and_7F, testBit_shiftLeft (by omega) (by omega)]
          simp [hseven]
        rw [UInt8.toNat_or, Nat.testBit_or, hlow, hhigh]
        by_cases hq : shift + q < 8
        case pos => simp [hseven, hhere hq, show ¬8 - shift ≤ q by omega]
        case neg =>
          rw [hthere (by omega) hseven, hbeyond (by omega)]
          simp [hnext, hseven, show 8 - shift ≤ q by omega]

theorem unpackSeptet_packSeptets {septets : List UInt8} (h : ∀ septet ∈ septets, septet.toNat < 128) {i : Nat}
    (hi : i * 7 / 8 < (packSeptets septets).length) : unpackSeptet (packSeptets septets) i = some (septets.getD i 0) := by
  obtain ⟨value, hvalue, hbits⟩ := unpackSeptet_bits hi
  rw [hvalue]
  have hsmall : value.toNat < 2 ^ 7 := by
    refine Nat.lt_pow_two_of_testBit _ fun q hq => ?_
    rw [hbits, decide_eq_false (by omega), Bool.false_and]
  have hseptet : (septets.getD i 0).toNat < 2 ^ 7 := by
    by_cases hlt : i < septets.length
    case pos =>
      rw [List.getD_eq_getElem _ _ hlt]
      exact h _ (List.getElem_mem hlt)
    case neg =>
      rw [List.getD_eq_default _ _ (Nat.le_of_not_lt hlt)]
      decide
  refine congrArg some (eq_of_bits hsmall hseptet fun q hq => ?_)
  have hindex : (7 * i + q) / 7 = i := by omega
  have hbit : (7 * i + q) % 7 = q := by omega
  rw [hbits, bitAt_packSeptets_eq h, bitAt, hindex, hbit]
  simp [hq]

theorem rawSeptets_packSeptets {septets : List UInt8} (h : ∀ septet ∈ septets, septet.toNat < 128) :
    rawSeptets (packSeptets septets) = if septets.length % 8 = 7 then septets ++ [0] else septets := by
  have hall : rawSeptets (packSeptets septets) =
      (List.range ((packSeptets septets).length * 8 / 7)).map fun i => septets.getD i 0 := by
    rw [rawSeptets, ← List.filterMap_eq_map]
    refine List.filterMap_congr fun i hi => ?_
    have hlt := List.mem_range.mp hi
    exact unpackSeptet_packSeptets h (by omega)
  have hwhole : ((List.range septets.length).map fun i => septets.getD i 0) = septets := by
    refine List.ext_getElem (by simp) fun i h₁ h₂ => ?_
    simp [List.getElem?_eq_getElem h₂]
  have hbytes : (septets.length * 7 + 7) / 8 = 7 * (septets.length / 8) + septets.length % 8 := by omega
  rw [hall, length_packSeptets, hbytes]
  split
  case isTrue hseven =>
    have hcount : (7 * (septets.length / 8) + septets.length % 8) * 8 / 7 = septets.length + 1 := by omega
    rw [hcount, List.range_succ, List.map_append, hwhole]
    simp
  case isFalse hseven =>
    have hcount : (7 * (septets.length / 8) + septets.length % 8) * 8 / 7 = septets.length := by omega
    rw [hcount, hwhole]

-- The octets of a multiple of seven end in padding or in a septet, and a zero there is taken for padding.
theorem unpackSeptets_packSeptets {septets : List UInt8} (h : ∀ septet ∈ septets, septet.toNat < 128) :
    unpackSeptets (packSeptets septets) =
      if septets.length % 8 = 0 ∧ septets.getLast? = some 0 then septets.dropLast else septets := by
  have hdef : unpackSeptets (packSeptets septets) =
      if (packSeptets septets).length % 7 = 0 ∧ (rawSeptets (packSeptets septets)).getLast? = some 0 then
        (rawSeptets (packSeptets septets)).dropLast
      else
        rawSeptets (packSeptets septets) := rfl
  rw [hdef, rawSeptets_packSeptets h, length_packSeptets]
  by_cases hseven : septets.length % 8 = 7
  case pos =>
    have hmod : (septets.length * 7 + 7) / 8 % 7 = 0 := by omega
    simp [hseven, hmod]
  case neg =>
    have hmod : (septets.length * 7 + 7) / 8 % 7 = 0 ↔ septets.length % 8 = 0 := by omega
    simp only [if_neg hseven, hmod]

-- The runes of the default alphabet, without the place of the escape, and of its extension.
def InAlphabet (r : Char) : Prop :=
  (r ∈ gsm7DefaultRunes ∧ r ≠ '\x00') ∨ r ∈ gsm7ExtToRune.map Prod.snd

instance (r : Char) : Decidable (InAlphabet r) :=
  inferInstanceAs (Decidable (_ ∨ _))

theorem InAlphabet.code {r : Char} (h : InAlphabet r) : (gsm7DefaultCodes r).isSome ∨ (gsm7RuneToExt r).isSome := by
  rcases h with ⟨hm, hzero⟩ | hm
  case inl =>
    left
    rw [gsm7DefaultCodes, if_neg hzero, Option.isSome_map]
    exact List.isSome_idxOf?.mpr hm
  case inr =>
    right
    obtain ⟨e, he, rfl⟩ := List.mem_map.mp hm
    rw [gsm7RuneToExt, Option.isSome_map, List.find?_isSome]
    exact ⟨e, he, by simp⟩

theorem gsm7Septets_lt {r : Char} : ∀ septet ∈ gsm7Septets r, septet.toNat < 128 := by
  have hext : ∀ e ∈ gsm7ExtToRune, e.1.toNat < 128 := by decide
  unfold gsm7Septets
  cases hcode : gsm7DefaultCodes r
  case some code =>
    obtain ⟨hrune, -⟩ := gsm7DefaultRunes_of_code hcode
    obtain ⟨hlt, -⟩ := List.getElem?_eq_some_iff.mp hrune
    exact List.forall_mem_singleton.mpr hlt
  case none =>
    cases hr : gsm7RuneToExt r
    case none => exact List.forall_mem_singleton.mpr (by decide)
    case some code =>
      obtain ⟨e, he, rfl⟩ := Option.map_eq_some_iff.mp hr
      simpa using hext e (List.mem_of_find?_eq_some he)

theorem gsm7Septets_ne_nil (r : Char) : gsm7Septets r ≠ [] := by
  rw [← List.length_pos_iff, length_gsm7Septets]
  split <;> decide

theorem gsm7Septets_getLast_eq_zero {r : Char} (h : InAlphabet r) : (gsm7Septets r).getLast? = some 0 ↔ r = '@' := by
  have hext : ∀ e ∈ gsm7ExtToRune, e.1 ≠ 0 := by decide
  constructor
  case mpr => rintro rfl; decide
  case mp =>
    intro hlast
    unfold gsm7Septets at hlast
    cases hcode : gsm7DefaultCodes r
    case some code =>
      simp only [hcode, List.getLast?_singleton, Option.some.injEq] at hlast
      subst hlast
      obtain ⟨hrune, -⟩ := gsm7DefaultRunes_of_code hcode
      exact (Option.some.inj hrune).symm
    case none =>
      obtain ⟨code, hr⟩ := Option.isSome_iff_exists.mp (h.code.resolve_left (by simp [hcode]))
      simp only [hcode, hr] at hlast
      obtain ⟨e, he, rfl⟩ := Option.map_eq_some_iff.mp hr
      exact absurd (Option.some.inj hlast) (hext e (List.mem_of_find?_eq_some he))

-- What comes back is the text, but for a commercial at that ends a multiple of eight septets.
theorem decodeGSM7Packed_encodeGSM7Packed {rs : List Char} (h : ∀ r ∈ rs, InAlphabet r) :
    decodeGSM7Packed (encodeGSM7Packed (utf8 rs)) =
      if 0 < (encodeGSM7Unpacked (utf8 rs)).length ∧ 8 ∣ (encodeGSM7Unpacked (utf8 rs)).length ∧
          rs.getLast? = some '@' then
        utf8 rs.dropLast
      else
        utf8 rs := by
  have hlt : ∀ septet ∈ rs.flatMap gsm7Septets, septet.toNat < 128 := by
    intro septet hm
    obtain ⟨r, -, hr⟩ := List.mem_flatMap.mp hm
    exact gsm7Septets_lt septet hr
  have hpack : encodeGSM7Packed (utf8 rs) = packSeptets (rs.flatMap gsm7Septets) := by
    rw [encodeGSM7Packed, runes_utf8, packSeptets]
  rw [decodeGSM7Packed, hpack, unpackSeptets_packSeptets hlt, encodeGSM7Unpacked, runes_utf8]
  rcases List.eq_nil_or_concat' rs with rfl | ⟨front, r, rfl⟩
  case inl => rfl
  case inr =>
    obtain ⟨hfront, hr⟩ := List.forall_mem_append.mp h
    have hrlast := hr r (List.mem_singleton_self r)
    have hpos : 0 < ((front ++ [r]).flatMap gsm7Septets).length := by
      rw [List.length_pos_iff, List.flatMap_append, List.flatMap_singleton]
      exact List.append_ne_nil_of_right_ne_nil _ (gsm7Septets_ne_nil r)
    have hlast : ((front ++ [r]).flatMap gsm7Septets).getLast? = some 0 ↔ (front ++ [r]).getLast? = some '@' := by
      rw [List.flatMap_append, List.flatMap_singleton, List.getLast?_append_of_ne_nil _ (gsm7Septets_ne_nil r),
        gsm7Septets_getLast_eq_zero hrlast]
      simp
    simp only [hpos, true_and, hlast, Nat.dvd_iff_mod_eq_zero]
    split
    case isFalse => rw [decodeSeptets_flatMap fun r hm => (h r hm).code]
    case isTrue hboth =>
      obtain rfl : r = '@' := by simpa using hboth.2
      have hdrop : ((front ++ ['@']).flatMap gsm7Septets).dropLast = front.flatMap gsm7Septets := by
        have hat : gsm7Septets '@' = [0] := by decide
        rw [List.flatMap_append, List.flatMap_singleton, hat, List.dropLast_concat]
      rw [hdrop, List.dropLast_concat, decodeSeptets_flatMap fun r hm => (hfront r hm).code]

theorem decodeGSM7Packed_encodeGSM7Packed_euros :
    decodeGSM7Packed (encodeGSM7Packed (utf8 ['€', '€', '€', '@', '@'])) = utf8 ['€', '€', '€', '@'] := by
  have heuro : InAlphabet '€' := by decide
  have hat : InAlphabet '@' := by decide
  rw [decodeGSM7Packed_encodeGSM7Packed (by simp [heuro, hat])]
  decide

end SmppGateway
