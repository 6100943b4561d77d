import Mathlib.Data.Nat.Digits.Lemmas
import SmppGateway.Go.Str

-- `strconv.FormatUint`, and what `strconv.ParseUint` makes of its result; `strconv.Atoi`.

namespace Go

def digitByte (d : Nat) : UInt8 :=
  if d < 10 then .ofNat ('0'.toNat + d) else .ofNat ('a'.toNat + (d - 10))

def formatUintBase (v : UInt64) (base : Nat) : Str :=
  if v = 0 then lit "0" else (base.digits v.toNat).reverse.map digitByte

-- The number that `strconv.Atoi` returns, with or without an error: 0 for what is no number, the nearest `int64`
-- for one that is too large, where reading stops once it is beyond a `uint64`.
def atoi (s : Str) : Int :=
  match s with
  | b :: rest =>
    if b = '-'.toUInt8 then
      max (-(magnitude rest : Int)) (-2 ^ 63)
    else if b = '+'.toUInt8 then
      min (magnitude rest) (2 ^ 63 - 1)
    else
      min (magnitude s) (2 ^ 63 - 1)
  | [] => 0
where
  magnitude (s : Str) : Nat :=
    (go 0 s).getD 0
  go (n : Nat) : Str → Option Nat
    | []        => some n
    | b :: rest =>
      if isDigit b then
        let next := 10 * n + digit b
        if next < 2 ^ 64 then go next rest else some (2 ^ 64 - 1)
      else
        none

theorem digitVal_digitByte {d : Nat} (h : d < 36) : digitVal (digitByte d) = some d := by
  have hall : ∀ d : Fin 36, digitVal (digitByte d) = some d.val := by decide
  exact hall ⟨d, h⟩

theorem foldl_digits (base : Nat) (ds : List Nat) :
    ds.foldl (fun n d => n * base + d) 0 = Nat.ofDigits base ds.reverse := by
  rw [Nat.ofDigits_eq_foldr, List.foldr_reverse]
  congr 1
  funext n d
  simp [Nat.add_comm, Nat.mul_comm]

theorem parseUint_digits {base : Nat} (hb : base ≤ 36) {ds : List Nat} (hd : ∀ d ∈ ds, d < base) (hne : ds ≠ []) :
    parseUint (ds.map digitByte) base =
      if Nat.ofDigits base ds.reverse < 2 ^ 64 then some (.ofNat (Nat.ofDigits base ds.reverse)) else none := by
  have hfold : ∀ n, (ds.map digitByte).foldlM (fun n b => do
      let d ← digitVal b
      if d < base then some (n * base + d) else none) n = some (ds.foldl (fun n d => n * base + d) n) := by
    clear hne
    induction ds
    case nil => exact fun _ => rfl
    case cons d ds hi =>
      intro n
      obtain ⟨hlt, hds⟩ := List.forall_mem_cons.mp hd
      rw [List.map_cons, List.foldlM_cons, digitVal_digitByte (Nat.lt_of_lt_of_le hlt hb)]
      simp only [Option.bind_eq_bind, Option.bind_some, if_pos hlt]
      exact hi hds _
  have hnil : ds.map digitByte ≠ [] := by simpa using hne
  simp only [Option.bind_eq_bind] at hfold
  simp [parseUint, hnil, hfold, foldl_digits]

theorem leftpad_format (v : UInt64) {base : Nat} (hb : 1 < base) (width : Nat) :
    ∃ ds : List Nat, (formatUintBase v base).leftpad width '0'.toUInt8 = ds.map digitByte ∧ ds ≠ [] ∧
      (∀ d ∈ ds, d < base) ∧ Nat.ofDigits base ds.reverse = v.toNat := by
  have hzero : '0'.toUInt8 = digitByte 0 := by decide
  have hpad : ∃ pad, (formatUintBase v base).leftpad width '0'.toUInt8 =
      (List.replicate pad 0 ++ (base.digits v.toNat).reverse).map digitByte ∧
        List.replicate pad 0 ++ (base.digits v.toNat).reverse ≠ [] := by
    by_cases hv : v = 0
    case pos =>
      subst hv
      refine ⟨width - 1 + 1, ?_, by simp [List.replicate_succ]⟩
      simp [formatUintBase, List.leftpad, List.replicate_succ', hzero, lit]
      rfl
    case neg =>
      have hn : v.toNat ≠ 0 := fun h => hv (UInt64.toNat_inj.mp h)
      refine ⟨width - (base.digits v.toNat).length, ?_, by simp [Nat.digits_eq_nil_iff_eq_zero, hn]⟩
      simp [formatUintBase, hv, List.leftpad, hzero]
  obtain ⟨pad, heq, hne⟩ := hpad
  refine ⟨_, heq, hne, fun d hd => ?_, ?_⟩
  case refine_1 =>
    rcases List.mem_append.mp hd with hd | hd
    case inl => rw [List.eq_of_mem_replicate hd]; omega
    case inr => exact Nat.digits_lt_base hb (List.mem_reverse.mp hd)
  case refine_2 =>
    rw [List.reverse_append, List.reverse_reverse, List.reverse_replicate, Nat.ofDigits_append_replicate_zero,
      Nat.ofDigits_digits]

theorem parseUint_leftpad_format (v : UInt64) {base : Nat} (hb : 1 < base) (hb' : base ≤ 36) (width : Nat) :
    parseUint ((formatUintBase v base).leftpad width '0'.toUInt8) base = some v := by
  obtain ⟨ds, heq, hne, hdigits, hvalue⟩ := leftpad_format v hb width
  rw [heq, parseUint_digits hb' hdigits hne, hvalue, if_pos v.toNat_lt, UInt64.ofNat_toNat]

theorem length_formatUintBase_le {v : UInt64} {base width : Nat} (hb : 1 < base) (hw : 1 ≤ width)
    (hv : v.toNat < base ^ width) : (formatUintBase v base).length ≤ width := by
  unfold formatUintBase
  split
  case isTrue => exact hw
  case isFalse =>
    rw [List.length_map, List.length_reverse]
    exact (Nat.digits_length_le_iff hb _).mpr hv

theorem isDigit_digitByte {d : Nat} (h : d < 10) : isDigit (digitByte d) = true := by
  have hall : ∀ d : Fin 10, isDigit (digitByte d) = true := by decide
  exact hall ⟨d, h⟩

theorem digit_digitByte {d : Nat} (h : d < 10) : digit (digitByte d) = d := by
  have hall : ∀ d : Fin 10, digit (digitByte d) = d.val := by decide
  exact hall ⟨d, h⟩

theorem le_foldl_digits (n : Nat) (ds : List Nat) : n ≤ ds.foldl (fun n d => n * 10 + d) n := by
  induction ds generalizing n
  case nil => exact Nat.le_refl n
  case cons d ds hi => exact Nat.le_trans (by omega) (hi (n * 10 + d))

theorem atoi.go_digits {n : Nat} {ds : List Nat} (hd : ∀ d ∈ ds, d < 10)
    (hlt : ds.foldl (fun n d => n * 10 + d) n < 2 ^ 64) :
    atoi.go n (ds.map digitByte) = some (ds.foldl (fun n d => n * 10 + d) n) := by
  induction ds generalizing n
  case nil => rfl
  case cons d ds hi =>
    obtain ⟨hd, hds⟩ := List.forall_mem_cons.mp hd
    have hnext : 10 * n + d = n * 10 + d := by omega
    rw [List.foldl_cons] at hlt ⊢
    simp only [List.map_cons, go, isDigit_digitByte hd, digit_digitByte hd, if_true, hnext]
    rw [if_pos (Nat.lt_of_le_of_lt (le_foldl_digits _ ds) hlt), hi hds hlt]

theorem atoi_leftpad_format {v : UInt64} (hv : v.toNat < 2 ^ 63) (width : Nat) :
    atoi ((formatUintBase v 10).leftpad width '0'.toUInt8) = v.toNat := by
  obtain ⟨ds, heq, hne, hdigits, hvalue⟩ := leftpad_format v (by decide : 1 < 10) width
  obtain ⟨d, ds, rfl⟩ := List.exists_cons_of_ne_nil hne
  have hsign : ∀ d : Fin 10, digitByte d ≠ '-'.toUInt8 ∧ digitByte d ≠ '+'.toUInt8 := by decide
  obtain ⟨hminus, hplus⟩ := hsign ⟨d, hdigits d List.mem_cons_self⟩
  have hfold : (d :: ds).foldl (fun n d => n * 10 + d) 0 = v.toNat := by rw [foldl_digits, hvalue]
  have hmagnitude : atoi.magnitude ((d :: ds).map digitByte) = v.toNat := by
    rw [atoi.magnitude, atoi.go_digits hdigits (by rw [hfold]; exact v.toNat_lt), hfold]
    rfl
  rw [heq, List.map_cons, atoi]
  rw [List.map_cons] at hmagnitude
  simp only [if_neg hminus, if_neg hplus, hmagnitude]
  omega

end Go
