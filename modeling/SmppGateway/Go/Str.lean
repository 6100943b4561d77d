import Mathlib.Algebra.Order.Ring.Int
import Mathlib.Data.List.DropRight

-- A Go string is a sequence of bytes. Nothing makes these bytes valid UTF-8: `range` and the
-- conversion to runes read an ill-formed byte as U+FFFD, one byte wide.

namespace Go

abbrev Str := List UInt8

instance : LawfulBEq Str := inferInstance

def utf8 (runes : List Char) : Str :=
  runes.flatMap String.utf8EncodeChar

def lit (s : String) : Str :=
  utf8 s.toList

def runeError : Char := Char.ofNat 0xFFFD

-- The first rune of a non-empty string and its width in bytes (`utf8.DecodeRuneInString`).
def decodeRune (s : Str) : Char × Nat :=
  match s.toByteArray.utf8DecodeChar? 0 with
  | some c => (c, c.utf8Size)
  | none   => (runeError, 1)

-- What `for i, r := range s` visits: the byte offset and the rune of each step.
def range (s : Str) : List (Nat × Char) :=
  go s.length 0 s
where
  go : Nat → Nat → Str → List (Nat × Char)
    | 0, _, _ => []
    | _, _, [] => []
    | fuel + 1, off, b :: bs =>
      let (r, n) := decodeRune (b :: bs)
      (off, r) :: go fuel (off + n) ((b :: bs).drop n)

def runes (s : Str) : List Char :=
  (range s).map Prod.snd

def trimPrefix (s p : Str) : Str :=
  if p <+: s then s.drop p.length else s

def isSpace (c : Char) : Bool :=
  c.toNat ∈ [0x09, 0x0A, 0x0B, 0x0C, 0x0D, 0x20, 0x85, 0xA0, 0x1680, 0x2028, 0x2029, 0x202F, 0x205F,
    0x3000] || (0x2000 ≤ c.toNat && c.toNat ≤ 0x200A)

def trimSpace (runes : List Char) : List Char :=
  (runes.dropWhile isSpace).rdropWhile isSpace

-- `unicode.ToUpper` for the runes whose upper case is an ASCII letter (the dotless i and the long s are
-- the two outside ASCII). Any other rune stays as it is, so that a result is right wherever it is ASCII.
def upper (c : Char) : Char :=
  if c = 'ı' then
    'I'
  else if c = 'ſ' then
    'S'
  else if 'a'.toNat ≤ c.toNat ∧ c.toNat ≤ 'z'.toNat then
    Char.ofNat (c.toNat - 32)
  else
    c

def upperTrim (s : Str) : Str :=
  utf8 ((trimSpace (runes s)).map upper)

-- The rune that stands for all runes `strings.EqualFold` takes for the same, as far as ASCII letters are
-- concerned: the long s and the Kelvin sign fold to one.
def fold (c : Char) : Char :=
  if 'A'.toNat ≤ c.toNat ∧ c.toNat ≤ 'Z'.toNat then
    Char.ofNat (c.toNat + 32)
  else if c = 'ſ' then
    's'
  else if c.toNat = 0x212A then
    'k'
  else
    c

def equalFold (s t : Str) : Bool :=
  (runes s).map fold = (runes t).map fold

def isDigit (b : UInt8) : Bool :=
  '0'.toUInt8 ≤ b && b ≤ '9'.toUInt8

def digit (b : UInt8) : Nat :=
  b.toNat - '0'.toNat

-- The value of a digit of `strconv.ParseUint`: letters count on from ten in either case.
def digitVal (b : UInt8) : Option Nat :=
  let lower := b ||| 0x20
  if isDigit b then
    some (digit b)
  else if 'a'.toUInt8 ≤ lower && lower ≤ 'z'.toUInt8 then
    some (lower.toNat - 'a'.toNat + 10)
  else
    none

def parseUint (s : Str) (base : Nat) : Option UInt64 := do
  if s = [] then
    none
  let n ← s.foldlM (fun n b => do
    let d ← digitVal b
    if d < base then some (n * base + d) else none) 0
  if n < 2 ^ 64 then some (.ofNat n) else none

@[simp]
theorem utf8_nil : utf8 [] = [] := rfl

@[simp]
theorem utf8_cons (c : Char) (cs : List Char) : utf8 (c :: cs) = String.utf8EncodeChar c ++ utf8 cs :=
  rfl

@[simp]
theorem utf8_append (cs ds : List Char) : utf8 (cs ++ ds) = utf8 cs ++ utf8 ds := by
  simp [utf8]

theorem decodeRune_utf8 (c : Char) (s : Str) :
    decodeRune (String.utf8EncodeChar c ++ s) = (c, c.utf8Size) := by
  simp [decodeRune, ByteArray.utf8DecodeChar?_utf8EncodeChar_append]

-- Ranging over a well-formed string visits its runes in order, each at the byte offset where its
-- encoding starts.
theorem range.go_utf8 (cs : List Char) (fuel off : Nat) (h : (utf8 cs).length ≤ fuel) :
    range.go fuel off (utf8 cs) =
      cs.zipIdx.map fun (c, i) => (off + (utf8 (cs.take i)).length, c) := by
  induction cs generalizing fuel off
  case nil => cases fuel <;> simp [go]
  case cons c cs hi =>
    obtain ⟨b, bs, hb⟩ := List.exists_cons_of_ne_nil (String.utf8EncodeChar_ne_nil (c := c))
    have hl : bs.length + 1 = c.utf8Size := by rw [← String.length_utf8EncodeChar, hb]; simp
    have hd : decodeRune (b :: (bs ++ utf8 cs)) = (c, c.utf8Size) := by
      have := decodeRune_utf8 c (utf8 cs)
      rwa [hb] at this
    cases fuel
    case zero => simp [hb] at h
    case succ fuel =>
      have hf : (utf8 cs).length ≤ fuel := by simp [hb] at h; omega
      simp only [utf8_cons, hb, List.cons_append, go, hd, ← hl, List.drop_succ_cons,
        List.drop_left]
      rw [hi fuel _ hf]
      simp [List.zipIdx_succ, List.zipIdx_cons, hb, Function.comp_def]
      intro d i _
      omega

theorem range_utf8 (cs : List Char) :
    range (utf8 cs) = cs.zipIdx.map fun (c, i) => ((utf8 (cs.take i)).length, c) := by
  simp [range, range.go_utf8 cs _ 0 (Nat.le_refl _)]

@[simp]
theorem runes_utf8 (cs : List Char) : runes (utf8 cs) = cs := by
  simp [runes, range_utf8, Function.comp_def]

theorem decodeRune_cases (s : Str) :
    (∃ c, decodeRune s = (c, c.utf8Size) ∧ s = String.utf8EncodeChar c ++ s.drop c.utf8Size) ∨
    decodeRune s = (runeError, 1) := by
  unfold decodeRune
  split
  case h_1 c hc =>
    refine .inl ⟨c, rfl, ?_⟩
    have h := congrArg (fun b => b.data.toList) (ByteArray.eq_of_utf8DecodeChar?_eq_some hc)
    simp only [List.data_toByteArray, ByteArray.data_append, ByteArray.data_extract, Array.toList_append,
      Array.toList_extract, List.size_toByteArray, List.extract_eq_take_drop] at h
    rwa [List.take_of_length_le (by simp)] at h
  case h_2 => exact .inr rfl

theorem range.go_runes (fuel off : Nat) (s : Str) (hf : s.length ≤ fuel)
    (h : runeError ∉ (range.go fuel off s).map Prod.snd) : utf8 ((range.go fuel off s).map Prod.snd) = s := by
  induction fuel generalizing off s
  case zero => rw [List.length_eq_zero_iff.mp (Nat.le_zero.mp hf)]; rfl
  case succ fuel hi =>
    cases s
    case nil => rfl
    case cons b bs =>
      rw [go, List.map_cons] at h ⊢
      rw [List.mem_cons, not_or] at h
      cases decodeRune_cases (b :: bs)
      case inr he => rw [he] at h; exact absurd rfl h.1
      case inl hc =>
        obtain ⟨c, he, hs⟩ := hc
        rw [he] at h ⊢
        have hlen : ((b :: bs).drop c.utf8Size).length ≤ fuel := by
          have := c.utf8Size_pos
          simp only [List.length_drop, List.length_cons] at hf ⊢
          omega
        rw [utf8_cons, hi _ _ hlen h.2]
        exact hs.symm

theorem utf8_runes {s : Str} (h : runeError ∉ runes s) : utf8 (runes s) = s :=
  range.go_runes s.length 0 s (Nat.le_refl _) h

theorem upper_lower_case {n : Nat} (h₁ : 97 ≤ n) (h₂ : n ≤ 122) :
    isSpace (Char.ofNat (n - 32)) = isSpace (Char.ofNat n) ∧
    upper (Char.ofNat (n - 32)) = Char.ofNat (n - 32) := by
  have h : ∀ n < 123, 97 ≤ n → isSpace (Char.ofNat (n - 32)) = isSpace (Char.ofNat n) ∧
    upper (Char.ofNat (n - 32)) = Char.ofNat (n - 32) := by decide
  exact h n (by omega) h₁

theorem isSpace_upper (c : Char) : isSpace (upper c) = isSpace c := by
  unfold upper
  split_ifs with h₁ h₂ h₃
  case pos => subst h₁; decide
  case pos => subst h₂; decide
  case pos => rw [(upper_lower_case h₃.1 h₃.2).1, Char.ofNat_toNat]
  case neg => rfl

theorem upper_upper (c : Char) : upper (upper c) = upper c := by
  conv_lhs => arg 1; unfold upper
  conv_rhs => unfold upper
  split_ifs with h₁ h₂ h₃
  case pos => decide
  case pos => decide
  case pos => exact (upper_lower_case h₃.1 h₃.2).2
  case neg => rw [upper, if_neg h₁, if_neg h₂, if_neg h₃]

theorem trimSpace_trimSpace (cs : List Char) : trimSpace (trimSpace cs) = trimSpace cs := by
  unfold trimSpace
  -- What is left after trimming both ends starts as what is left after trimming the front.
  have h : ((cs.dropWhile isSpace).rdropWhile isSpace).dropWhile isSpace =
      (cs.dropWhile isSpace).rdropWhile isSpace := by
    rw [List.dropWhile_eq_self_iff]
    intro hl
    have hp := List.rdropWhile_prefix isSpace (cs.dropWhile isSpace)
    rw [hp.getElem hl]
    exact List.dropWhile_get_zero_not _ _ _
  rw [h, List.rdropWhile_idempotent]

theorem trimSpace_map_upper (cs : List Char) : trimSpace (cs.map upper) = (trimSpace cs).map upper := by
  have h : isSpace ∘ upper = isSpace := funext isSpace_upper
  simp only [trimSpace, List.rdropWhile, List.dropWhile_map, ← List.map_reverse, h]

@[simp]
theorem upperTrim_upperTrim (s : Str) : upperTrim (upperTrim s) = upperTrim s := by
  simp [upperTrim, trimSpace_map_upper, trimSpace_trimSpace, Function.comp_def, upper_upper]

theorem utf8_injective : Function.Injective utf8 := by
  intro cs ds h
  rw [← runes_utf8 cs, h, runes_utf8]

example : runes (lit "a€") = ['a', '€'] := by decide

example : parseUint (lit "1Z") 36 = some 71 := by decide

example : runes [0x61, 0xFF, 0x62] = ['a', runeError, 'b'] := by decide

end Go
