import SmppGateway.Go.Str
import SmppGateway.Lib.Search

-- The part of `regexp` that the program uses: a word boundary, letters in either case, runs of one class, and a
-- group at the end. With it what else of `strings` works rune by rune.

namespace Go

open Search

abbrev Piece := Char × Str

def pieces (s : Str) : List Piece :=
  (range s).map fun (off, r) => (r, (s.drop off).take (decodeRune (s.drop off)).2)

def piece (c : Char) : Piece :=
  (c, String.utf8EncodeChar c)

def bytes (xs : List Piece) : Str :=
  xs.flatMap (·.2)

theorem pieces_utf8 (cs : List Char) : pieces (utf8 cs) = cs.map piece := by
  rw [pieces, range_utf8, List.map_map]
  have hfst : cs.map piece = (cs.zipIdx.map Prod.fst).map piece := by rw [List.zipIdx_map_fst]
  rw [hfst, List.map_map]
  refine List.map_congr_left fun x hx => ?_
  obtain ⟨c, i⟩ := x
  obtain ⟨hi, rfl⟩ := List.getElem?_eq_some_iff.mp (List.mk_mem_zipIdx_iff_getElem?.mp hx)
  have hdrop : (utf8 cs).drop (utf8 (cs.take i)).length = String.utf8EncodeChar cs[i] ++ utf8 (cs.drop (i + 1)) := by
    have hsplit : utf8 cs = utf8 (cs.take i) ++ utf8 (cs.drop i) := by rw [← utf8_append, List.take_append_drop]
    rw [hsplit, List.drop_left, List.drop_eq_getElem_cons hi, utf8_cons]
  simp only [Function.comp_apply, hdrop, decodeRune_utf8, piece]
  rw [← String.length_utf8EncodeChar, List.take_left]

@[simp]
theorem bytes_map_piece (cs : List Char) : bytes (cs.map piece) = utf8 cs := by
  simp [bytes, piece, utf8, List.flatMap_map]

def bytePiece (b : UInt8) : Piece :=
  (Char.ofNat b.toNat, [b])

theorem piece_ascii {b : UInt8} (h : b < 0x80) : piece (Char.ofNat b.toNat) = bytePiece b := by
  have hall : ∀ n : Fin 128, String.utf8EncodeChar (Char.ofNat n.val) = [UInt8.ofNat n.val] := by decide
  have hb := hall ⟨b.toNat, h⟩
  rw [UInt8.ofNat_toNat] at hb
  rw [piece, bytePiece, hb]

theorem map_piece_ascii {s : Str} (h : ∀ b ∈ s, b < 0x80) :
    (s.map fun b => Char.ofNat b.toNat).map piece = s.map bytePiece := by
  rw [List.map_map]
  exact List.map_congr_left fun b hb => piece_ascii (h b hb)

@[simp]
theorem bytes_map_bytePiece (s : Str) : bytes (s.map bytePiece) = s := by
  simp [bytes, bytePiece, List.flatMap_map]

theorem utf8_ascii {s : Str} (h : ∀ b ∈ s, b < 0x80) : utf8 (s.map fun b => Char.ofNat b.toNat) = s := by
  rw [← bytes_map_piece, map_piece_ascii h, bytes_map_bytePiece]

theorem pieces_ascii {s : Str} (h : ∀ b ∈ s, b < 0x80) : pieces s = s.map bytePiece := by
  conv_lhs => rw [← utf8_ascii h]
  rw [pieces_utf8, map_piece_ascii h]

def isWordRune (c : Char) : Bool :=
  c.isAlphanum || c = '_'

def isSpaceRune (c : Char) : Bool :=
  c ∈ ['\t', '\n', '\x0c', '\r', ' ']

def isDigitRune (c : Char) : Bool :=
  '0'.toNat ≤ c.toNat && c.toNat ≤ '9'.toNat

-- `[A-Za-z]` in either case, which takes the long s and the Kelvin sign in
def isLetterRune (c : Char) : Bool :=
  'a'.toNat ≤ (fold c).toNat && (fold c).toNat ≤ 'z'.toNat

def wordBoundary : Item Piece :=
  .edge fun x => isWordRune x.1

def letter (c : Char) : Item Piece :=
  .one fun x => fold x.1 = c

def runOf (p : Char → Bool) (min : Nat) (max : Option Nat := none) : Item Piece :=
  .run (fun x => p x.1) min max

structure Regexp where
  items : List (Item Piece)
  group : Item Piece

def Regexp.findSubmatch (re : Regexp) (s : Str) : Option Str :=
  (search re.items re.group none (pieces s)).map bytes

def trimSpaceStr (s : Str) : Str :=
  bytes (((pieces s).dropWhile fun x => isSpace x.1).rdropWhile fun x => isSpace x.1)

def trimRightNUL (s : Str) : Str :=
  s.rdropWhile (· = 0x00)

def toUpper (s : Str) : Str :=
  utf8 ((runes s).map upper)

def lower (c : Char) : Char :=
  if 'A'.toNat ≤ c.toNat ∧ c.toNat ≤ 'Z'.toNat then
    Char.ofNat (c.toNat + 32)
  else if c.toNat = 0x130 then
    'i'
  else if c.toNat = 0x212A then
    'k'
  else
    c

def toLower (s : Str) : Str :=
  utf8 ((runes s).map lower)

theorem trimSpaceStr_eq {cs : List Char} (h : ∀ c ∈ cs, isSpace c = false) : trimSpaceStr (utf8 cs) = utf8 cs := by
  have hall : ∀ x ∈ cs.map piece, ¬(isSpace x.1 = true) := by
    intro x hx
    obtain ⟨c, hc, rfl⟩ := List.mem_map.mp hx
    rw [Bool.not_eq_true]
    exact h c hc
  have hfront : (cs.map piece).dropWhile (fun x => isSpace x.1) = cs.map piece := by
    rw [List.dropWhile_eq_self_iff]
    exact fun hl => hall _ (List.getElem_mem hl)
  have hback : (cs.map piece).rdropWhile (fun x => isSpace x.1) = cs.map piece := by
    rw [List.rdropWhile_eq_self_iff]
    exact fun hl => hall _ (List.getLast_mem hl)
  rw [trimSpaceStr, pieces_utf8, hfront, hback, bytes_map_piece]

example : trimSpaceStr ([0x20, 0xFF, 0x62, 0xC2, 0xA0]) = [0xFF, 0x62] := by decide

end Go
