import Mathlib.Algebra.Group.Nat.Defs
import Mathlib.Data.List.Basic

-- SHA-256 (`crypto/sha256`), with numbers below 2 ^ 32 for its words.

namespace Go

structure Sha256State where
  a : Nat
  b : Nat
  c : Nat
  d : Nat
  e : Nat
  f : Nat
  g : Nat
  h : Nat

namespace Sha256State

def initial : Sha256State where
  a := 0x6a09e667
  b := 0xbb67ae85
  c := 0x3c6ef372
  d := 0xa54ff53a
  e := 0x510e527f
  f := 0x9b05688c
  g := 0x1f83d9ab
  h := 0x5be0cd19

def roundConstants : List Nat :=
  [0x428a2f98, 0x71374491, 0xb5c0fbcf, 0xe9b5dba5, 0x3956c25b, 0x59f111f1, 0x923f82a4, 0xab1c5ed5,
    0xd807aa98, 0x12835b01, 0x243185be, 0x550c7dc3, 0x72be5d74, 0x80deb1fe, 0x9bdc06a7, 0xc19bf174,
    0xe49b69c1, 0xefbe4786, 0x0fc19dc6, 0x240ca1cc, 0x2de92c6f, 0x4a7484aa, 0x5cb0a9dc, 0x76f988da,
    0x983e5152, 0xa831c66d, 0xb00327c8, 0xbf597fc7, 0xc6e00bf3, 0xd5a79147, 0x06ca6351, 0x14292967,
    0x27b70a85, 0x2e1b2138, 0x4d2c6dfc, 0x53380d13, 0x650a7354, 0x766a0abb, 0x81c2c92e, 0x92722c85,
    0xa2bfe8a1, 0xa81a664b, 0xc24b8b70, 0xc76c51a3, 0xd192e819, 0xd6990624, 0xf40e3585, 0x106aa070,
    0x19a4c116, 0x1e376c08, 0x2748774c, 0x34b0bcb5, 0x391c0cb3, 0x4ed8aa4a, 0x5b9cca4f, 0x682e6ff3,
    0x748f82ee, 0x78a5636f, 0x84c87814, 0x8cc70208, 0x90befffa, 0xa4506ceb, 0xbef9a3f7, 0xc67178f2]

def rotr (n x : Nat) : Nat :=
  (x >>> n ||| x <<< (32 - n)) % 2 ^ 32

-- The next word of the message schedule, from those before it, the last one first.
def nextWord (ws : List Nat) : Nat :=
  let x := ws.getD 14 0
  let y := ws.getD 1 0
  (ws.getD 15 0 + (rotr 7 x ^^^ rotr 18 x ^^^ x >>> 3) + ws.getD 6 0 + (rotr 17 y ^^^ rotr 19 y ^^^ y >>> 10)) % 2 ^ 32

def schedule : Nat → List Nat → List Nat
  | 0, ws     => ws.reverse
  | n + 1, ws => schedule n (nextWord ws :: ws)

def round (s : Sha256State) (kw : Nat × Nat) : Sha256State :=
  let choice := (s.e &&& s.f) ^^^ ((2 ^ 32 - 1 - s.e) &&& s.g)
  let majority := (s.a &&& s.b) ^^^ (s.a &&& s.c) ^^^ (s.b &&& s.c)
  let t := s.h + (rotr 6 s.e ^^^ rotr 11 s.e ^^^ rotr 25 s.e) + choice + kw.1 + kw.2
  { a := (t + (rotr 2 s.a ^^^ rotr 13 s.a ^^^ rotr 22 s.a) + majority) % 2 ^ 32, b := s.a, c := s.b, d := s.c
    e := (s.d + t) % 2 ^ 32, f := s.e, g := s.f, h := s.g }

def add (s t : Sha256State) : Sha256State where
  a := (s.a + t.a) % 2 ^ 32
  b := (s.b + t.b) % 2 ^ 32
  c := (s.c + t.c) % 2 ^ 32
  d := (s.d + t.d) % 2 ^ 32
  e := (s.e + t.e) % 2 ^ 32
  f := (s.f + t.f) % 2 ^ 32
  g := (s.g + t.g) % 2 ^ 32
  h := (s.h + t.h) % 2 ^ 32

def block (s : Sha256State) (ws : List Nat) : Sha256State :=
  s.add ((roundConstants.zip (schedule 48 ws.reverse)).foldl round s)

def toList (s : Sha256State) : List Nat :=
  [s.a, s.b, s.c, s.d, s.e, s.f, s.g, s.h]

end Sha256State

def bigEndian : Nat → Nat → List UInt8
  | 0, _     => []
  | n + 1, x => bigEndian n (x / 256) ++ [.ofNat x]

def sha256Padded (data : List UInt8) : List UInt8 :=
  data ++ 0x80 :: List.replicate ((119 - data.length % 64) % 64) 0 ++ bigEndian 8 (8 * data.length)

-- `sha256.Sum256`
def sha256 (data : List UInt8) : List UInt8 :=
  let words := ((sha256Padded data).toChunks 4).map fun bytes => bytes.foldl (fun x b => 256 * x + b.toNat) 0
  ((words.toChunks 16).foldl Sha256State.block .initial).toList.flatMap (bigEndian 4)

theorem length_sha256 (data : List UInt8) : (sha256 data).length = 32 := rfl

-- "abc"
example : sha256 [0x61, 0x62, 0x63] =
    [0xba, 0x78, 0x16, 0xbf, 0x8f, 0x01, 0xcf, 0xea, 0x41, 0x41, 0x40, 0xde, 0x5d, 0xae, 0x22, 0x23,
      0xb0, 0x03, 0x61, 0xa3, 0x96, 0x17, 0x7a, 0x9c, 0xb4, 0x10, 0xff, 0x61, 0xf2, 0x00, 0x15, 0xad] := by
  decide +kernel

end Go
