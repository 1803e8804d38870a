/-
SHA-256 of a text, as FIPS 180-4 computes it over 32-bit words.
-/
import Mathlib.Data.List.Basic
import Mathlib.Algebra.Ring.Nat

namespace Ruletka.Sha256

def roundConstants : List UInt32 :=
  [0x428a2f98, 0x71374491, 0xb5c0fbcf, 0xe9b5dba5, 0x3956c25b, 0x59f111f1, 0x923f82a4,
   0xab1c5ed5, 0xd807aa98, 0x12835b01, 0x243185be, 0x550c7dc3, 0x72be5d74, 0x80deb1fe,
   0x9bdc06a7, 0xc19bf174, 0xe49b69c1, 0xefbe4786, 0x0fc19dc6, 0x240ca1cc, 0x2de92c6f,
   0x4a7484aa, 0x5cb0a9dc, 0x76f988da, 0x983e5152, 0xa831c66d, 0xb00327c8, 0xbf597fc7,
   0xc6e00bf3, 0xd5a79147, 0x06ca6351, 0x14292967, 0x27b70a85, 0x2e1b2138, 0x4d2c6dfc,
   0x53380d13, 0x650a7354, 0x766a0abb, 0x81c2c92e, 0x92722c85, 0xa2bfe8a1, 0xa81a664b,
   0xc24b8b70, 0xc76c51a3, 0xd192e819, 0xd6990624, 0xf40e3585, 0x106aa070, 0x19a4c116,
   0x1e376c08, 0x2748774c, 0x34b0bcb5, 0x391c0cb3, 0x4ed8aa4a, 0x5b9cca4f, 0x682e6ff3,
   0x748f82ee, 0x78a5636f, 0x84c87814, 0x8cc70208, 0x90befffa, 0xa4506ceb, 0xbef9a3f7,
   0xc67178f2]

/-- The eight working words. -/
structure Words where
  a : UInt32
  b : UInt32
  c : UInt32
  d : UInt32
  e : UInt32
  f : UInt32
  g : UInt32
  h : UInt32
  deriving DecidableEq, Repr

def Words.initial : Words :=
  ⟨0x6a09e667, 0xbb67ae85, 0x3c6ef372, 0xa54ff53a, 0x510e527f, 0x9b05688c, 0x1f83d9ab,
    0x5be0cd19⟩

def rotr (x : UInt32) (n : UInt32) : UInt32 := (x >>> n) ||| (x <<< (32 - n))

/-- One round with its constant and message word. -/
def Words.round (w : Words) (kw : UInt32 × UInt32) : Words :=
  let s1 := rotr w.e 6 ^^^ rotr w.e 11 ^^^ rotr w.e 25
  let ch := (w.e &&& w.f) ^^^ (~~~w.e &&& w.g)
  let t1 := w.h + s1 + ch + kw.1 + kw.2
  let s0 := rotr w.a 2 ^^^ rotr w.a 13 ^^^ rotr w.a 22
  let maj := (w.a &&& w.b) ^^^ (w.a &&& w.c) ^^^ (w.b &&& w.c)
  ⟨t1 + (s0 + maj), w.a, w.b, w.c, w.d + t1, w.e, w.f, w.g⟩

def Words.add (v w : Words) : Words :=
  ⟨v.a + w.a, v.b + w.b, v.c + w.c, v.d + w.d, v.e + w.e, v.f + w.f, v.g + w.g, v.h + w.h⟩

/-- The next message word; `ws` are the earlier ones, last first. -/
def nextWord (ws : List UInt32) : UInt32 :=
  let x := ws.getD 14 0
  let y := ws.getD 1 0
  let s0 := rotr x 7 ^^^ rotr x 18 ^^^ (x >>> 3)
  let s1 := rotr y 17 ^^^ rotr y 19 ^^^ (y >>> 10)
  ws.getD 15 0 + s0 + ws.getD 6 0 + s1

def schedule : Nat → List UInt32 → List UInt32
  | 0, ws => ws.reverse
  | n + 1, ws => schedule n (nextWord ws :: ws)

/-- Take in one block of sixteen words. -/
def Words.block (v : Words) (ws : List UInt32) : Words :=
  v.add ((roundConstants.zip (schedule 48 ws.reverse)).foldl Words.round v)

def beWords : List UInt8 → List UInt32
  | a :: b :: c :: d :: rest =>
      (a.toUInt32 <<< 24 ||| b.toUInt32 <<< 16 ||| c.toUInt32 <<< 8 ||| d.toUInt32)
        :: beWords rest
  | _ => []

def beBytes (w : UInt32) : List UInt8 :=
  [(w >>> 24).toUInt8, (w >>> 16).toUInt8, (w >>> 8).toUInt8, w.toUInt8]

/-- A one bit, zeros and the length in bits, to a whole number of blocks. -/
def pad (bytes : List UInt8) : List UInt8 :=
  let n := bytes.length
  bytes ++ 0x80 :: List.replicate ((119 - n % 64) % 64) 0
    ++ beBytes (UInt32.ofNat (8 * n / 2 ^ 32)) ++ beBytes (UInt32.ofNat (8 * n))

def blocks (fuel : Nat) (ws : List UInt32) : List (List UInt32) :=
  match fuel with
  | 0 => []
  | fuel + 1 => if ws = [] then [] else ws.take 16 :: blocks fuel (ws.drop 16)

/-- The digest of some bytes. -/
def digest (bytes : List UInt8) : List UInt8 :=
  let ws := beWords (pad bytes)
  let w := (blocks ws.length ws).foldl Words.block .initial
  [w.a, w.b, w.c, w.d, w.e, w.f, w.g, w.h].flatMap beBytes

/-- The digest of a text's UTF-8 form. -/
def sha256 (s : String) : List UInt8 := digest (s.toUTF8.toList)

-- the standard's first test vector
example : (sha256 "abc").take 8 = [0xba, 0x78, 0x16, 0xbf, 0x8f, 0x01, 0xcf, 0xea] := by
  decide +kernel

end Ruletka.Sha256
