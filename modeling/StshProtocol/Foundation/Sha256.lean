import StshProtocol.Foundation.Bytes

/-! SHA-256, so that what the canisters hash can be computed.

The model takes the hash as a parameter and assumes nothing of it; this is the
function its runs on given inputs use. -/
namespace StshProtocol.Foundation.Sha256

abbrev Word : Type := BitVec 32

/-- The fractional parts of the cube roots of the first 64 primes. -/
def roundConstants : List Word :=
  [0x428a2f98, 0x71374491, 0xb5c0fbcf, 0xe9b5dba5, 0x3956c25b, 0x59f111f1, 0x923f82a4, 0xab1c5ed5,
   0xd807aa98, 0x12835b01, 0x243185be, 0x550c7dc3, 0x72be5d74, 0x80deb1fe, 0x9bdc06a7, 0xc19bf174,
   0xe49b69c1, 0xefbe4786, 0x0fc19dc6, 0x240ca1cc, 0x2de92c6f, 0x4a7484aa, 0x5cb0a9dc, 0x76f988da,
   0x983e5152, 0xa831c66d, 0xb00327c8, 0xbf597fc7, 0xc6e00bf3, 0xd5a79147, 0x06ca6351, 0x14292967,
   0x27b70a85, 0x2e1b2138, 0x4d2c6dfc, 0x53380d13, 0x650a7354, 0x766a0abb, 0x81c2c92e, 0x92722c85,
   0xa2bfe8a1, 0xa81a664b, 0xc24b8b70, 0xc76c51a3, 0xd192e819, 0xd6990624, 0xf40e3585, 0x106aa070,
   0x19a4c116, 0x1e376c08, 0x2748774c, 0x34b0bcb5, 0x391c0cb3, 0x4ed8aa4a, 0x5b9cca4f, 0x682e6ff3,
   0x748f82ee, 0x78a5636f, 0x84c87814, 0x8cc70208, 0x90befffa, 0xa4506ceb, 0xbef9a3f7, 0xc67178f2]

/-- The eight working words. -/
structure Digest where
  a : Word
  b : Word
  c : Word
  d : Word
  e : Word
  f : Word
  g : Word
  h : Word

/-- The fractional parts of the square roots of the first 8 primes. -/
def Digest.initial : Digest :=
  ⟨0x6a09e667, 0xbb67ae85, 0x3c6ef372, 0xa54ff53a, 0x510e527f, 0x9b05688c, 0x1f83d9ab, 0x5be0cd19⟩

def Digest.add (x y : Digest) : Digest :=
  ⟨x.a + y.a, x.b + y.b, x.c + y.c, x.d + y.d, x.e + y.e, x.f + y.f, x.g + y.g, x.h + y.h⟩

/-- The message schedule, the latest word first. -/
def expand : Nat → List Word → List Word
  | 0, ws => ws
  | n + 1, ws =>
    let w2 := ws.getD 1 0
    let w7 := ws.getD 6 0
    let w15 := ws.getD 14 0
    let w16 := ws.getD 15 0
    let s0 := w15.rotateRight 7 ^^^ w15.rotateRight 18 ^^^ (w15 >>> 3)
    let s1 := w2.rotateRight 17 ^^^ w2.rotateRight 19 ^^^ (w2 >>> 10)
    expand n ((w16 + s0 + w7 + s1) :: ws)

def round (x : Digest) (kw : Word × Word) : Digest :=
  let s1 := x.e.rotateRight 6 ^^^ x.e.rotateRight 11 ^^^ x.e.rotateRight 25
  let ch := (x.e &&& x.f) ^^^ (~~~x.e &&& x.g)
  let t1 := x.h + s1 + ch + kw.1 + kw.2
  let s0 := x.a.rotateRight 2 ^^^ x.a.rotateRight 13 ^^^ x.a.rotateRight 22
  let maj := (x.a &&& x.b) ^^^ (x.a &&& x.c) ^^^ (x.b &&& x.c)
  ⟨t1 + s0 + maj, x.a, x.b, x.c, x.d + t1, x.e, x.f, x.g⟩

/-- The 32-bit words of a string of bytes, big-endian. -/
def words : List UInt8 → List Word
  | b₀ :: b₁ :: b₂ :: b₃ :: rest => BitVec.ofNat 32 (Bytes.ofBe [b₀, b₁, b₂, b₃]) :: words rest
  | _ => []

def compress (x : Digest) (block : List Word) : Digest :=
  let schedule := (expand 48 block.reverse).reverse
  x.add ((roundConstants.zip schedule).foldl round x)

/-- Each block of 16 words in turn; `n` blocks at most. -/
def absorb : Nat → Digest → List Word → Digest
  | 0, x, _ => x
  | n + 1, x, ws => if ws = [] then x else absorb n (compress x (ws.take 16)) (ws.drop 16)

/-- A one bit, zeros, and the length in bits. -/
def padded (message : List UInt8) : List UInt8 :=
  message ++ 0x80 :: List.replicate ((119 - message.length % 64) % 64) 0 ++
    Bytes.toBe 8 (8 * message.length)

def Digest.toBytes (x : Digest) : BitVec 256 :=
  x.a ++ x.b ++ x.c ++ x.d ++ x.e ++ x.f ++ x.g ++ x.h

@[irreducible] def sha256 (message : List UInt8) : BitVec 256 :=
  let ws := words (padded message)
  (absorb ws.length .initial ws).toBytes

example : sha256 [0x61, 0x62, 0x63] =
    0xba7816bf8f01cfea414140de5dae2223b00361a396177a9cb410ff61f20015ad := by
  decide +kernel

end StshProtocol.Foundation.Sha256
