import ZodSchema.Text.CodePoint

/-!
# SHA-256

FIPS 180-4, on lists of bytes.

* `sha256`     the digest as eight words
* `sha256Hex`  the digest of a text as hexadecimal digits
-/

namespace ZodSchema.Digest

def roundConstants : List UInt32 := [
  0x428a2f98, 0x71374491, 0xb5c0fbcf, 0xe9b5dba5, 0x3956c25b, 0x59f111f1, 0x923f82a4, 0xab1c5ed5,
  0xd807aa98, 0x12835b01, 0x243185be, 0x550c7dc3, 0x72be5d74, 0x80deb1fe, 0x9bdc06a7, 0xc19bf174,
  0xe49b69c1, 0xefbe4786, 0x0fc19dc6, 0x240ca1cc, 0x2de92c6f, 0x4a7484aa, 0x5cb0a9dc, 0x76f988da,
  0x983e5152, 0xa831c66d, 0xb00327c8, 0xbf597fc7, 0xc6e00bf3, 0xd5a79147, 0x06ca6351, 0x14292967,
  0x27b70a85, 0x2e1b2138, 0x4d2c6dfc, 0x53380d13, 0x650a7354, 0x766a0abb, 0x81c2c92e, 0x92722c85,
  0xa2bfe8a1, 0xa81a664b, 0xc24b8b70, 0xc76c51a3, 0xd192e819, 0xd6990624, 0xf40e3585, 0x106aa070,
  0x19a4c116, 0x1e376c08, 0x2748774c, 0x34b0bcb5, 0x391c0cb3, 0x4ed8aa4a, 0x5b9cca4f, 0x682e6ff3,
  0x748f82ee, 0x78a5636f, 0x84c87814, 0x8cc70208, 0x90befffa, 0xa4506ceb, 0xbef9a3f7, 0xc67178f2]

/-- the eight working words -/
structure Hash where
  a : UInt32
  b : UInt32
  c : UInt32
  d : UInt32
  e : UInt32
  f : UInt32
  g : UInt32
  h : UInt32
  deriving DecidableEq

def Hash.start : Hash :=
  ⟨0x6a09e667, 0xbb67ae85, 0x3c6ef372, 0xa54ff53a, 0x510e527f, 0x9b05688c, 0x1f83d9ab, 0x5be0cd19⟩

def rotr (x : UInt32) (n : UInt32) : UInt32 := (x >>> n) ||| (x <<< (32 - n))

/-- one round with its constant and message word -/
def Hash.round (s : Hash) (k w : UInt32) : Hash :=
  let s1 := rotr s.e 6 ^^^ rotr s.e 11 ^^^ rotr s.e 25
  let ch := (s.e &&& s.f) ^^^ ((~~~ s.e) &&& s.g)
  let t1 := s.h + s1 + ch + k + w
  let s0 := rotr s.a 2 ^^^ rotr s.a 13 ^^^ rotr s.a 22
  let maj := (s.a &&& s.b) ^^^ (s.a &&& s.c) ^^^ (s.b &&& s.c)
  ⟨t1 + (s0 + maj), s.a, s.b, s.c, s.d + t1, s.e, s.f, s.g⟩

def Hash.add (s t : Hash) : Hash :=
  ⟨s.a + t.a, s.b + t.b, s.c + t.c, s.d + t.d, s.e + t.e, s.f + t.f, s.g + t.g, s.h + t.h⟩

def wordOf : List UInt8 → UInt32
  | [p, q, r, s] =>
    (p.toUInt32 <<< 24) ||| (q.toUInt32 <<< 16) ||| (r.toUInt32 <<< 8) ||| s.toUInt32
  | _ => 0

/-- the words of a block -/
def blockWords (block : Array UInt8) : Array UInt32 :=
  ((List.range 16).map fun i =>
    wordOf [block.getD (4 * i) 0, block.getD (4 * i + 1) 0, block.getD (4 * i + 2) 0,
      block.getD (4 * i + 3) 0]).toArray

/-- the message schedule: sixteen words of the block and forty-eight derived ones -/
def schedule (block : Array UInt8) : Array UInt32 :=
  (List.range 48).foldl (fun ws i =>
    let w15 := ws.getD (i + 1) 0
    let w2 := ws.getD (i + 14) 0
    let s0 := rotr w15 7 ^^^ rotr w15 18 ^^^ (w15 >>> 3)
    let s1 := rotr w2 17 ^^^ rotr w2 19 ^^^ (w2 >>> 10)
    ws.push (ws.getD i 0 + s0 + ws.getD (i + 9) 0 + s1)) (blockWords block)

def compress (s : Hash) (block : Array UInt8) : Hash :=
  s.add ((roundConstants.zip (schedule block).toList).foldl (fun h kw => h.round kw.1 kw.2) s)

/-- eight bytes of a number, the most significant first -/
def bytesOf (n : Nat) : List UInt8 := (List.range 8).map fun i => (n / Nat.pow 256 (7 - i)).toUInt8

/-- the message with a one bit, zeros and its length in bits, a multiple of 64 bytes -/
def pad (msg : Array UInt8) : Array UInt8 :=
  let zeros := (64 - (msg.size + 9) % 64) % 64
  (msg.push 0x80) ++ Array.replicate zeros 0 ++ (bytesOf (8 * msg.size)).toArray

def sha256 (msg : Array UInt8) : Hash :=
  let m := pad msg
  (List.range (m.size / 64)).foldl (fun h i => compress h (m.extract (64 * i) (64 * i + 64)))
    Hash.start

def hexDigit (n : Nat) : Char := if n < 10 then Char.ofNat (48 + n) else Char.ofNat (87 + n)

def wordHex (w : UInt32) : List Char :=
  (List.range 8).map fun i => hexDigit (w.toNat / Nat.pow 16 (7 - i) % 16)

def Hash.hex (s : Hash) : String :=
  String.ofList ([s.a, s.b, s.c, s.d, s.e, s.f, s.g, s.h].flatMap wordHex)

def sha256Bytes (bytes : ByteArray) : String := (sha256 bytes.data).hex

/-- the digest of a text in UTF-8 -/
def sha256Hex (s : String) : String := sha256Bytes (Text.Str.bytes s)

end ZodSchema.Digest
