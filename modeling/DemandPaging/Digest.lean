/-!
XXH3, the 128-bit digest with seed zero and the standard secret. Inputs of up to 240 bytes are mixed directly, by length;
longer ones run through eight accumulators, 64 bytes at a time, which are scrambled after every 1024 bytes.
-/

set_option autoImplicit false

namespace DemandPaging

structure Digest where
  high : UInt64
  low : UInt64
deriving DecidableEq, Repr, Inhabited

namespace Digest

def secret : Array UInt8 := #[
  0xb8, 0xfe, 0x6c, 0x39, 0x23, 0xa4, 0x4b, 0xbe, 0x7c, 0x01, 0x81, 0x2c, 0xf7, 0x21, 0xad, 0x1c,
  0xde, 0xd4, 0x6d, 0xe9, 0x83, 0x90, 0x97, 0xdb, 0x72, 0x40, 0xa4, 0xa4, 0xb7, 0xb3, 0x67, 0x1f,
  0xcb, 0x79, 0xe6, 0x4e, 0xcc, 0xc0, 0xe5, 0x78, 0x82, 0x5a, 0xd0, 0x7d, 0xcc, 0xff, 0x72, 0x21,
  0xb8, 0x08, 0x46, 0x74, 0xf7, 0x43, 0x24, 0x8e, 0xe0, 0x35, 0x90, 0xe6, 0x81, 0x3a, 0x26, 0x4c,
  0x3c, 0x28, 0x52, 0xbb, 0x91, 0xc3, 0x00, 0xcb, 0x88, 0xd0, 0x65, 0x8b, 0x1b, 0x53, 0x2e, 0xa3,
  0x71, 0x64, 0x48, 0x97, 0xa2, 0x0d, 0xf9, 0x4e, 0x38, 0x19, 0xef, 0x46, 0xa9, 0xde, 0xac, 0xd8,
  0xa8, 0xfa, 0x76, 0x3f, 0xe3, 0x9c, 0x34, 0x3f, 0xf9, 0xdc, 0xbb, 0xc7, 0xc7, 0x0b, 0x4f, 0x1d,
  0x8a, 0x51, 0xe0, 0x4b, 0xcd, 0xb4, 0x59, 0x31, 0xc8, 0x9f, 0x7e, 0xc9, 0xd9, 0x78, 0x73, 0x64,
  0xea, 0xc5, 0xac, 0x83, 0x34, 0xd3, 0xeb, 0xc3, 0xc5, 0x81, 0xa0, 0xff, 0xfa, 0x13, 0x63, 0xeb,
  0x17, 0x0d, 0xdd, 0x51, 0xb7, 0xf0, 0xda, 0x49, 0xd3, 0x16, 0x55, 0x26, 0x29, 0xd4, 0x68, 0x9e,
  0x2b, 0x16, 0xbe, 0x58, 0x7d, 0x47, 0xa1, 0xfc, 0x8f, 0xf8, 0xb8, 0xd1, 0x7a, 0xd0, 0x31, 0xce,
  0x45, 0xcb, 0x3a, 0x8f, 0x95, 0x16, 0x04, 0x28, 0xaf, 0xd7, 0xfb, 0xca, 0xbb, 0x4b, 0x40, 0x7e]

def prime32a : UInt64 := 0x9E3779B1
def prime32b : UInt64 := 0x85EBCA77
def prime32c : UInt64 := 0xC2B2AE3D
def prime64a : UInt64 := 0x9E3779B185EBCA87
def prime64b : UInt64 := 0xC2B2AE3D27D4EB4F
def prime64c : UInt64 := 0x165667B19E3779F9
def prime64d : UInt64 := 0x85EBCA77C2B2AE63
def prime64e : UInt64 := 0x27D4EB2F165667C5
def mixPrimeA : UInt64 := 0x165667919E3779F9
def mixPrimeB : UInt64 := 0x9FB21C651E98DF25

def byteAt (bytes : Array UInt8) (i : Nat) : UInt64 := (bytes.getD i 0).toUInt64

def word32 (bytes : Array UInt8) (i : Nat) : UInt64 :=
  byteAt bytes i ||| byteAt bytes (i + 1) <<< 8 ||| byteAt bytes (i + 2) <<< 16 ||| byteAt bytes (i + 3) <<< 24

def word64 (bytes : Array UInt8) (i : Nat) : UInt64 :=
  word32 bytes i ||| word32 bytes (i + 4) <<< 32

def lowHalf (x : UInt64) : UInt64 := x &&& 0xFFFFFFFF

def swapBytes32 (x : UInt64) : UInt64 :=
  let b0 : UInt64 := x &&& 0xFF
  let b1 : UInt64 := (x >>> 8) &&& 0xFF
  let b2 : UInt64 := (x >>> 16) &&& 0xFF
  let b3 : UInt64 := (x >>> 24) &&& 0xFF
  b0 <<< 24 ||| b1 <<< 16 ||| b2 <<< 8 ||| b3

def swapBytes64 (x : UInt64) : UInt64 :=
  swapBytes32 (lowHalf x) <<< 32 ||| swapBytes32 (x >>> 32)

def rotate32 (x n : UInt64) : UInt64 := lowHalf (x <<< n) ||| x >>> (32 - n)

-- The product of two words as high and low word.
def product (a b : UInt64) : Digest :=
  let p := a.toNat * b.toNat
  { high := UInt64.ofNat (p >>> 64), low := UInt64.ofNat p }

def foldedProduct (a b : UInt64) : UInt64 :=
  let p := product a b
  p.high ^^^ p.low

def xorShift (x n : UInt64) : UInt64 := x ^^^ x >>> n

def avalanche (x : UInt64) : UInt64 := xorShift (xorShift x 37 * mixPrimeA) 32

def shortAvalanche (x : UInt64) : UInt64 := xorShift (xorShift (xorShift x 33 * prime64b) 29 * prime64c) 32

def ofNothing : Digest where
  low := shortAvalanche (word64 secret 64 ^^^ word64 secret 72)
  high := shortAvalanche (word64 secret 80 ^^^ word64 secret 88)

def ofUpTo3 (bytes : Array UInt8) : Digest :=
  let n := bytes.size
  let mixed := byteAt bytes 0 <<< 16 ||| byteAt bytes (n / 2) <<< 24 ||| byteAt bytes (n - 1) ||| UInt64.ofNat n <<< 8
  { low := shortAvalanche (mixed ^^^ (word32 secret 0 ^^^ word32 secret 4))
    high := shortAvalanche (rotate32 (swapBytes32 mixed) 13 ^^^ (word32 secret 8 ^^^ word32 secret 12)) }

def ofUpTo8 (bytes : Array UInt8) : Digest :=
  let n := bytes.size
  let input := word32 bytes 0 + word32 bytes (n - 4) <<< 32
  let keyed := input ^^^ (word64 secret 16 ^^^ word64 secret 24)
  let p := product keyed (prime64a + UInt64.ofNat n <<< 2)
  let high := p.high + p.low <<< 1
  let low := xorShift (p.low ^^^ high >>> 3) 35 * mixPrimeB
  { low := xorShift low 28, high := avalanche high }

def ofUpTo16 (bytes : Array UInt8) : Digest :=
  let n := bytes.size
  let first := word64 bytes 0
  let last := word64 bytes (n - 8)
  let p := product (first ^^^ last ^^^ (word64 secret 32 ^^^ word64 secret 40)) prime64a
  let low := p.low + UInt64.ofNat (n - 1) <<< 54
  let keyed := last ^^^ (word64 secret 48 ^^^ word64 secret 56)
  let high := p.high + (keyed + lowHalf keyed * (prime32b - 1))
  let q := product (low ^^^ swapBytes64 high) prime64b
  { low := avalanche q.low, high := avalanche (q.high + high * prime64b) }

def mix16 (bytes : Array UInt8) (i key : Nat) : UInt64 :=
  foldedProduct (word64 bytes i ^^^ word64 secret key) (word64 bytes (i + 8) ^^^ word64 secret (key + 8))

-- Mixes the sixteen bytes at `i` and the sixteen at `j` into both words.
def mix32 (bytes : Array UInt8) (i j key : Nat) (acc : Digest) : Digest where
  low := (acc.low + mix16 bytes i key) ^^^ (word64 bytes j + word64 bytes (j + 8))
  high := (acc.high + mix16 bytes j (key + 16)) ^^^ (word64 bytes i + word64 bytes (i + 8))

def finishMid (n : Nat) (acc : Digest) : Digest where
  low := avalanche (acc.low + acc.high)
  high := 0 - avalanche (acc.low * prime64a + acc.high * prime64d + UInt64.ofNat n * prime64b)

def startMid (n : Nat) : Digest where
  low := UInt64.ofNat n * prime64a
  high := 0

-- From the middle outwards: both ends of the input in steps of sixteen bytes.
def ofUpTo128 (bytes : Array UInt8) : Digest :=
  let n := bytes.size
  let pairs := (n - 1) / 32 + 1
  finishMid n <| (List.range pairs).reverse.foldl
    (fun acc k => mix32 bytes (16 * k) (n - 16 * k - 16) (32 * k) acc) (startMid n)

def ofUpTo240 (bytes : Array UInt8) : Digest :=
  let n := bytes.size
  let early := (List.range 4).foldl (fun acc k => mix32 bytes (32 * k) (32 * k + 16) (32 * k) acc) (startMid n)
  let stirred : Digest := { low := avalanche early.low, high := avalanche early.high }
  let late := (List.range (n / 32 - 4)).foldl
    (fun acc k => mix32 bytes (128 + 32 * k) (144 + 32 * k) (3 + 32 * k) acc) stirred
  finishMid n (mix32 bytes (n - 16) (n - 32) 103 late)

abbrev Lanes := Vector UInt64 8

def startLanes : Lanes :=
  #v[prime32c, prime64a, prime64b, prime64c, prime64d, prime32b, prime64e, prime32a]

-- Lane `i` takes the keyed product of word `i` and the plain word of its neighbour.
def accumulate (bytes : Array UInt8) (i key : Nat) (lanes : Lanes) : Lanes :=
  Vector.ofFn fun (lane : Fin 8) =>
    let plain := word64 bytes (i + 8 * (lane.val ^^^ 1))
    let keyed := word64 bytes (i + 8 * lane.val) ^^^ word64 secret (key + 8 * lane.val)
    lanes.get lane + plain + lowHalf keyed * (keyed >>> 32)

def scramble (lanes : Lanes) : Lanes :=
  Vector.ofFn fun (lane : Fin 8) =>
    (xorShift (lanes.get lane) 47 ^^^ word64 secret (128 + 8 * lane.val)) * prime32a

-- `count` stripes of 64 bytes, the key moving on by eight bytes with each.
def accumulateStripes (bytes : Array UInt8) (start count : Nat) (lanes : Lanes) : Lanes :=
  (List.range count).foldl (fun acc k => accumulate bytes (start + 64 * k) (8 * k) acc) lanes

def merge (lanes : Lanes) (key : Nat) (start : UInt64) : UInt64 :=
  let part (i j : Fin 8) (k : Nat) :=
    foldedProduct (lanes.get i ^^^ word64 secret k) (lanes.get j ^^^ word64 secret (k + 8))
  avalanche (start + part 0 1 key + part 2 3 (key + 16) + part 4 5 (key + 32) + part 6 7 (key + 48))

def ofLong (bytes : Array UInt8) : Digest :=
  let n := bytes.size
  let blocks := (n - 1) / 1024
  let full := (List.range blocks).foldl
    (fun acc k => scramble (accumulateStripes bytes (1024 * k) 16 acc)) startLanes
  let rest := accumulateStripes bytes (1024 * blocks) ((n - 1 - 1024 * blocks) / 64) full
  let lanes := accumulate bytes (n - 64) 121 rest
  { low := merge lanes 11 (UInt64.ofNat n * prime64a)
    high := merge lanes 117 (~~~(UInt64.ofNat n * prime64b)) }

def of (bytes : Array UInt8) : Digest :=
  let n := bytes.size
  if n = 0 then ofNothing
  else if n ≤ 3 then ofUpTo3 bytes
  else if n ≤ 8 then ofUpTo8 bytes
  else if n ≤ 16 then ofUpTo16 bytes
  else if n ≤ 128 then ofUpTo128 bytes
  else if n ≤ 240 then ofUpTo240 bytes
  else ofLong bytes

def toNat (d : Digest) : Nat := (d.high.toNat <<< 64) + d.low.toNat

def debugText (d : Digest) : String := "Fingerprint(" ++ toString d.toNat ++ ")"

end Digest

end DemandPaging
