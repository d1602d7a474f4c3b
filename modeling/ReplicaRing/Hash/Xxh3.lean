/-!
# XXH3, 64 bits

The 64-bit XXH3 hash of a byte string under seed zero and the default secret. Inputs fall into
length classes with rounds of their own: up to 16 bytes are folded at once, up to 240 bytes in
16-byte lanes, and longer ones in 64-byte stripes over eight accumulators, which are scrambled
after every 1024 bytes.
-/

namespace ReplicaRing.Xxh3

/-! ## Words and primes -/

/-- The default secret. -/
def secret : Array UInt8 :=
  #[0xb8, 0xfe, 0x6c, 0x39, 0x23, 0xa4, 0x4b, 0xbe, 0x7c, 0x01, 0x81, 0x2c, 0xf7, 0x21, 0xad, 0x1c,
    0xde, 0xd4, 0x6d, 0xe9, 0x83, 0x90, 0x97, 0xdb, 0x72, 0x40, 0xa4, 0xa4, 0xb7, 0xb3, 0x67, 0x1f,
    0xcb, 0x79, 0xe6, 0x4e, 0xcc, 0xc0, 0xe5, 0x78, 0x82, 0x5a, 0xd0, 0x7d, 0xcc, 0xff, 0x72, 0x21,
    0xb8, 0x08, 0x46, 0x74, 0xf7, 0x43, 0x24, 0x8e, 0xe0, 0x35, 0x90, 0xe6, 0x81, 0x3a, 0x26, 0x4c,
    0x3c, 0x28, 0x52, 0xbb, 0x91, 0xc3, 0x00, 0xcb, 0x88, 0xd0, 0x65, 0x8b, 0x1b, 0x53, 0x2e, 0xa3,
    0x71, 0x64, 0x48, 0x97, 0xa2, 0x0d, 0xf9, 0x4e, 0x38, 0x19, 0xef, 0x46, 0xa9, 0xde, 0xac, 0xd8,
    0xa8, 0xfa, 0x76, 0x3f, 0xe3, 0x9c, 0x34, 0x3f, 0xf9, 0xdc, 0xbb, 0xc7, 0xc7, 0x0b, 0x4f, 0x1d,
    0x8a, 0x51, 0xe0, 0x4b, 0xcd, 0xb4, 0x59, 0x31, 0xc8, 0x9f, 0x7e, 0xc9, 0xd9, 0x78, 0x73, 0x64,
    0xea, 0xc5, 0xac, 0x83, 0x34, 0xd3, 0xeb, 0xc3, 0xc5, 0x81, 0xa0, 0xff, 0xfa, 0x13, 0x63, 0xeb,
    0x17, 0x0d, 0xdd, 0x51, 0xb7, 0xf0, 0xda, 0x49, 0xd3, 0x16, 0x55, 0x26, 0x29, 0xd4, 0x68, 0x9e,
    0x2b, 0x16, 0xbe, 0x58, 0x7d, 0x47, 0xa1, 0xfc, 0x8f, 0xf8, 0xb8, 0xd1, 0x7a, 0xd0, 0x31, 0xce,
    0x45, 0xcb, 0x3a, 0x8f, 0x95, 0x16, 0x04, 0x28, 0xaf, 0xd7, 0xfb, 0xca, 0xbb, 0x4b, 0x40, 0x7e]

def prime32A : UInt64 := 0x9E3779B1
def prime32B : UInt64 := 0x85EBCA77
def prime32C : UInt64 := 0xC2B2AE3D
def prime64A : UInt64 := 0x9E3779B185EBCA87
def prime64B : UInt64 := 0xC2B2AE3D27D4EB4F
def prime64C : UInt64 := 0x165667B19E3779F9
def prime64D : UInt64 := 0x85EBCA77C2B2AE63
def prime64E : UInt64 := 0x27D4EB2F165667C5
def primeMixA : UInt64 := 0x165667919E3779F9
def primeMixB : UInt64 := 0x9FB21C651E98DF25

/-- The little-endian number in the `width` bytes from `offset` on; bytes past the end are zero. -/
def word (bytes : Array UInt8) (offset : Nat) : Nat → UInt64
  | 0 => 0
  | width + 1 => (bytes.getD offset 0).toUInt64 ||| (word bytes (offset + 1) width <<< 8)

def word32 (bytes : Array UInt8) (offset : Nat) : UInt64 := word bytes offset 4
def word64 (bytes : Array UInt8) (offset : Nat) : UInt64 := word bytes offset 8

/-- Rotation to the left by `n` bits, `0 < n < 64`. -/
def rotate (x n : UInt64) : UInt64 := (x <<< n) ||| (x >>> (64 - n))

/-- The bytes of a word in reverse order. -/
def reverseBytes (x : UInt64) : UInt64 :=
  (List.range 8).foldl (fun acc i => (acc <<< 8) ||| ((x >>> (8 * i.toUInt64)) &&& 0xFF)) 0

/-- The two halves of the 128-bit product, combined. -/
def foldProduct (a b : UInt64) : UInt64 :=
  let p := a.toNat * b.toNat
  p.toUInt64 ^^^ (p / UInt64.size).toUInt64

/-! ## Final mixing -/

/-- The final mixing of inputs of at most 3 bytes. -/
def avalancheShort (h : UInt64) : UInt64 :=
  let h := (h ^^^ (h >>> 33)) * prime64B
  let h := (h ^^^ (h >>> 29)) * prime64C
  h ^^^ (h >>> 32)

/-- The final mixing of inputs of at least 9 bytes. -/
def avalanche (h : UInt64) : UInt64 :=
  let h := (h ^^^ (h >>> 37)) * primeMixA
  h ^^^ (h >>> 32)

/-! ## Inputs of at most 16 bytes -/

def hashEmpty : UInt64 := avalancheShort (word64 secret 56 ^^^ word64 secret 64)

/-- Inputs of 1 to 3 bytes: the first, middle and last byte and the length in one word. -/
def hashTo3 (input : Array UInt8) : UInt64 :=
  let n := input.size
  let first := (input.getD 0 0).toUInt64
  let middle := (input.getD (n / 2) 0).toUInt64
  let last := (input.getD (n - 1) 0).toUInt64
  let combined := (first <<< 16) ||| (middle <<< 24) ||| last ||| (n.toUInt64 <<< 8)
  avalancheShort (combined ^^^ (word32 secret 0 ^^^ word32 secret 4))

/-- Inputs of 4 to 8 bytes. -/
def hashTo8 (input : Array UInt8) : UInt64 :=
  let n := input.size
  let joined := word32 input (n - 4) + (word32 input 0 <<< 32)
  let h := joined ^^^ (word64 secret 8 ^^^ word64 secret 16)
  let h := (h ^^^ rotate h 49 ^^^ rotate h 24) * primeMixB
  let h := (h ^^^ ((h >>> 35) + n.toUInt64)) * primeMixB
  h ^^^ (h >>> 28)

/-- Inputs of 9 to 16 bytes. -/
def hashTo16 (input : Array UInt8) : UInt64 :=
  let n := input.size
  let low := word64 input 0 ^^^ (word64 secret 24 ^^^ word64 secret 32)
  let high := word64 input (n - 8) ^^^ (word64 secret 40 ^^^ word64 secret 48)
  avalanche (n.toUInt64 + reverseBytes low + high + foldProduct low high)

/-! ## Inputs of at most 240 bytes -/

/-- Mixes the 16 bytes of the input at `offset` with those of the secret at `key`. -/
def mixLane (input : Array UInt8) (offset key : Nat) : UInt64 :=
  foldProduct (word64 input offset ^^^ word64 secret key)
    (word64 input (offset + 8) ^^^ word64 secret (key + 8))

/-- Inputs of 17 to 128 bytes: lanes from both ends, as many as the length fills. -/
def hashTo128 (input : Array UInt8) : UInt64 :=
  let n := input.size
  let pairs := (n - 1) / 32 + 1
  avalanche <| (List.range pairs).foldl
    (fun acc i => acc + mixLane input (16 * i) (32 * i) +
      mixLane input (n - 16 * (i + 1)) (32 * i + 16))
    (n.toUInt64 * prime64A)

/-- Inputs of 129 to 240 bytes: eight lanes, an intermediate mixing, and the remaining lanes. -/
def hashTo240 (input : Array UInt8) : UInt64 :=
  let n := input.size
  let start := (List.range 8).foldl (fun acc i => acc + mixLane input (16 * i) (16 * i))
    (n.toUInt64 * prime64A)
  let more := (List.range (n / 16 - 8)).foldl
    (fun acc i => acc + mixLane input (16 * (i + 8)) (16 * i + 3)) (avalanche start)
  avalanche (more + mixLane input (n - 16) 119)

/-! ## Longer inputs -/

/-- The accumulators before the first stripe. -/
def accumulators : Array UInt64 :=
  #[prime32C, prime64A, prime64B, prime64C, prime64D, prime32B, prime64E, prime32A]

/-- Takes in the 64 bytes of the input at `offset` under the secret at `key`. -/
def takeStripe (input : Array UInt8) (offset key : Nat) (acc : Array UInt64) : Array UInt64 :=
  (Array.range 8).map fun i =>
    let data := word64 input (offset + 8 * i)
    let keyed : UInt64 := data ^^^ word64 secret (key + 8 * i)
    let other := if i % 2 = 0 then i + 1 else i - 1
    let product : UInt64 := (keyed % 0x100000000) * (keyed >>> 32)
    acc.getD i 0 + word64 input (offset + 8 * other) + product

/-- Mixes every accumulator with the end of the secret. -/
def scramble (acc : Array UInt64) : Array UInt64 :=
  acc.mapIdx fun i (a : UInt64) => (a ^^^ (a >>> 47) ^^^ word64 secret (128 + 8 * i)) * prime32A

/-- Takes in `count` stripes from `offset` on, each under the secret eight bytes further. -/
def takeStripes (input : Array UInt8) (offset count : Nat) (acc : Array UInt64) : Array UInt64 :=
  (List.range count).foldl (fun acc i => takeStripe input (offset + 64 * i) (8 * i) acc) acc

/-- Inputs of more than 240 bytes: blocks of 16 stripes, the stripes left over, the last stripe. -/
def hashLong (input : Array UInt8) : UInt64 :=
  let n := input.size
  let blocks := (n - 1) / 1024
  let acc := (List.range blocks).foldl
    (fun acc b => scramble (takeStripes input (1024 * b) 16 acc)) accumulators
  let acc := takeStripes input (1024 * blocks) ((n - 1 - 1024 * blocks) / 64) acc
  let acc := takeStripe input (n - 64) 121 acc
  avalanche <| (List.range 4).foldl
    (fun h i => h + foldProduct (acc.getD (2 * i) 0 ^^^ word64 secret (11 + 16 * i))
      (acc.getD (2 * i + 1) 0 ^^^ word64 secret (19 + 16 * i)))
    (n.toUInt64 * prime64A)

/-- The hash of a byte string. -/
def hash (bytes : List UInt8) : UInt64 :=
  let input := bytes.toArray
  let n := input.size
  if n = 0 then hashEmpty
  else if n ≤ 3 then hashTo3 input
  else if n ≤ 8 then hashTo8 input
  else if n ≤ 16 then hashTo16 input
  else if n ≤ 128 then hashTo128 input
  else if n ≤ 240 then hashTo240 input
  else hashLong input

end ReplicaRing.Xxh3
