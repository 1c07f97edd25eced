import RowIndex.Powers

/-!
# Hash/Xxh3 — the XXH3 hash of a byte string, in 64 and in 128 bits

The unseeded hash with its standard secret.  Inputs up to 16, 128 and 240 bytes have rules of their
own, which mix the whole input at once; longer ones are folded into eight lanes, 64 bytes at a time.
All arithmetic is modulo 2^64 unless a full product is taken.
-/

namespace RowIndex.Xxh3

/-! ## Constants and word access -/

/-- The standard secret. -/
def secret : Array UInt8 := #[
  0xb8, 0xfe, 0x6c, 0x39, 0x23, 0xa4, 0x4b, 0xbe, 0x7c, 0x01, 0x81, 0x2c, 0xf7, 0x21, 0xad, 0x1c,
  0xde, 0xd4, 0x6d, 0xe9, 0x83, 0x90, 0x97, 0xdb, 0x72, 0x40, 0xa4, 0xa4, 0xb7, 0xb3, 0x67, 0x1f,
  0xcb, 0x79, 0xe6, 0x4e, 0xcc, 0xc0, 0xe5, 0x78, 0x82, 0x5a, 0xd0, 0x7d, 0xcc, 0xff, 0x72, 0x21,
  0xb8, 0x08, 0x46, 0x74, 0xf7, 0x43, 0x24, 0x8e, 0xe0, 0x35, 0x90, 0xe6, 0x81, 0x3a, 0x26, 0x4c,
  0x3c, 0x28, 0x52, 0xbb, 0x91, 0xc3, 0x00, 0xcb, 0x88, 0xd0, 0x65, 0x8b, 0x1b, 0x53, 0x2e, 0xa3,
  0x71, 0x64, 0x48, 0x97, 0xa2, 0x0d, 0xf9, 0x4e, 0x38, 0x19, 0xef, 0x46, 0xa9, 0xde, 0xac, 0xd8,
  0xa8, 0xfa, 0x76, 0x3f, 0xe3, 0x9c, 0x34, 0x3f, 0xf9, 0xdc, 0xbb, 0xc7, 0xc7, 0x0b, 0x4f, 0x1d,
  0x8a, 0x51, 0xe0, 0x4b, 0xcd, 0xb4, 0x59, 0x31, 0xc8, 0x9f, 0x7e, 0xc9, 0xd9, 0x78, 0x73, 0x64,
  0xea, 0xc5, 0xac, 0x83, 0x34, 0xd3, 0xeb, 0xc3, 0xc5, 0x81, 0xa0, 0xff, 0xfa, 0x13, 0x63, 0xeb,
  0x17, 0x0d, 0xdd, 0x51, 0xb7, 0xf0, 0xda, 0x49, 0xd3, 0x16, 0x55, 0x26, 0x29, 0xd4, 0x68, 0x9e,
  0x2b, 0x16, 0xbe, 0x58, 0x7d, 0x47, 0xa1, 0xfc, 0x8f, 0xf8, 0xb8, 0xd1, 0x7a, 0xd0, 0x31, 0xce,
  0x45, 0xcb, 0x3a, 0x8f, 0x95, 0x16, 0x04, 0x28, 0xaf, 0xd7, 0xfb, 0xca, 0xbb, 0x4b, 0x40, 0x7e]

def prime32A : UInt64 := 0x9E3779B1
def prime32B : UInt64 := 0x85EBCA77
def prime32C : UInt64 := 0xC2B2AE3D
def prime64A : UInt64 := 0x9E3779B185EBCA87
def prime64B : UInt64 := 0xC2B2AE3D27D4EB4F
def prime64C : UInt64 := 0x165667B19E3779F9
def prime64D : UInt64 := 0x85EBCA77C2B2AE63
def prime64E : UInt64 := 0x27D4EB2F165667C5
def primeMixA : UInt64 := 0x165667919E3779F9
def primeMixB : UInt64 := 0x9FB21C651E98DF25

/-- The byte at `i`, as a word. -/
def byteAt (data : Array UInt8) (i : Nat) : UInt64 := (data.getD i 0).toUInt64

/-- The little-endian word of `size` bytes at `i`. -/
def wordAt (data : Array UInt8) (size i : Nat) : UInt64 :=
  (List.range size).foldr (fun k word => (word <<< 8) ||| byteAt data (i + k)) 0

/-- The little-endian 64-bit word at `i`. -/
def word64 (data : Array UInt8) (i : Nat) : UInt64 := wordAt data 8 i

/-- The little-endian 32-bit word at `i`. -/
def word32 (data : Array UInt8) (i : Nat) : UInt64 := wordAt data 4 i

/-- Two neighbouring words of the secret, combined. -/
def secretPair (i : Nat) : UInt64 := word64 secret i ^^^ word64 secret (i + 8)

/-! ## Mixing -/

/-- A word combined with its own upper bits. -/
def xorShift (x places : UInt64) : UInt64 := x ^^^ (x >>> places)

/-- A word turned to the left. -/
def rotateLeft (x places : UInt64) : UInt64 := (x <<< places) ||| (x >>> (64 - places))

/-- The low `count` bytes of a word in reverse order. -/
def reverseBytes (count : Nat) (x : UInt64) : UInt64 :=
  (List.range count).foldl
    (fun word k => (word <<< 8) ||| ((x >>> UInt64.ofNat (8 * k)) &&& 0xFF)) 0

/-- The full product of two words: high word, low word. -/
def fullProduct (x y : UInt64) : UInt64 × UInt64 :=
  let product := x.toNat * y.toNat
  (UInt64.ofNat (product / 2 ^ 64), UInt64.ofNat product)

/-- The two words of the full product, combined. -/
def foldProduct (x y : UInt64) : UInt64 :=
  let (high, low) := fullProduct x y
  high ^^^ low

/-- Spread every bit over the word; used for very short inputs. -/
def avalancheShort (x : UInt64) : UInt64 :=
  let x := xorShift x 33 * prime64B
  let x := xorShift x 29 * prime64C
  xorShift x 32

/-- Spread every bit over the word. -/
def avalanche (x : UInt64) : UInt64 :=
  xorShift (xorShift x 37 * primeMixA) 32

/-- Mix the 16 bytes of the input at `i` with the secret at `s`. -/
def mix16 (data : Array UInt8) (i s : Nat) : UInt64 :=
  foldProduct (word64 data i ^^^ word64 secret s) (word64 data (i + 8) ^^^ word64 secret (s + 8))

/-- The first, middle and last byte of an input of one to three bytes, with its length. -/
def combine3 (data : Array UInt8) : UInt64 :=
  let length := data.size
  (byteAt data 0 <<< 16) ||| (byteAt data (length / 2) <<< 24) ||| byteAt data (length - 1) |||
    (UInt64.ofNat length <<< 8)

/-! ## Inputs of more than 240 bytes -/

/-- The eight lanes before the first stripe. -/
def initialLanes : Array UInt64 :=
  #[prime32C, prime64A, prime64B, prime64C, prime64D, prime32B, prime64E, prime32A]

/-- Fold the 64 bytes of the input at `i` into the lanes, under the secret at `s`. -/
def addStripe (data : Array UInt8) (lanes : Array UInt64) (i s : Nat) : Array UInt64 :=
  (Array.range 8).map fun lane =>
    let own : UInt64 := word64 data (i + 8 * lane) ^^^ word64 secret (s + 8 * lane)
    let partner := if lane % 2 = 0 then lane + 1 else lane - 1
    lanes.getD lane 0 + word64 data (i + 8 * partner) +
      (own &&& (0xFFFFFFFF : UInt64)) * (own >>> 32)

/-- Fold `count` stripes from `i` on, the secret advancing by a word each time. -/
def addStripes (data : Array UInt8) (lanes : Array UInt64) (i count : Nat) : Array UInt64 :=
  (List.range count).foldl (fun lanes n => addStripe data lanes (i + 64 * n) (8 * n)) lanes

/-- Stir the lanes at the end of a block of 1024 bytes. -/
def scramble (lanes : Array UInt64) : Array UInt64 :=
  (Array.range 8).map fun lane =>
    (xorShift (lanes.getD lane 0) 47 ^^^ word64 secret (128 + 8 * lane)) * prime32A

/-- The lanes after the whole input. -/
def foldLong (data : Array UInt8) : Array UInt64 :=
  let length := data.size
  let blocks := (length - 1) / 1024
  let lanes := (List.range blocks).foldl
    (fun lanes n => scramble (addStripes data lanes (1024 * n) 16)) initialLanes
  let rest := 1024 * blocks
  let lanes := addStripes data lanes rest ((length - 1 - rest) / 64)
  addStripe data lanes (length - 64) 121

/-- One word from the lanes, under the secret at `s`. -/
def mergeLanes (lanes : Array UInt64) (s : Nat) (start : UInt64) : UInt64 :=
  avalanche <| (List.range 4).foldl
    (fun sum k => sum + foldProduct (lanes.getD (2 * k) 0 ^^^ word64 secret (s + 16 * k))
      (lanes.getD (2 * k + 1) 0 ^^^ word64 secret (s + 16 * k + 8))) start

/-! ## The 64-bit hash -/

/-- The hash of 17 to 128 bytes: pairs of 16-byte pieces from the ends inwards. -/
def hashMiddle64 (data : Array UInt8) : UInt64 :=
  let length := data.size
  let pairs := (length - 1) / 32 + 1
  let sum := (List.range pairs).foldl
    (fun sum k => sum + mix16 data (16 * k) (32 * k) +
      mix16 data (length - 16 * (k + 1)) (32 * k + 16))
    (UInt64.ofNat length * prime64A)
  avalanche sum

/-- The hash of 129 to 240 bytes. -/
def hashLarge64 (data : Array UInt8) : UInt64 :=
  let length := data.size
  let first := (List.range 8).foldl (fun sum k => sum + mix16 data (16 * k) (16 * k))
    (UInt64.ofNat length * prime64A)
  let sum := (List.range (length / 16 - 8)).foldl
    (fun sum k => sum + mix16 data (16 * (k + 8)) (16 * k + 3)) (avalanche first)
  avalanche (sum + mix16 data (length - 16) 119)

/-- The 64-bit hash. -/
def hash64 (bytes : List UInt8) : UInt64 :=
  let data := bytes.toArray
  let length := data.size
  let count := UInt64.ofNat length
  if length = 0 then avalancheShort (secretPair 56)
  else if length ≤ 3 then
    avalancheShort (combine3 data ^^^ (word32 secret 0 ^^^ word32 secret 4))
  else if length ≤ 8 then
    let x := (word32 data (length - 4) + (word32 data 0 <<< 32)) ^^^ secretPair 8
    let x := (x ^^^ rotateLeft x 49 ^^^ rotateLeft x 24) * primeMixB
    let x := (x ^^^ ((x >>> 35) + count)) * primeMixB
    xorShift x 28
  else if length ≤ 16 then
    let low := word64 data 0 ^^^ secretPair 24
    let high := word64 data (length - 8) ^^^ secretPair 40
    avalanche (count + reverseBytes 8 low + high + foldProduct low high)
  else if length ≤ 128 then hashMiddle64 data
  else if length ≤ 240 then hashLarge64 data
  else mergeLanes (foldLong data) 11 (count * prime64A)

/-! ## The 128-bit hash: high word, low word -/

/-- Mix the 16 bytes at `i` and the 16 bytes at `j` into a pair of words. -/
def mix32 (data : Array UInt8) (sums : UInt64 × UInt64) (i j s : Nat) : UInt64 × UInt64 :=
  let (high, low) := sums
  ((high + mix16 data j (s + 16)) ^^^ (word64 data i + word64 data (i + 8)),
   (low + mix16 data i s) ^^^ (word64 data j + word64 data (j + 8)))

/-- The hash from the mixed pair of an input of 17 to 240 bytes. -/
def finish128 (length : UInt64) (sums : UInt64 × UInt64) : UInt64 × UInt64 :=
  let (high, low) := sums
  (0 - avalanche (low * prime64A + high * prime64D + length * prime64B), avalanche (low + high))

/-- The hash of 17 to 128 bytes: pieces from the middle outwards. -/
def hashMiddle128 (data : Array UInt8) : UInt64 × UInt64 :=
  let length := data.size
  let count := UInt64.ofNat length
  let pairs := (length - 1) / 32 + 1
  let sums := (List.range pairs).foldr
    (fun k sums => mix32 data sums (16 * k) (length - 16 * (k + 1)) (32 * k)) (0, count * prime64A)
  finish128 count sums

/-- The hash of 129 to 240 bytes. -/
def hashLarge128 (data : Array UInt8) : UInt64 × UInt64 :=
  let length := data.size
  let count := UInt64.ofNat length
  let (high, low) := (List.range 4).foldl
    (fun sums k => mix32 data sums (32 * k) (32 * k + 16) (32 * k)) (0, count * prime64A)
  let sums := (List.range (length / 32 - 4)).foldl
    (fun sums k => mix32 data sums (32 * (k + 4)) (32 * (k + 4) + 16) (32 * k + 3))
    (avalanche high, avalanche low)
  finish128 count (mix32 data sums (length - 16) (length - 32) 103)

/-- The 128-bit hash. -/
def hash128 (bytes : List UInt8) : UInt64 × UInt64 :=
  let data := bytes.toArray
  let length := data.size
  let count := UInt64.ofNat length
  if length = 0 then (avalancheShort (secretPair 80), avalancheShort (secretPair 64))
  else if length ≤ 3 then
    let low := combine3 data
    let turned := reverseBytes 4 low
    let high := ((turned <<< 13) ||| (turned >>> 19)) &&& 0xFFFFFFFF
    (avalancheShort (high ^^^ (word32 secret 8 ^^^ word32 secret 12)),
     avalancheShort (low ^^^ (word32 secret 0 ^^^ word32 secret 4)))
  else if length ≤ 8 then
    let keyed := (word32 data 0 + (word32 data (length - 4) <<< 32)) ^^^ secretPair 16
    let (high, low) := fullProduct keyed (prime64A + (count <<< 2))
    let high := high + (low <<< 1)
    let low := low ^^^ (high >>> 3)
    (avalanche high, xorShift (xorShift low 35 * primeMixB) 28)
  else if length ≤ 16 then
    let first := word64 data 0
    let last := word64 data (length - 8)
    let (high, low) := fullProduct (first ^^^ last ^^^ secretPair 32) prime64A
    let low := low + ((count - 1) <<< 54)
    let last := last ^^^ secretPair 48
    let high := high + last + (last &&& 0xFFFFFFFF) * (prime32B - 1)
    let low := low ^^^ reverseBytes 8 high
    let (top, bottom) := fullProduct low prime64B
    (avalanche (top + high * prime64B), avalanche bottom)
  else if length ≤ 128 then hashMiddle128 data
  else if length ≤ 240 then hashLarge128 data
  else
    let lanes := foldLong data
    (mergeLanes lanes 117 (~~~(count * prime64B)), mergeLanes lanes 11 (count * prime64A))

end RowIndex.Xxh3
