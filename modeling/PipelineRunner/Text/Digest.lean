import PipelineRunner.Text.Bytes

/-!
Digests of bytes. The bytes are filled up to whole blocks of 64, the last of which ends with their
number of bits; every block changes a state of a few words.
-/

namespace PipelineRunner.Text.Digest

/-- Words of 32 bits. -/
abbrev Words := Array UInt32

/-- The bits of a word moved to the left; those that leave it come in on the right. -/
def rotate (x : UInt32) (n : UInt32) : UInt32 := (x <<< n) ||| (x >>> (32 - n))

/-- A number as bytes, the lowest first. -/
def littleEndian (n : Nat) : Nat → List UInt8
  | 0 => []
  | count + 1 => UInt8.ofNat (n % 256) :: littleEndian (n / 256) count

def filled (bigEndian : Bool) (bytes : List UInt8) : List UInt8 :=
  let zeros := (119 - bytes.length % 64) % 64
  let size := littleEndian (8 * bytes.length) 8
  bytes ++ 0x80 :: List.replicate zeros 0 ++ (if bigEndian then size.reverse else size)

def word (bigEndian : Bool) (bytes : List UInt8) : UInt32 :=
  let bytes := if bigEndian then bytes else bytes.reverse
  bytes.foldl (fun w b => (w <<< 8) ||| b.toUInt32) 0

/-- The words of the bytes, so many of them. -/
def words (bigEndian : Bool) : Nat → List UInt8 → List UInt32
  | 0, _ => []
  | n + 1, bytes => word bigEndian (bytes.take 4) :: words bigEndian n (bytes.drop 4)

def blocks : Nat → List UInt32 → List Words
  | 0, _ => []
  | n + 1, ws => (ws.take 16).toArray :: blocks n (ws.drop 16)

def run (bigEndian : Bool) (step : Words → Words → Words) (start : Words) (bytes : List UInt8) :
    Words :=
  let bytes := filled bigEndian bytes
  let count := bytes.length / 64
  (blocks count (words bigEndian (16 * count) bytes)).foldl step start

/-- Two hexadecimal digits for every byte of some words. -/
def hexText (bigEndian : Bool) (ws : Words) : String :=
  let digits (n : Nat) : List Char := [Nat.digitChar (n / 16), Nat.digitChar (n % 16)]
  String.ofList (ws.toList.flatMap fun w =>
    let bytes := littleEndian w.toNat 4
    (if bigEndian then bytes.reverse else bytes).flatMap fun b => digits b.toNat)

def sum (a b : Words) : Words := (a.zip b).map fun (x, y) => x + y

def at_ (ws : Words) (i : Nat) : UInt32 := ws.getD i 0

/-- The whole part of `2 ^ 32 * |sin (i + 1)|`, for the first 64 numbers. -/
def sines : Words := #[
  0xd76aa478, 0xe8c7b756, 0x242070db, 0xc1bdceee, 0xf57c0faf, 0x4787c62a, 0xa8304613, 0xfd469501,
  0x698098d8, 0x8b44f7af, 0xffff5bb1, 0x895cd7be, 0x6b901122, 0xfd987193, 0xa679438e, 0x49b40821,
  0xf61e2562, 0xc040b340, 0x265e5a51, 0xe9b6c7aa, 0xd62f105d, 0x02441453, 0xd8a1e681, 0xe7d3fbc8,
  0x21e1cde6, 0xc33707d6, 0xf4d50d87, 0x455a14ed, 0xa9e3e905, 0xfcefa3f8, 0x676f02d9, 0x8d2a4c8a,
  0xfffa3942, 0x8771f681, 0x6d9d6122, 0xfde5380c, 0xa4beea44, 0x4bdecfa9, 0xf6bb4b60, 0xbebfbc70,
  0x289b7ec6, 0xeaa127fa, 0xd4ef3085, 0x04881d05, 0xd9d4d039, 0xe6db99e5, 0x1fa27cf8, 0xc4ac5665,
  0xf4292244, 0x432aff97, 0xab9423a7, 0xfc93a039, 0x655b59c3, 0x8f0ccc92, 0xffeff47d, 0x85845dd1,
  0x6fa87e4f, 0xfe2ce6e0, 0xa3014314, 0x4e0811a1, 0xf7537e82, 0xbd3af235, 0x2ad7d2bb, 0xeb86d391]

/-- The rotations of the rounds of MD5. -/
def shifts : Words := #[7, 12, 17, 22, 5, 9, 14, 20, 4, 11, 16, 23, 6, 10, 15, 21]

def md5Step (state block : Words) : Words :=
  let final := (List.range 64).foldl (fun (s : Words) i =>
    let (a, b, c, d) := (at_ s 0, at_ s 1, at_ s 2, at_ s 3)
    let (f, g) : UInt32 × Nat :=
      if i < 16 then ((b &&& c) ||| (~~~b &&& d), i)
      else if i < 32 then ((d &&& b) ||| (~~~d &&& c), (5 * i + 1) % 16)
      else if i < 48 then (b ^^^ c ^^^ d, (3 * i + 5) % 16)
      else (c ^^^ (b ||| ~~~d), 7 * i % 16)
    let turned := rotate (a + f + at_ sines i + at_ block g) (at_ shifts (i / 16 * 4 + i % 4))
    #[d, b + turned, b, c]) state
  sum state final

def md5 (bytes : List UInt8) : String :=
  hexText false (run false md5Step #[0x67452301, 0xefcdab89, 0x98badcfe, 0x10325476] bytes)

def sha1Words (block : Words) : Words :=
  (List.range 64).foldl (fun (ws : Words) i =>
    ws.push (rotate (at_ ws (i + 13) ^^^ at_ ws (i + 8) ^^^ at_ ws (i + 2) ^^^ at_ ws i) 1)) block

def sha1Step (state block : Words) : Words :=
  let ws := sha1Words block
  let final := (List.range 80).foldl (fun (s : Words) i =>
    let (a, b, c, d, e) := (at_ s 0, at_ s 1, at_ s 2, at_ s 3, at_ s 4)
    let (f, k) : UInt32 × UInt32 :=
      if i < 20 then ((b &&& c) ||| (~~~b &&& d), 0x5a827999)
      else if i < 40 then (b ^^^ c ^^^ d, 0x6ed9eba1)
      else if i < 60 then ((b &&& c) ||| (b &&& d) ||| (c &&& d), 0x8f1bbcdc)
      else (b ^^^ c ^^^ d, 0xca62c1d6)
    #[rotate a 5 + f + e + k + at_ ws i, a, rotate b 30, c, d]) state
  sum state final

def sha1 (bytes : List UInt8) : String :=
  hexText true
    (run true sha1Step #[0x67452301, 0xefcdab89, 0x98badcfe, 0x10325476, 0xc3d2e1f0] bytes)

/-- The fractions of the cube roots of the first 64 primes. -/
def cubeRoots : Words := #[
  0x428a2f98, 0x71374491, 0xb5c0fbcf, 0xe9b5dba5, 0x3956c25b, 0x59f111f1, 0x923f82a4, 0xab1c5ed5,
  0xd807aa98, 0x12835b01, 0x243185be, 0x550c7dc3, 0x72be5d74, 0x80deb1fe, 0x9bdc06a7, 0xc19bf174,
  0xe49b69c1, 0xefbe4786, 0x0fc19dc6, 0x240ca1cc, 0x2de92c6f, 0x4a7484aa, 0x5cb0a9dc, 0x76f988da,
  0x983e5152, 0xa831c66d, 0xb00327c8, 0xbf597fc7, 0xc6e00bf3, 0xd5a79147, 0x06ca6351, 0x14292967,
  0x27b70a85, 0x2e1b2138, 0x4d2c6dfc, 0x53380d13, 0x650a7354, 0x766a0abb, 0x81c2c92e, 0x92722c85,
  0xa2bfe8a1, 0xa81a664b, 0xc24b8b70, 0xc76c51a3, 0xd192e819, 0xd6990624, 0xf40e3585, 0x106aa070,
  0x19a4c116, 0x1e376c08, 0x2748774c, 0x34b0bcb5, 0x391c0cb3, 0x4ed8aa4a, 0x5b9cca4f, 0x682e6ff3,
  0x748f82ee, 0x78a5636f, 0x84c87814, 0x8cc70208, 0x90befffa, 0xa4506ceb, 0xbef9a3f7, 0xc67178f2]

def sha256Words (block : Words) : Words :=
  (List.range 48).foldl (fun (ws : Words) i =>
    let a := at_ ws (i + 1)
    let b := at_ ws (i + 14)
    let low := rotate a 25 ^^^ rotate a 14 ^^^ (a >>> 3)
    let high := rotate b 15 ^^^ rotate b 13 ^^^ (b >>> 10)
    ws.push (at_ ws i + low + at_ ws (i + 9) + high)) block

def sha256Step (state block : Words) : Words :=
  let ws := sha256Words block
  let final := (List.range 64).foldl (fun (s : Words) i =>
    let (a, b, c, d) := (at_ s 0, at_ s 1, at_ s 2, at_ s 3)
    let (e, f, g, h) := (at_ s 4, at_ s 5, at_ s 6, at_ s 7)
    let high := rotate e 26 ^^^ rotate e 21 ^^^ rotate e 7
    let choice := (e &&& f) ^^^ (~~~e &&& g)
    let one := h + high + choice + at_ cubeRoots i + at_ ws i
    let low := rotate a 30 ^^^ rotate a 19 ^^^ rotate a 10
    let two := low + ((a &&& b) ^^^ (a &&& c) ^^^ (b &&& c))
    #[one + two, a, b, c, d + one, e, f, g]) state
  sum state final

def sha256 (bytes : List UInt8) : String :=
  hexText true (run true sha256Step #[0x6a09e667, 0xbb67ae85, 0x3c6ef372, 0xa54ff53a, 0x510e527f,
    0x9b05688c, 0x1f83d9ab, 0x5be0cd19] bytes)

def crcBit (crc : UInt32) : UInt32 :=
  if crc &&& 0x80000000 != 0 then (crc <<< 1) ^^^ 0x04c11db7 else crc <<< 1

def crcByte (crc : UInt32) (b : UInt8) : UInt32 :=
  (List.range 8).foldl (fun crc _ => crcBit crc) (crc ^^^ (b.toUInt32 <<< 24))

/-- The bytes of a number without zeros at the end, the lowest first. -/
def lengthBytes : Nat → Nat → List UInt8
  | 0, _ => []
  | fuel + 1, n => if n = 0 then [] else UInt8.ofNat (n % 256) :: lengthBytes fuel (n / 256)

/-- The cyclic remainder of the bytes and their number. -/
def crc (bytes : List UInt8) : Nat :=
  (~~~ ((bytes ++ lengthBytes 10 bytes.length).foldl crcByte 0)).toNat

end PipelineRunner.Text.Digest
