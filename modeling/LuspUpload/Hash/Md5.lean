import LuspUpload.Hash.Rfc1321

/-!
# Hash.Md5 — `MD5` of the hash library

The object with its buffer of 64 bytes, which `reset` does not clear.  `processBuffer` has a second array of
64 bytes on its stack that it does not initialise: what is in it comes in as a parameter.
-/

namespace LuspUpload.Hash

open Lib

/-! ### One block -/

/-- The mix functions. -/
def f1 (b c d : BitVec 32) : BitVec 32 := d ^^^ (b &&& (c ^^^ d))

def f2 (b c d : BitVec 32) : BitVec 32 := c ^^^ (d &&& (b ^^^ c))

def f3 (b c d : BitVec 32) : BitVec 32 := b ^^^ c ^^^ d

def f4 (b c d : BitVec 32) : BitVec 32 := c ^^^ (b ||| ~~~ d)

/-- `rotate`. -/
def rotate (a : BitVec 32) (c : ℕ) : BitVec 32 := a <<< c ||| a >>> (32 - c)

section Lines

variable (f : BitVec 32 → BitVec 32 → BitVec 32 → BitVec 32) (word k : BitVec 32) (s : ℕ) (r : Regs)

/-- The line `a = rotate(a + f(b,c,d) + word + k, s) + b`, and those of the other three registers. -/
def lineA : Regs := { r with a := rotate (r.a + f r.b r.c r.d + word + k) s + r.b }

def lineD : Regs := { r with d := rotate (r.d + f r.a r.b r.c + word + k) s + r.a }

def lineC : Regs := { r with c := rotate (r.c + f r.d r.a r.b + word + k) s + r.d }

def lineB : Regs := { r with b := rotate (r.b + f r.c r.d r.a + word + k) s + r.c }

end Lines

/-- The first round of `processBlock`. -/
def firstRound (word : ℕ → BitVec 32) (r : Regs) : Regs :=
  let r := lineA f1 (word 0) 0xd76aa478 7 r
  let r := lineD f1 (word 1) 0xe8c7b756 12 r
  let r := lineC f1 (word 2) 0x242070db 17 r
  let r := lineB f1 (word 3) 0xc1bdceee 22 r
  let r := lineA f1 (word 4) 0xf57c0faf 7 r
  let r := lineD f1 (word 5) 0x4787c62a 12 r
  let r := lineC f1 (word 6) 0xa8304613 17 r
  let r := lineB f1 (word 7) 0xfd469501 22 r
  let r := lineA f1 (word 8) 0x698098d8 7 r
  let r := lineD f1 (word 9) 0x8b44f7af 12 r
  let r := lineC f1 (word 10) 0xffff5bb1 17 r
  let r := lineB f1 (word 11) 0x895cd7be 22 r
  let r := lineA f1 (word 12) 0x6b901122 7 r
  let r := lineD f1 (word 13) 0xfd987193 12 r
  let r := lineC f1 (word 14) 0xa679438e 17 r
  let r := lineB f1 (word 15) 0x49b40821 22 r
  r

/-- The second round of `processBlock`. -/
def secondRound (word : ℕ → BitVec 32) (r : Regs) : Regs :=
  let r := lineA f2 (word 1) 0xf61e2562 5 r
  let r := lineD f2 (word 6) 0xc040b340 9 r
  let r := lineC f2 (word 11) 0x265e5a51 14 r
  let r := lineB f2 (word 0) 0xe9b6c7aa 20 r
  let r := lineA f2 (word 5) 0xd62f105d 5 r
  let r := lineD f2 (word 10) 0x02441453 9 r
  let r := lineC f2 (word 15) 0xd8a1e681 14 r
  let r := lineB f2 (word 4) 0xe7d3fbc8 20 r
  let r := lineA f2 (word 9) 0x21e1cde6 5 r
  let r := lineD f2 (word 14) 0xc33707d6 9 r
  let r := lineC f2 (word 3) 0xf4d50d87 14 r
  let r := lineB f2 (word 8) 0x455a14ed 20 r
  let r := lineA f2 (word 13) 0xa9e3e905 5 r
  let r := lineD f2 (word 2) 0xfcefa3f8 9 r
  let r := lineC f2 (word 7) 0x676f02d9 14 r
  let r := lineB f2 (word 12) 0x8d2a4c8a 20 r
  r

/-- The third round of `processBlock`. -/
def thirdRound (word : ℕ → BitVec 32) (r : Regs) : Regs :=
  let r := lineA f3 (word 5) 0xfffa3942 4 r
  let r := lineD f3 (word 8) 0x8771f681 11 r
  let r := lineC f3 (word 11) 0x6d9d6122 16 r
  let r := lineB f3 (word 14) 0xfde5380c 23 r
  let r := lineA f3 (word 1) 0xa4beea44 4 r
  let r := lineD f3 (word 4) 0x4bdecfa9 11 r
  let r := lineC f3 (word 7) 0xf6bb4b60 16 r
  let r := lineB f3 (word 10) 0xbebfbc70 23 r
  let r := lineA f3 (word 13) 0x289b7ec6 4 r
  let r := lineD f3 (word 0) 0xeaa127fa 11 r
  let r := lineC f3 (word 3) 0xd4ef3085 16 r
  let r := lineB f3 (word 6) 0x04881d05 23 r
  let r := lineA f3 (word 9) 0xd9d4d039 4 r
  let r := lineD f3 (word 12) 0xe6db99e5 11 r
  let r := lineC f3 (word 15) 0x1fa27cf8 16 r
  let r := lineB f3 (word 2) 0xc4ac5665 23 r
  r

/-- The fourth round of `processBlock`. -/
def fourthRound (word : ℕ → BitVec 32) (r : Regs) : Regs :=
  let r := lineA f4 (word 0) 0xf4292244 6 r
  let r := lineD f4 (word 7) 0x432aff97 10 r
  let r := lineC f4 (word 14) 0xab9423a7 15 r
  let r := lineB f4 (word 5) 0xfc93a039 21 r
  let r := lineA f4 (word 12) 0x655b59c3 6 r
  let r := lineD f4 (word 3) 0x8f0ccc92 10 r
  let r := lineC f4 (word 10) 0xffeff47d 15 r
  let r := lineB f4 (word 1) 0x85845dd1 21 r
  let r := lineA f4 (word 8) 0x6fa87e4f 6 r
  let r := lineD f4 (word 15) 0xfe2ce6e0 10 r
  let r := lineC f4 (word 6) 0xa3014314 15 r
  let r := lineB f4 (word 13) 0x4e0811a1 21 r
  let r := lineA f4 (word 4) 0xf7537e82 6 r
  let r := lineD f4 (word 11) 0xbd3af235 10 r
  let r := lineC f4 (word 2) 0x2ad7d2bb 15 r
  let r := lineB f4 (word 9) 0xeb86d391 21 r
  r

/-- `processBlock`. -/
def processBlock (hash : Regs) (data : List UInt8) : Regs :=
  let word := fun i => BitVec.ofNat 32 (leNat ((data.drop (4 * i)).take 4))
  let r := fourthRound word (thirdRound word (secondRound word (firstRound word hash)))
  ⟨hash.a + r.a, hash.b + r.b, hash.c + r.c, hash.d + r.d⟩

/-! ### The object -/

/-- An array of 64 bytes. -/
abbrev Block := {bytes : List UInt8 // bytes.length = 64}

/-- Bytes written into it one after another. -/
def Block.write (block : Block) (k : ℕ) (bytes : List UInt8) : Block :=
  ⟨Blocks.store block.1 k bytes, Blocks.length_store.trans block.2⟩

/-- The object. -/
structure MD5 where
  numBytes : UInt64
  bufferSize : ℕ
  buffer : Block
  hash : Regs
  deriving DecidableEq, Repr

namespace MD5

def BlockSize : ℕ := 512 / 8

/-- `reset`; the buffer keeps its bytes. -/
def reset (m : MD5) : MD5 :=
  { m with numBytes := 0, bufferSize := 0, hash := ⟨0x67452301, 0xefcdab89, 0x98badcfe, 0x10325476⟩ }

/-- `m_buffer[m_bufferSize++] = b`. -/
def push (m : MD5) (b : UInt8) : MD5 :=
  { m with buffer := m.buffer.write m.bufferSize [b], bufferSize := m.bufferSize + 1 }

/-- The first loop of `add`: into the buffer as long as there is room. -/
def fill : MD5 → List UInt8 → MD5 × List UInt8
  | m, [] => (m, [])
  | m, b :: data => if m.bufferSize < BlockSize then fill (m.push b) data else (m, b :: data)

/-- The full buffer. -/
def fullBuffer (m : MD5) : MD5 :=
  if m.bufferSize = BlockSize then
    { m with
      hash := processBlock m.hash m.buffer.1
      numBytes := m.numBytes + .ofNat BlockSize
      bufferSize := 0 }
  else m

/-- The loop over the full blocks of the data; each round takes 64 of its bytes. -/
def blockLoop : ℕ → MD5 → List UInt8 → MD5 × List UInt8
  | 0, m, data => (m, data)
  | rounds + 1, m, data =>
    if BlockSize ≤ data.length then
      blockLoop rounds
        { m with
          hash := processBlock m.hash (data.take BlockSize)
          numBytes := m.numBytes + .ofNat BlockSize }
        (data.drop BlockSize)
    else (m, data)

/-- The last loop of `add`. -/
def keep (m : MD5) (data : List UInt8) : MD5 := data.foldl push m

/-- `add`. -/
def add (m : MD5) (data : List UInt8) : MD5 :=
  let filled := if 0 < m.bufferSize then m.fill data else (m, data)
  let m := filled.1.fullBuffer
  if filled.2.length = 0 then m
  else
    let rest := blockLoop filled.2.length m filled.2
    rest.1.keep rest.2

/-- `processBuffer`, with what its second array held before. -/
def processBuffer (extra : Block) (m : MD5) : MD5 :=
  let paddedLength := m.bufferSize * 8 + 1
  let lower11Bits := paddedLength &&& 511
  let paddedLength :=
    (if lower11Bits ≤ 448 then paddedLength + (448 - lower11Bits)
      else paddedLength + (512 + 448 - lower11Bits)) / 8
  let buffer := if m.bufferSize < BlockSize then m.buffer.write m.bufferSize [128] else m.buffer
  let extra := if m.bufferSize < BlockSize then extra else extra.write 0 [128]
  -- the two loops share `i`
  let buffer := buffer.write (m.bufferSize + 1) (List.replicate (BlockSize - (m.bufferSize + 1)) 0)
  let i := max (m.bufferSize + 1) BlockSize
  let extra := extra.write (i - BlockSize) (List.replicate (paddedLength - i) 0)
  let msgBits : UInt64 := 8 * (m.numBytes + .ofNat m.bufferSize)
  let buffer := if paddedLength < BlockSize then buffer.write paddedLength (leBytes 8 msgBits.toNat)
    else buffer
  let extra :=
    if paddedLength < BlockSize then extra
      else extra.write (paddedLength - BlockSize) (leBytes 8 msgBits.toNat)
  let hash := processBlock m.hash buffer.1
  { m with buffer := buffer, hash := if BlockSize < paddedLength then processBlock hash extra.1 else hash }

/-- `getHash` to a buffer, which puts the registers back. -/
def getHashBytes (extra : Block) (m : MD5) : List UInt8 × MD5 :=
  let p := m.processBuffer extra
  (leBytes 4 p.hash.a.toNat ++ leBytes 4 p.hash.b.toNat ++ leBytes 4 p.hash.c.toNat ++
    leBytes 4 p.hash.d.toNat,
    { p with hash := m.hash })

/-- `dec2hex`. -/
def dec2hex (n : ℕ) : UInt8 :=
  [48, 49, 50, 51, 52, 53, 54, 55, 56, 57, 97, 98, 99, 100, 101, 102].getD n 0

/-- Two digits for each byte. -/
def hexText (bytes : List UInt8) : List UInt8 :=
  bytes.flatMap fun b : UInt8 => [dec2hex (b >>> 4 &&& 15).toNat, dec2hex (b &&& 15).toNat]

/-- `getHash`. -/
def getHash (extra : Block) (m : MD5) : List UInt8 × MD5 :=
  (hexText (m.getHashBytes extra).1, (m.getHashBytes extra).2)

end MD5

end LuspUpload.Hash
