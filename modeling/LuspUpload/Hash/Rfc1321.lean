import LuspUpload.Lib.Blocks
import LuspUpload.Lib.LeBytes

/-!
# Hash.Rfc1321 — the MD5 message digest

The digest as RFC 1321 has it, which `MD5` of the hash library refers to: the padding, the tables of the
64 operations of a block, and one operation after another on four registers that move on by one place each
time.
-/

namespace LuspUpload.Hash

open Lib

/-- The four registers. -/
structure Regs where
  a : BitVec 32
  b : BitVec 32
  c : BitVec 32
  d : BitVec 32
  deriving DecidableEq, Repr

namespace Rfc1321

/-- The registers before the first block. -/
def INIT : Regs := ⟨0x67452301, 0xefcdab89, 0x98badcfe, 0x10325476⟩

/-- The auxiliary function of an operation. -/
def aux (i : ℕ) (x y z : BitVec 32) : BitVec 32 :=
  match i / 16 with
  | 0 => x &&& y ||| ~~~ x &&& z
  | 1 => x &&& z ||| y &&& ~~~ z
  | 2 => x ^^^ y ^^^ z
  | _ => y ^^^ (x ||| ~~~ z)

/-- The word of the block that an operation takes. -/
def wordIndex (i : ℕ) : ℕ :=
  match i / 16 with
  | 0 => i % 16
  | 1 => (5 * i + 1) % 16
  | 2 => (3 * i + 5) % 16
  | _ => 7 * i % 16

/-- The rotation of an operation. -/
def shift (i : ℕ) : ℕ :=
  (match i / 16 with
  | 0 => [7, 12, 17, 22]
  | 1 => [5, 9, 14, 20]
  | 2 => [4, 11, 16, 23]
  | _ => [6, 10, 15, 21]).getD (i % 4) 0

/-- The constants: the integer part of 4294967296 times the absolute value of sin (i + 1). -/
def SINES : List (BitVec 32) :=
  [0xd76aa478, 0xe8c7b756, 0x242070db, 0xc1bdceee, 0xf57c0faf, 0x4787c62a, 0xa8304613, 0xfd469501,
    0x698098d8, 0x8b44f7af, 0xffff5bb1, 0x895cd7be, 0x6b901122, 0xfd987193, 0xa679438e, 0x49b40821,
    0xf61e2562, 0xc040b340, 0x265e5a51, 0xe9b6c7aa, 0xd62f105d, 0x02441453, 0xd8a1e681, 0xe7d3fbc8,
    0x21e1cde6, 0xc33707d6, 0xf4d50d87, 0x455a14ed, 0xa9e3e905, 0xfcefa3f8, 0x676f02d9, 0x8d2a4c8a,
    0xfffa3942, 0x8771f681, 0x6d9d6122, 0xfde5380c, 0xa4beea44, 0x4bdecfa9, 0xf6bb4b60, 0xbebfbc70,
    0x289b7ec6, 0xeaa127fa, 0xd4ef3085, 0x04881d05, 0xd9d4d039, 0xe6db99e5, 0x1fa27cf8, 0xc4ac5665,
    0xf4292244, 0x432aff97, 0xab9423a7, 0xfc93a039, 0x655b59c3, 0x8f0ccc92, 0xffeff47d, 0x85845dd1,
    0x6fa87e4f, 0xfe2ce6e0, 0xa3014314, 0x4e0811a1, 0xf7537e82, 0xbd3af235, 0x2ad7d2bb, 0xeb86d391]

/-- One operation, after which the registers move on. -/
def turn (f : BitVec 32 → BitVec 32 → BitVec 32 → BitVec 32) (x k : BitVec 32) (s : ℕ) (r : Regs) : Regs :=
  ⟨r.d, r.b + (r.a + f r.b r.c r.d + x + k).rotateLeft s, r.b, r.c⟩

/-- The words of a block. -/
def word (block : List UInt8) (i : ℕ) : BitVec 32 := .ofNat 32 (leNat ((block.drop (4 * i)).take 4))

/-- A block: its 64 operations, added to the registers. -/
def compress (h : Regs) (block : List UInt8) : Regs :=
  let r := (List.range 64).foldl
    (fun r i => turn (aux i) (word block (wordIndex i)) (SINES.getD i 0) (shift i) r) h
  ⟨h.a + r.a, h.b + r.b, h.c + r.c, h.d + r.d⟩

/-- What is put behind a message: a one, zeros up to eight bytes before the end of a block, and the length
in bits, of which 64 are kept. -/
def padding (n : ℕ) : List UInt8 :=
  0x80 :: List.replicate ((119 - n % 64) % 64) 0 ++ leBytes 8 (8 * n)

/-- The registers, least significant byte first. -/
def digest (h : Regs) : List UInt8 :=
  leBytes 4 h.a.toNat ++ leBytes 4 h.b.toNat ++ leBytes 4 h.c.toNat ++ leBytes 4 h.d.toNat

/-- The digest of a message. -/
def md5 (data : List UInt8) : List UInt8 :=
  digest ((Blocks.blocks 64 (data ++ padding data.length)).foldl compress INIT)

theorem length_padding (n : ℕ) : 64 ∣ n + (padding n).length := by
  rw [padding, List.length_append, List.length_cons, List.length_replicate, leBytes_length]
  omega

end Rfc1321

end LuspUpload.Hash
