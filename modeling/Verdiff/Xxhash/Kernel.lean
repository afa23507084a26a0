import Verdiff.Common
import Verdiff.Library.Cells
import Mathlib.Data.Fin.VecNotation
import Mathlib.Data.Fintype.Fin
import Mathlib.Data.UInt

/-! The words XXH3 is built from, and the routines it has in several versions.

Which version runs is chosen when the program is compiled. A build is a choice of all of them,
with what the rest of the hash relies on.
-/

set_option autoImplicit false

namespace Verdiff
open Cells

/-- Bytes from a pointer on. -/
abbrev Memory := Nat → UInt8

def xxhPrime32_1 : UInt32 := 0x9E3779B1

def xxhPrime32_2 : UInt32 := 0x85EBCA77

def xxhPrime32_3 : UInt32 := 0xC2B2AE3D

def xxhPrime64_1 : UInt64 := 0x9E3779B185EBCA87

def xxhPrime64_2 : UInt64 := 0xC2B2AE3D27D4EB4F

def xxhPrime64_3 : UInt64 := 0x165667B19E3779F9

def xxhPrime64_4 : UInt64 := 0x85EBCA77C2B2AE63

def xxhPrime64_5 : UInt64 := 0x27D4EB2F165667C5

def primeMx1 : UInt64 := 0x165667919E3779F9

def primeMx2 : UInt64 := 0x9FB21C651E98DF25

def xxhSecretDefaultSize : Nat := 192

def kSecretBytes : Bytes := [
    0xb8, 0xfe, 0x6c, 0x39, 0x23, 0xa4, 0x4b, 0xbe, 0x7c, 0x01, 0x81, 0x2c, 0xf7, 0x21, 0xad, 0x1c,
    0xde, 0xd4, 0x6d, 0xe9, 0x83, 0x90, 0x97, 0xdb, 0x72, 0x40, 0xa4, 0xa4, 0xb7, 0xb3, 0x67, 0x1f,
    0xcb, 0x79, 0xe6, 0x4e, 0xcc, 0xc0, 0xe5, 0x78, 0x82, 0x5a, 0xd0, 0x7d, 0xcc, 0xff, 0x72, 0x21,
    0xb8, 0x08, 0x46, 0x74, 0xf7, 0x43, 0x24, 0x8e, 0xe0, 0x35, 0x90, 0xe6, 0x81, 0x3a, 0x26, 0x4c,
    0x3c, 0x28, 0x52, 0xbb, 0x91, 0xc3, 0x00, 0xcb, 0x88, 0xd0, 0x65, 0x8b, 0x1b, 0x53, 0x2e, 0xa3,
    0x71, 0x64, 0x48, 0x97, 0xa2, 0x0d, 0xf9, 0x4e, 0x38, 0x19, 0xef, 0x46, 0xa9, 0xde, 0xac, 0xd8,
    0xa8, 0xfa, 0x76, 0x3f, 0xe3, 0x9c, 0x34, 0x3f, 0xf9, 0xdc, 0xbb, 0xc7, 0xc7, 0x0b, 0x4f, 0x1d,
    0x8a, 0x51, 0xe0, 0x4b, 0xcd, 0xb4, 0x59, 0x31, 0xc8, 0x9f, 0x7e, 0xc9, 0xd9, 0x78, 0x73, 0x64,
    0xea, 0xc5, 0xac, 0x83, 0x34, 0xd3, 0xeb, 0xc3, 0xc5, 0x81, 0xa0, 0xff, 0xfa, 0x13, 0x63, 0xeb,
    0x17, 0x0d, 0xdd, 0x51, 0xb7, 0xf0, 0xda, 0x49, 0xd3, 0x16, 0x55, 0x26, 0x29, 0xd4, 0x68, 0x9e,
    0x2b, 0x16, 0xbe, 0x58, 0x7d, 0x47, 0xa1, 0xfc, 0x8f, 0xf8, 0xb8, 0xd1, 0x7a, 0xd0, 0x31, 0xce,
    0x45, 0xcb, 0x3a, 0x8f, 0x95, 0x16, 0x04, 0x28, 0xaf, 0xd7, 0xfb, 0xca, 0xbb, 0x4b, 0x40, 0x7e]

def xxh3KSecret : Memory := fun i => kSecretBytes.getD i 0

/-! ## Words -/

def xxhReadLE32 (ptr : Memory) : UInt32 :=
  (ptr 0).toUInt32 ||| (ptr 1).toUInt32 <<< 8 ||| (ptr 2).toUInt32 <<< 16 ||| (ptr 3).toUInt32 <<< 24

def xxhReadLE64 (ptr : Memory) : UInt64 :=
  (ptr 0).toUInt64 ||| (ptr 1).toUInt64 <<< 8 ||| (ptr 2).toUInt64 <<< 16 ||| (ptr 3).toUInt64 <<< 24 |||
    (ptr 4).toUInt64 <<< 32 ||| (ptr 5).toUInt64 <<< 40 ||| (ptr 6).toUInt64 <<< 48 ||| (ptr 7).toUInt64 <<< 56

theorem xxhReadLE32_agree {first second : Memory} (agree : Agree 4 first second) :
    xxhReadLE32 first = xxhReadLE32 second := by
  simp only [xxhReadLE32, agree 0 (by decide), agree 1 (by decide), agree 2 (by decide), agree 3 (by decide)]

theorem xxhReadLE64_agree {first second : Memory} (agree : Agree 8 first second) :
    xxhReadLE64 first = xxhReadLE64 second := by
  simp only [xxhReadLE64, agree 0 (by decide), agree 1 (by decide), agree 2 (by decide), agree 3 (by decide),
    agree 4 (by decide), agree 5 (by decide), agree 6 (by decide), agree 7 (by decide)]

def xxhSwap32 (x : UInt32) : UInt32 :=
  (x <<< 24 &&& (0xff000000 : UInt32)) ||| (x <<< 8 &&& (0x00ff0000 : UInt32)) |||
    (x >>> 8 &&& (0x0000ff00 : UInt32)) ||| (x >>> 24 &&& (0x000000ff : UInt32))

def xxhSwap64 (x : UInt64) : UInt64 :=
  (x <<< 56 &&& (0xff00000000000000 : UInt64)) ||| (x <<< 40 &&& (0x00ff000000000000 : UInt64)) |||
    (x <<< 24 &&& (0x0000ff0000000000 : UInt64)) ||| (x <<< 8 &&& (0x000000ff00000000 : UInt64)) |||
    (x >>> 8 &&& (0x00000000ff000000 : UInt64)) ||| (x >>> 24 &&& (0x0000000000ff0000 : UInt64)) |||
    (x >>> 40 &&& (0x000000000000ff00 : UInt64)) ||| (x >>> 56 &&& (0x00000000000000ff : UInt64))

def xxhRotl64 (x : UInt64) (r : UInt64) : UInt64 := x <<< r ||| x >>> (64 - r)

def xxhMult32to64 (x y : UInt64) : UInt64 := x.toUInt32.toUInt64 * y.toUInt32.toUInt64

def xxhXorshift64 (v64 shift : UInt64) : UInt64 := v64 ^^^ v64 >>> shift

def xxh64Avalanche (hash : UInt64) : UInt64 :=
  let hash := hash ^^^ hash >>> 33
  let hash := hash * xxhPrime64_2
  let hash := hash ^^^ hash >>> 29
  let hash := hash * xxhPrime64_3
  hash ^^^ hash >>> 32

def xxh3Avalanche (h64 : UInt64) : UInt64 := xxhXorshift64 (xxhXorshift64 h64 37 * primeMx1) 32

def xxh3Rrmxmx (h64 len : UInt64) : UInt64 :=
  let h64 := h64 ^^^ (xxhRotl64 h64 49 ^^^ xxhRotl64 h64 24)
  let h64 := h64 * primeMx2
  let h64 := h64 ^^^ (h64 >>> 35 + len)
  let h64 := h64 * primeMx2
  xxhXorshift64 h64 28

end Verdiff
