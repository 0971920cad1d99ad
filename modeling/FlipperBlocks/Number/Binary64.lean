/-! Binary floating-point numbers of 64 bits, held by their bit pattern.

A finite number is a sign, a whole significand and a power of two. Keeping the pattern keeps every
value apart, the two zeros and the payloads of NaN included, and reading it needs only `Nat`. -/
namespace FlipperBlocks

def twoTo (n : Nat) : Nat := Nat.pow 2 n

def tenTo (n : Nat) : Nat := Nat.pow 10 n

structure Binary64 where
  bits : UInt64
  deriving DecidableEq

namespace Binary64

def ofFloat (x : Float) : Binary64 := ⟨x.toBits⟩

def toFloat (x : Binary64) : Float := Float.ofBits x.bits

def negative (x : Binary64) : Bool := twoTo 63 ≤ x.bits.toNat

/-- The pattern without its sign; patterns of finite numbers grow with the number's size. -/
def magnitude (x : Binary64) : Nat := x.bits.toNat % twoTo 63

/-- The magnitude of infinity; everything above it is NaN. -/
def infinityMagnitude : Nat := 2047 * twoTo 52

def isFinite (x : Binary64) : Bool := x.magnitude < infinityMagnitude

def isNaN (x : Binary64) : Bool := infinityMagnitude < x.magnitude

/-- The number with this sign and magnitude. -/
def ofMagnitude (negative : Bool) (magnitude : Nat) : Binary64 :=
  ⟨UInt64.ofNat (magnitude + if negative then twoTo 63 else 0)⟩

/-- A finite number is its significand times two to its exponent. -/
def significand (x : Binary64) : Nat :=
  if x.magnitude < twoTo 52 then x.magnitude else x.magnitude % twoTo 52 + twoTo 52

def exponent (x : Binary64) : Int :=
  if x.magnitude < twoTo 52 then -1074 else (x.magnitude / twoTo 52 : Nat) - 1075

def whole (x : Binary64) : Nat :=
  if 0 ≤ x.exponent then x.significand * twoTo x.exponent.toNat
  else x.significand / twoTo (-x.exponent).toNat

def isWhole (x : Binary64) : Bool := 0 ≤ x.exponent || x.significand % twoTo (-x.exponent).toNat == 0

/-- The whole part of a number brought into a range; a number without a value, or below zero,
gives the least one. -/
def clampWhole (low high : Nat) (x : Binary64) : Nat :=
  if x.isNaN || x.negative then low
  else if x.isFinite then min high (max low x.whole)
  else high

end Binary64

end FlipperBlocks
