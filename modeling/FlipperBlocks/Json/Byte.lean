/-! The bytes that JSON gives a meaning to. -/
namespace FlipperBlocks.Json.Byte

def quote : UInt8 := 0x22
def comma : UInt8 := 0x2C
def minus : UInt8 := 0x2D
def plus : UInt8 := 0x2B
def point : UInt8 := 0x2E
def colon : UInt8 := 0x3A
def backslash : UInt8 := 0x5C
def openList : UInt8 := 0x5B
def closeList : UInt8 := 0x5D
def openObject : UInt8 := 0x7B
def closeObject : UInt8 := 0x7D

/-- The letters that start `null`, `true` and `false`, and the mark of a code unit. -/
def lowerN : UInt8 := 0x6E
def lowerT : UInt8 := 0x74
def lowerF : UInt8 := 0x66
def lowerU : UInt8 := 0x75

/-- What follows the first letter of `null`, `true` and `false`. -/
def afterN : List UInt8 := [0x75, 0x6C, 0x6C]
def afterT : List UInt8 := [0x72, 0x75, 0x65]
def afterF : List UInt8 := [0x61, 0x6C, 0x73, 0x65]

def isBlank (b : UInt8) : Bool := b == 0x20 || b == 0x0A || b == 0x09 || b == 0x0D

def isDigit (b : UInt8) : Bool := 0x30 ≤ b && b ≤ 0x39

/-- The mark in front of an exponent. -/
def isExponentMark (b : UInt8) : Bool := b == 0x65 || b == 0x45

def digit (b : UInt8) : Nat := b.toNat - 0x30

def hexDigit? (b : UInt8) : Option Nat :=
  if 0x30 ≤ b && b ≤ 0x39 then some (b.toNat - 0x30)
  else if 0x41 ≤ b && b ≤ 0x46 then some (b.toNat - 0x41 + 10)
  else if 0x61 ≤ b && b ≤ 0x66 then some (b.toNat - 0x61 + 10)
  else none

/-- The code unit that four hexadecimal digits spell. -/
def unit? (a b c d : UInt8) : Option Nat := do
  return (((← hexDigit? a) * 16 + (← hexDigit? b)) * 16 + (← hexDigit? c)) * 16 + (← hexDigit? d)

/-- The byte that a one-letter escape stands for. -/
def escape? (b : UInt8) : Option UInt8 :=
  if b == quote || b == backslash || b == 0x2F then some b
  else if b == 0x62 then some 0x08
  else if b == lowerF then some 0x0C
  else if b == lowerN then some 0x0A
  else if b == 0x72 then some 0x0D
  else if b == lowerT then some 0x09
  else none

end FlipperBlocks.Json.Byte
