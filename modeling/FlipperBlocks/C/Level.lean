/-! Binding levels of C expressions. -/
namespace FlipperBlocks.C

/-- How tightly an expression binds, the tightest level first. -/
inductive Level where
  | atomic
  | unary
  | multiplicative
  | additive
  | relational
  | equality
  | bitAnd
  | bitXor
  | bitOr
  | logicalAnd
  | logicalOr
  | conditional
  deriving DecidableEq

namespace Level

def rank : Level → Nat
  | atomic => 0
  | unary => 1
  | multiplicative => 2
  | additive => 3
  | relational => 4
  | equality => 5
  | bitAnd => 6
  | bitXor => 7
  | bitOr => 8
  | logicalAnd => 9
  | logicalOr => 10
  | conditional => 11

def all : List Level :=
  [atomic, unary, multiplicative, additive, relational, equality, bitAnd, bitXor, bitOr,
    logicalAnd, logicalOr, conditional]

def looser (a b : Level) : Bool := b.rank < a.rank

end Level

end FlipperBlocks.C
