import FlipperBlocks.Number.Binary64

/-! The shortest decimal of a binary number.

The reals that round to a finite number form an interval around it, with its ends when the
significand is even. On the coarsest grid of powers of ten with a point in that interval, one of the
number's two neighbours lies in it; the nearer one is taken. -/
namespace FlipperBlocks.Binary64

/-- Which of two equally near neighbours is taken. -/
inductive Tie where
  | upper
  | even
  deriving DecidableEq

/-- The chosen neighbour of a number between `down` and `down + 1`, `rest` parts of `grid` above the
lower one. -/
def Tie.nearer (tie : Tie) (down rest grid : Nat) : Nat :=
  if 2 * rest < grid then down
  else if 2 * rest = grid ∧ tie = .even then down + down % 2
  else down + 1

structure Decimal where
  digits : Nat
  exponent : Int

/-- The number, the lower and the upper end of its interval, in units of `2 ^ (exponent - 2)`. -/
structure Interval where
  low : Nat
  value : Nat
  high : Nat
  ends : Bool

/-- The interval of a positive finite number. Below a power of two the neighbours are twice as
near. -/
def interval (x : Binary64) : Interval :=
  let m := x.significand
  let below := if m = twoTo 52 ∧ -1074 < x.exponent then 1 else 2
  { low := 4 * m - below, value := 4 * m, high := 4 * m + 2, ends := m % 2 == 0 }

/-- Whether `point · grid` lies in the interval, both in the same units. -/
def Interval.holds (i : Interval) (unit point grid : Nat) : Bool :=
  if i.ends then i.low * unit ≤ point * grid && point * grid ≤ i.high * unit
  else i.low * unit < point * grid && point * grid < i.high * unit

/-- The point of the grid `10 ^ k` chosen for a number, if a neighbour of it is in the interval. -/
def gridPoint (tie : Tie) (x : Binary64) (k : Int) : Option Nat :=
  let i := x.interval
  let q := x.exponent - 2
  let unit := twoTo q.toNat * tenTo (-k).toNat
  let grid := twoTo (-q).toNat * tenTo k.toNat
  let down := i.value * unit / grid
  let rest := i.value * unit % grid
  match i.holds unit down grid, i.holds unit (down + 1) grid with
  | true, true => some (tie.nearer down rest grid)
  | true, false => some down
  | false, true => some (down + 1)
  | false, false => none

/-- The first point found on grids from `10 ^ k` down, looking at `steps` of them. -/
def coarsest (tie : Tie) (x : Binary64) : Nat → Int → Decimal
  | 0, k => ⟨0, k⟩
  | steps + 1, k =>
    match gridPoint tie x k with
    | some digits => ⟨digits, k⟩
    | none => coarsest tie x steps (k - 1)

/-- Trailing zeros of the digits moved into the exponent, `steps` of them at most. -/
def Decimal.strip : Nat → Decimal → Decimal
  | 0, d => d
  | steps + 1, d =>
    if d.digits ≠ 0 ∧ d.digits % 10 = 0 then strip steps ⟨d.digits / 10, d.exponent + 1⟩ else d

/-- The decimal with the fewest digits that reads back as the number, sign aside. Grids from
`10 ^ 309` to `10 ^ -340` hold one for every finite number. -/
def shortest (x : Binary64) (tie : Tie) : Decimal :=
  if x.significand = 0 then ⟨0, 0⟩ else (coarsest tie x 650 309).strip 20

end FlipperBlocks.Binary64
