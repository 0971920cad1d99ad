import FlipperBlocks.Value
import Mathlib.Algebra.Order.Ring.Nat

/-! Whole numbers as literals.

A whole number below `10 ^ 15` is written exactly. A larger one is written with the fewest digits that read back as
the number, and these are rounded at some place before the point: what is written is still whole, and near the
number. -/
namespace FlipperBlocks.Binary64

def integer? (x : Binary64) : Option Int :=
  if x.isFinite && x.isWhole then some (if x.negative then -(x.whole : Int) else x.whole) else none

section Digits

theorem digitsValue_digitChars (n : Nat) : digitsValue (digitChars n) = n := Nat.ofDigitChars_ten_toDigits

theorem digitChars_ne_nil (n : Nat) : digitChars n ≠ [] := Nat.toDigits_ne_nil

theorem isDigit_digitChars (n : Nat) : ∀ c ∈ digitChars n, c.isDigit = true :=
  fun _ member => Nat.isDigit_of_mem_toDigits (by decide) (by decide) member

theorem digitsValue_zeros (n count : Nat) : digitsValue (digitChars n ++ zeros count) = n * tenTo count := by
  change Nat.ofDigitChars 10 (digitChars n ++ zeros count) 0 = _
  rw [Nat.ofDigitChars_append, zeros, Nat.ofDigitChars_replicate_zero]
  change 10 ^ count * digitsValue (digitChars n) = _
  rw [digitsValue_digitChars, Nat.mul_comm]
  rfl

end Digits

theorem significand_lt (x : Binary64) : x.significand < twoTo 53 := by
  have less := Nat.mod_lt x.magnitude (show 0 < twoTo 52 by decide)
  have double : twoTo 53 = twoTo 52 + twoTo 52 := by decide
  unfold significand
  split <;> omega

theorem le_significand {x : Binary64} (normal : x.exponent ≠ -1074) : twoTo 52 ≤ x.significand := by
  unfold exponent at normal
  unfold significand
  split at normal
  · exact absurd rfl normal
  · rename_i large
    rw [if_neg large]
    omega

theorem Interval.between_of_holds {i : Interval} {unit point grid : Nat} (holds : i.holds unit point grid = true) :
    i.low * unit ≤ point * grid ∧ point * grid ≤ i.high * unit := by
  unfold Interval.holds at holds
  split at holds
  · simpa using holds
  · simp only [Bool.and_eq_true, decide_eq_true_eq] at holds
    exact ⟨holds.1.le, holds.2.le⟩

section Grids

variable {x : Binary64} {tie : Tie}

/-- A point that is chosen lies in the interval. -/
theorem holds_of_gridPoint {k : Int} {point : Nat} (chosen : gridPoint tie x k = some point) :
    x.interval.holds (twoTo (x.exponent - 2).toNat * tenTo (-k).toNat) point
      (twoTo (-(x.exponent - 2)).toNat * tenTo k.toNat) = true := by
  unfold gridPoint at chosen
  dsimp only at chosen
  split at chosen
  · rename_i down up
    obtain rfl := Option.some.inj chosen
    unfold Tie.nearer
    split
    · exact down
    split
    · rcases Nat.mod_two_eq_zero_or_one (x.interval.value * (twoTo (x.exponent - 2).toNat * tenTo (-k).toNat) /
        (twoTo (-(x.exponent - 2)).toNat * tenTo k.toNat)) with even | odd
      · rwa [even]
      · rwa [odd]
    · exact up
  · rename_i down _
    exact Option.some.inj chosen ▸ down
  · rename_i up
    exact Option.some.inj chosen ▸ up
  · contradiction

theorem whole_mul (exact : x.isWhole = true) :
    x.whole * twoTo (-(x.exponent - 2)).toNat = 4 * x.significand * twoTo (x.exponent - 2).toNat := by
  unfold isWhole at exact
  unfold Binary64.whole
  split
  · rename_i positive
    obtain ⟨n, same⟩ := Int.eq_ofNat_of_zero_le positive
    have left : (-(x.exponent - 2)).toNat = 2 - n := by omega
    have right : (x.exponent - 2).toNat = n - 2 := by omega
    have both : n + (2 - n) = 2 + (n - 2) := by omega
    have powers : twoTo n * twoTo (2 - n) = 4 * twoTo (n - 2) := by
      change 2 ^ n * 2 ^ (2 - n) = 2 ^ 2 * 2 ^ (n - 2)
      rw [← Nat.pow_add, both, Nat.pow_add]
    rw [left, right, same, Int.toNat_natCast, Nat.mul_assoc, powers, Nat.mul_left_comm, Nat.mul_assoc]
  · rename_i negative
    have divides : x.significand % twoTo (-x.exponent).toNat = 0 := by simpa [negative] using exact
    have left : (-(x.exponent - 2)).toNat = (-x.exponent).toNat + 2 := by omega
    have right : (x.exponent - 2).toNat = 0 := by omega
    have powers (n : Nat) : twoTo (n + 2) = twoTo n * 4 := Nat.pow_add 2 n 2
    rw [left, right, powers, ← Nat.mul_assoc, Nat.div_mul_cancel (Nat.dvd_of_mod_eq_zero divides), Nat.mul_comm]
    exact (Nat.mul_one _).symm

theorem isSome_gridPoint (exact : x.isWhole = true) (some : 0 < x.significand) :
    (gridPoint tie x 0).isSome = true := by
  have positive (n : Nat) : 0 < twoTo n := Nat.pow_pos (by decide)
  have same := whole_mul exact
  have down : 4 * x.significand * twoTo (x.exponent - 2).toNat / twoTo (-(x.exponent - 2)).toNat = x.whole := by
    rw [← same]
    exact Nat.mul_div_cancel _ (positive _)
  have low : x.interval.low < 4 * x.significand := by
    change 4 * x.significand - (if _ then 1 else 2) < 4 * x.significand
    split <;> omega
  have high : 4 * x.significand < x.interval.high := Nat.lt_add_of_pos_right (by decide)
  have holds : x.interval.holds (twoTo (x.exponent - 2).toNat) x.whole (twoTo (-(x.exponent - 2)).toNat) = true := by
    have above := Nat.mul_lt_mul_of_pos_right low (positive (x.exponent - 2).toNat)
    have below := Nat.mul_lt_mul_of_pos_right high (positive (x.exponent - 2).toNat)
    unfold Interval.holds
    rw [same]
    split
    · simp only [above.le, below.le, decide_true, Bool.and_self]
    · simp only [above, below, decide_true, Bool.and_self]
  have one (n : Nat) : n * tenTo 0 = n := Nat.mul_one n
  have point : x.interval.value = 4 * x.significand := rfl
  simp only [gridPoint, neg_zero, Int.toNat_zero, one, point, down, holds]
  cases x.interval.holds (twoTo (x.exponent - 2).toNat) (x.whole + 1) (twoTo (-(x.exponent - 2)).toNat) <;> rfl

theorem coarsest_whole (found : (gridPoint tie x 0).isSome = true) {steps k : Nat} (more : k < steps) :
    ∃ (point : Nat) (place : Nat), coarsest tie x steps k = ⟨point, place⟩ ∧ gridPoint tie x place = some point := by
  induction k generalizing steps with
  | zero =>
    obtain ⟨point, chosen⟩ := Option.isSome_iff_exists.1 found
    obtain ⟨steps, rfl⟩ := Nat.exists_eq_succ_of_ne_zero (show steps ≠ 0 by omega)
    refine ⟨point, 0, ?_, chosen⟩
    rw [coarsest]
    simp [chosen]
  | succ k ih =>
    obtain ⟨steps, rfl⟩ := Nat.exists_eq_succ_of_ne_zero (show steps ≠ 0 by omega)
    rw [coarsest]
    cases chosen : gridPoint tie x (k + 1 : Nat) with
    | some point => exact ⟨point, k + 1, rfl, chosen⟩
    | none =>
      have next : ((k + 1 : Nat) : Int) - 1 = k := by omega
      dsimp only
      rw [next]
      exact ih (by omega)

theorem strip_whole (steps point place : Nat) : ∃ (digits : Nat) (rest : Nat),
    Decimal.strip steps ⟨point, place⟩ = ⟨digits, rest⟩ ∧ digits * tenTo rest = point * tenTo place := by
  induction steps generalizing point place with
  | zero => exact ⟨point, place, rfl, rfl⟩
  | succ steps ih =>
    rw [Decimal.strip]
    split
    · rename_i zeros
      obtain ⟨digits, rest, same, value⟩ := ih (point / 10) (place + 1)
      refine ⟨digits, rest, same, value.trans ?_⟩
      have split := Nat.div_add_mod point 10
      have more : tenTo (place + 1) = 10 * tenTo place := Nat.pow_succ'
      rw [more, ← Nat.mul_assoc]
      congr 1
      dsimp only at zeros
      omega
    · exact ⟨point, place, rfl, rfl⟩

def Near (x : Binary64) (n : Nat) : Prop :=
  x.interval.low * twoTo (x.exponent - 2).toNat ≤ n * twoTo (-(x.exponent - 2)).toNat ∧
    n * twoTo (-(x.exponent - 2)).toNat ≤ x.interval.high * twoTo (x.exponent - 2).toNat

theorem shortest_whole (exact : x.isWhole = true) (some : 0 < x.significand) : ∃ (digits : Nat) (place : Nat),
    x.shortest tie = ⟨digits, place⟩ ∧ x.Near (digits * tenTo place) := by
  obtain ⟨point, place, first, chosen⟩ :=
    coarsest_whole (isSome_gridPoint exact some : (gridPoint tie x 0).isSome = true) (show 309 < 650 by decide)
  obtain ⟨digits, rest, same, value⟩ := strip_whole 20 point place
  refine ⟨digits, rest, ?_, ?_⟩
  · rw [shortest, if_neg some.ne', show (309 : Int) = (309 : Nat) from rfl, first, same]
  · have inside := Interval.between_of_holds (holds_of_gridPoint chosen)
    have none : (-(place : Int)).toNat = 0 := by omega
    have one (n : Nat) : n * tenTo 0 = n := Nat.mul_one n
    rw [none, one, Int.toNat_natCast, Nat.mul_comm (twoTo _) (tenTo place), ← Nat.mul_assoc] at inside
    rw [value]
    exact inside

end Grids

section Bounds

variable {x : Binary64} {n : Nat}

private theorem le_twoTo {a b : Nat} (le : a ≤ b) : twoTo a ≤ twoTo b := Nat.pow_le_pow_right (by decide) le

private theorem exponent_of_large (large : 0 < x.whole) : x.exponent ≠ -1074 := by
  intro same
  have less : x.significand < twoTo 1074 := x.significand_lt.trans_le (le_twoTo (by decide))
  rw [whole, same, if_neg (by decide)] at large
  exact absurd (Nat.div_eq_of_lt less) large.ne'

private theorem significand_pos (large : tenTo 15 ≤ x.whole) : 0 < x.significand := by
  by_contra none
  have zero : x.whole = 0 := by rw [whole, Nat.eq_zero_of_not_pos none, Nat.zero_mul, Nat.zero_div, ite_self]
  exact absurd (zero ▸ large) (by decide)

/-- What is near a number is at least half of it. -/
theorem Near.le_double (near : x.Near n) (exact : x.isWhole = true) (some : 0 < x.significand) :
    x.whole ≤ 2 * n := by
  have low : 2 * x.significand ≤ x.interval.low := by
    change _ ≤ 4 * x.significand - (if _ then 1 else 2)
    split <;> omega
  have positive : 0 < twoTo (-(x.exponent - 2)).toNat := Nat.pow_pos (by decide)
  refine Nat.le_of_mul_le_mul_right (c := twoTo (-(x.exponent - 2)).toNat) ?_ positive
  calc
    x.whole * _ = 2 * (2 * x.significand * twoTo (x.exponent - 2).toNat) := by
      rw [whole_mul exact, ← Nat.mul_assoc, ← Nat.mul_assoc]
    _ ≤ 2 * (n * _) := Nat.mul_le_mul_left 2 ((Nat.mul_le_mul_right _ low).trans near.1)
    _ = _ := (Nat.mul_assoc ..).symm

private theorem exponent_le (some : 0 < x.whole) (less : x.whole < twoTo 63) : x.exponent ≤ 10 := by
  by_contra more
  have power : twoTo 11 ≤ twoTo x.exponent.toNat := le_twoTo (by omega)
  rw [whole, if_pos (by omega)] at less
  have product := Nat.mul_le_mul (le_significand (exponent_of_large some)) power
  have value : twoTo 52 * twoTo 11 = twoTo 63 := by decide
  omega

private theorem le_exponent (large : twoTo 63 ≤ x.whole) : 11 ≤ x.exponent := by
  by_contra fewer
  have small := x.significand_lt
  have power : twoTo x.exponent.toNat ≤ twoTo 10 := le_twoTo (by omega)
  have product := Nat.mul_le_mul (Nat.le_sub_one_of_lt small) power
  have value : (twoTo 53 - 1) * twoTo 10 < twoTo 63 := by decide
  unfold whole at large
  split at large
  · omega
  · have divided := Nat.div_le_self x.significand (twoTo (-x.exponent).toNat)
    have value : twoTo 53 ≤ twoTo 63 := le_twoTo (by decide)
    omega

theorem Near.lt_of_lt (near : x.Near n) (some : 0 < x.whole) (less : x.whole < twoTo 63) : n < twoTo 63 := by
  have exponent := exponent_le some less
  have power : twoTo (x.exponent - 2).toNat ≤ twoTo 8 := le_twoTo (by omega)
  have one : 1 ≤ twoTo (-(x.exponent - 2)).toNat := Nat.one_le_pow _ _ (by decide)
  have high : x.interval.high ≤ twoTo 55 - 2 := by
    have small := x.significand_lt
    have value : twoTo 55 = 4 * twoTo 53 := by decide
    change 4 * x.significand + 2 ≤ _
    omega
  calc
    n = n * 1 := (Nat.mul_one n).symm
    _ ≤ n * twoTo (-(x.exponent - 2)).toNat := Nat.mul_le_mul_left n one
    _ ≤ x.interval.high * twoTo (x.exponent - 2).toNat := near.2
    _ ≤ (twoTo 55 - 2) * twoTo 8 := Nat.mul_le_mul high power
    _ < twoTo 63 := by decide

theorem Near.le_of_lt (near : x.Near n) (less : twoTo 63 < x.whole) : twoTo 63 ≤ n := by
  have normal := le_significand (exponent_of_large (Nat.zero_lt_of_lt less))
  have exponent := le_exponent less.le
  have low : 4 * x.significand - 2 ≤ x.interval.low := by
    change _ ≤ 4 * x.significand - (if _ then 1 else 2)
    split <;> omega
  have point : (-(x.exponent - 2)).toNat = 0 := by omega
  have above : x.interval.low * twoTo (x.exponent - 2).toNat ≤ n := by
    have inside := near.1
    rw [point] at inside
    exact inside.trans_eq (Nat.mul_one n)
  refine le_trans ?_ ((Nat.mul_le_mul_right _ low).trans above)
  by_cases first : x.exponent = 11
  · -- the least number of this exponent is `2 ^ 63` itself
    rw [whole, first] at less
    have more : twoTo 52 < x.significand := by
      by_contra same
      have equal : x.significand = twoTo 52 := by omega
      rw [equal] at less
      exact absurd less (by decide)
    rw [first]
    exact (show twoTo 63 ≤ (4 * (twoTo 52 + 1) - 2) * twoTo 9 by decide).trans
      (Nat.mul_le_mul_right _ (by omega))
  · have power : twoTo 10 ≤ twoTo (x.exponent - 2).toNat := le_twoTo (by omega)
    exact (show twoTo 63 ≤ (4 * twoTo 52 - 2) * twoTo 10 by decide).trans
      (Nat.mul_le_mul (by omega) power)

end Bounds

section Literals

variable {x : Binary64} {v : Int}

theorem integerOfText_digits {digits : List Char} (some : digits ≠ []) (all : ∀ c ∈ digits, c.isDigit = true)
    (negative : Bool) : Value.integerOfText ((if negative then ['-'] else []) ++ digits) =
      if negative then if digitsValue digits ≤ twoTo 63 then .some (-(digitsValue digits : Int)) else none
      else if digitsValue digits < twoTo 63 then .some (digitsValue digits : Int) else none := by
  have usable : (digits.isEmpty || !digits.all Char.isDigit) = false := by
    rw [List.isEmpty_eq_false_iff.2 some, List.all_eq_true.2 all]
    rfl
  have signed : splitSign ((if negative then ['-'] else []) ++ digits) = (negative, digits) := by
    cases negative with
    | true => rfl
    | false =>
      obtain ⟨first, rest, rfl⟩ := List.exists_cons_of_ne_nil some
      have digit := all first List.mem_cons_self
      change splitSign (first :: rest) = _
      unfold splitSign
      split
      iterate 2
        · rename_i same
          injection same with same _
          rw [same] at digit
          exact absurd digit (by decide)
      · rfl
  unfold Value.integerOfText
  rw [signed]
  dsimp only
  rw [usable]
  rfl

theorem integer?_eq_some_iff : x.integer? = some v ↔
    x.isFinite = true ∧ x.isWhole = true ∧ v = if x.negative then -(x.whole : Int) else x.whole := by
  unfold integer?
  by_cases usable : (x.isFinite && x.isWhole) = true
  · rw [if_pos usable, Option.some.injEq, ← and_assoc, ← Bool.and_eq_true, eq_comm]
    exact (and_iff_right usable).symm
  · rw [if_neg usable]
    exact iff_of_false (by simp) fun all => usable (by rw [all.1, all.2.1]; rfl)

private theorem toList_literal (finite : x.isFinite = true) (exact : x.isWhole = true) : x.literal.toList =
    if x.whole < tenTo 15 then (if x.negative && x.whole != 0 then ['-'] else []) ++ digitChars x.whole
    else (if x.negative then ['-'] else []) ++ (x.shortest .upper).positional := by
  rw [literal, String.toList_ofList, finite, exact, Bool.true_and]
  simp only [Bool.not_true, Bool.false_eq_true, if_false, decide_eq_true_eq]

/-- Numbers of few digits are read back as they are. -/
theorem integerOfText_small (spelled : x.integer? = some v) (small : x.whole < tenTo 15) :
    Value.integerOfText x.literal.toList = some v := by
  obtain ⟨finite, exact, value⟩ := integer?_eq_some_iff.1 spelled
  have fits : tenTo 15 < twoTo 63 := by decide
  rw [toList_literal finite exact, if_pos small,
    integerOfText_digits (digitChars_ne_nil _) (isDigit_digitChars _), digitsValue_digitChars, value]
  rw [if_pos (show x.whole ≤ twoTo 63 by omega), if_pos (show x.whole < twoTo 63 by omega)]
  by_cases none : x.whole = 0
  · simp [none]
  · cases x.negative <;> simp [none]

/-- Larger ones are read back as a number near them. -/
theorem integerOfText_large (spelled : x.integer? = some v) (large : tenTo 15 ≤ x.whole) : ∃ n, x.Near n ∧
    Value.integerOfText x.literal.toList = if x.negative then if n ≤ twoTo 63 then some (-(n : Int)) else none
      else if n < twoTo 63 then some (n : Int) else none := by
  obtain ⟨finite, exact, _⟩ := integer?_eq_some_iff.1 spelled
  obtain ⟨digits, place, same, near⟩ := @shortest_whole x .upper exact (significand_pos large)
  have text : (x.shortest .upper).positional = digitChars digits ++ zeros place := by
    rw [same, Decimal.positional, if_pos (Int.natCast_nonneg place)]
    rfl
  have all : ∀ c ∈ digitChars digits ++ zeros place, c.isDigit = true := by
    intro c member
    rcases List.mem_append.1 member with member | member
    · exact isDigit_digitChars digits c member
    · rw [List.eq_of_mem_replicate member]
      rfl
  refine ⟨digits * tenTo place, near, ?_⟩
  rw [toList_literal finite exact, if_neg (Nat.not_lt.2 large), text,
    integerOfText_digits (List.append_ne_nil_of_left_ne_nil (digitChars_ne_nil _) _) all, digitsValue_zeros]

/-- The least number that is too large is written as `9223372036854776000`. -/
private theorem integerOfText_limit (positive : x.negative = false) (limit : x.whole = twoTo 63) :
    Value.integerOfText x.literal.toList = none := by
  have exponent := le_exponent limit.ge
  have normal := le_significand (x := x) (by omega)
  rw [whole, if_pos (by omega)] at limit
  have last : x.exponent = 11 := by
    by_contra other
    have product := Nat.mul_le_mul normal (le_twoTo (show 12 ≤ x.exponent.toNat by omega))
    exact absurd (limit ▸ product) (by decide)
  have first : x.significand = twoTo 52 := by
    rw [last] at limit
    exact Nat.eq_of_mul_eq_mul_right (show 0 < twoTo 11 by decide)
      (limit.trans (show twoTo 63 = twoTo 52 * twoTo 11 by decide))
  have large : ¬ x.magnitude < twoTo 52 := by
    intro small
    rw [Binary64.exponent, if_pos small] at last
    contradiction
  have magnitude : x.magnitude = 1086 * twoTo 52 := by
    rw [Binary64.exponent, if_neg large] at last
    rw [significand, if_neg large] at first
    have split := Nat.div_add_mod x.magnitude (twoTo 52)
    rw [show x.magnitude / twoTo 52 = 1086 by omega, show x.magnitude % twoTo 52 = 0 by omega] at split
    omega
  have bits : x.bits = UInt64.ofNat (1086 * twoTo 52) := by
    have small : x.bits.toNat < twoTo 63 := by simpa [negative] using positive
    rw [← magnitude, Binary64.magnitude, Nat.mod_eq_of_lt small, UInt64.ofNat_toNat]
  obtain ⟨pattern⟩ := x
  obtain rfl : pattern = UInt64.ofNat (1086 * twoTo 52) := bits
  decide +kernel

/-- What is read back from a number, brought into a range, is the number in that range, unless it is too large. -/
theorem clamped_literal (spelled : x.integer? = some v) :
    max 1 (min 64 ((Value.integerOfText x.literal.toList).getD 1)) =
      if v < twoTo 63 then max 1 (min 64 v) else 1 := by
  by_cases small : x.whole < tenTo 15
  · obtain ⟨_, _, value⟩ := integer?_eq_some_iff.1 spelled
    have fits : tenTo 15 < twoTo 63 := by decide
    have less : v < twoTo 63 := by
      rw [value]
      split <;> omega
    rw [integerOfText_small spelled small, if_pos less]
    rfl
  have large := Nat.not_lt.1 small
  have enough : 128 < tenTo 15 := by decide
  obtain ⟨n, near, read⟩ := integerOfText_large spelled large
  obtain ⟨_, exact, value⟩ := integer?_eq_some_iff.1 spelled
  cases sign : x.negative with
  | true =>
    rw [sign, if_pos rfl] at value read
    rw [read, if_pos (show v < twoTo 63 by omega)]
    split
    · rw [Option.getD_some]
      omega
    · rw [Option.getD_none]
      omega
  | false =>
    rw [sign, if_neg (by decide)] at value read
    rcases Nat.lt_trichotomy x.whole (twoTo 63) with less | limit | more
    · have double := near.le_double exact (significand_pos large)
      rw [read, if_pos (near.lt_of_lt (by omega) less), if_pos (show v < twoTo 63 by omega), Option.getD_some]
      omega
    · rw [integerOfText_limit sign limit, if_neg (by omega)]
      rfl
    · rw [read, if_neg (Nat.not_lt.2 (near.le_of_lt more)), if_neg (by omega)]
      rfl

end Literals

end FlipperBlocks.Binary64
