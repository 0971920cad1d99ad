import FlipperBlocks.Application.Routine
import Mathlib.Data.Int.CardIntervalMod
import Mathlib.Data.List.TakeWhile

/-! Integers drawn at random.

The routine that draws an integer between two bounds is written once more as a tree, the rows of which are those of
the routine, and the tree is run as C runs it: integers have to fit 32 bits, and words of 32 bits wrap around. -/
namespace FlipperBlocks.Application.Routine

namespace RandomRange

inductive NumberType where
  | int
  | word

def NumberType.text : NumberType → String
  | int => "int"
  | word => "uint32_t"

abbrev NumberType.Value : NumberType → Type
  | int => Int
  | word => UInt32

/-- How the routine ends, if it is given enough random words to do so. -/
inductive Ending where
  | returned (value : Int)
  | overflow
  | divisionByZero
  | waiting
  deriving DecidableEq

structure Frame where
  least : Int
  greatest : Int
  swap : Int := 0
  range : UInt32 := 0
  limit : UInt32 := 0
  draw : UInt32 := 0

inductive Var : NumberType → Type
  | least : Var .int
  | greatest : Var .int
  | swap : Var .int
  | range : Var .word
  | limit : Var .word
  | draw : Var .word

namespace Var

variable {type : NumberType}

def text : Var type → String
  | least => "min"
  | greatest => "max"
  | swap => "swap"
  | range => "range"
  | limit => "limit"
  | draw => "draw"

def read (frame : Frame) : Var type → type.Value
  | least => frame.least
  | greatest => frame.greatest
  | swap => frame.swap
  | range => frame.range
  | limit => frame.limit
  | draw => frame.draw

def write (frame : Frame) : Var type → type.Value → Frame
  | least, value => { frame with least := value }
  | greatest, value => { frame with greatest := value }
  | swap, value => { frame with swap := value }
  | range, value => { frame with range := value }
  | limit, value => { frame with limit := value }
  | draw, value => { frame with draw := value }

end Var

def fit (value : Int) : Except Ending Int :=
  if -2147483648 ≤ value ∧ value < 2147483648 then .ok value else .error .overflow

def convert : {type : NumberType} → (other : NumberType) → type.Value → other.Value
  | .int, .word, value => UInt32.ofNat (value % 4294967296).toNat
  | .word, .int, value => (value.toNat : Int).bmod 4294967296
  | .int, .int, value => value
  | .word, .word, value => value

inductive Term : NumberType → Type
  | held {type : NumberType} (var : Var type) : Term type
  | one : Term .int
  | greatestWord : Term .word
  | add (left right : Term .int) : Term .int
  | subtract (left right : Term .int) : Term .int
  | without (left right : Term .word) : Term .word
  | remainder (left right : Term .word) : Term .word
  | group {type : NumberType} (inner : Term type) : Term type
  | cast {type : NumberType} (other : NumberType) (inner : Term type) : Term other

namespace Term

def text : {type : NumberType} → Term type → String
  | _, held var => var.text
  | _, one => "1"
  | _, greatestWord => "UINT32_MAX"
  | _, add left right => left.text ++ " + " ++ right.text
  | _, subtract left right | _, without left right => left.text ++ " - " ++ right.text
  | _, remainder left right => left.text ++ " % " ++ right.text
  | _, group inner => "(" ++ inner.text ++ ")"
  | _, cast other inner => "(" ++ other.text ++ ")(" ++ inner.text ++ ")"

def value (frame : Frame) : {type : NumberType} → Term type → Except Ending type.Value
  | _, held var => .ok (var.read frame)
  | _, one => .ok (1 : Int)
  | _, greatestWord => .ok (4294967295 : UInt32)
  | _, add left right => do fit ((← left.value frame) + (← right.value frame))
  | _, subtract left right => do fit ((← left.value frame) - (← right.value frame))
  | _, without left right => do return (← left.value frame) - (← right.value frame)
  | _, remainder left right => do
    let divisor ← right.value frame
    if divisor = 0 then .error .divisionByZero else return (← left.value frame) % divisor
  | _, group inner => inner.value frame
  | _, cast other inner => do return convert other (← inner.value frame)

end Term

inductive Test where
  | greater (left right : Var .int)
  | equal (left right : Var .int)
  | atLeast (left right : Var .word)

namespace Test

def text : Test → String
  | greater left right => left.text ++ " > " ++ right.text
  | equal left right => left.text ++ " == " ++ right.text
  | atLeast left right => left.text ++ " >= " ++ right.text

def holds (frame : Frame) : Test → Bool
  | greater left right => left.read frame > right.read frame
  | equal left right => left.read frame = right.read frame
  | atLeast left right => left.read frame ≥ right.read frame

end Test

inductive Step where
  | declare {type : NumberType} (var : Var type) (value : Term type)
  | reserve {type : NumberType} (var : Var type)
  | set {type : NumberType} (var : Var type) (value : Term type)
  | give (value : Term .int)

namespace Step

def row : Step → String
  | @declare type var value => type.text ++ " " ++ var.text ++ " = " ++ value.text ++ ";"
  | @reserve type var => type.text ++ " " ++ var.text ++ ";"
  | set var value => var.text ++ " = " ++ value.text ++ ";"
  | give value => "return " ++ value.text ++ ";"

def run (frame : Frame) : Step → Except Ending Frame
  | declare var value | set var value => do return var.write frame (← value.value frame)
  | reserve _ => return frame
  | give value => do throw (.returned (← value.value frame))

end Step

inductive Statement where
  | simple (step : Step)
  | provided (test : Test) (steps : List Step)
  | redraw (var : Var .word) (test : Test)
  | gap

namespace Statement

def rows : Statement → List String
  | simple step => [step.row]
  | provided test steps => ("if(" ++ test.text ++ ") \x7b") :: steps.map (fun step => "    " ++ step.row) ++ ["\x7d"]
  | redraw var test =>
    ["do \x7b", "    " ++ var.text ++ " = furi_hal_random_get();", "\x7d while(" ++ test.text ++ ");"]
  | gap => [""]

def run (state : Frame × List UInt32) : Statement → Except Ending (Frame × List UInt32)
  | simple step => do return (← step.run state.1, state.2)
  | provided test steps => do
    if test.holds state.1 then return (← steps.foldlM Step.run state.1, state.2) else return state
  | redraw var test =>
    match state.2.dropWhile fun draw => test.holds (var.write state.1 draw) with
    | draw :: draws => return (var.write state.1 draw, draws)
    | [] => throw .waiting
  | gap => return state

end Statement

def width : Term .int := .add (.subtract (.held .greatest) (.held .least)) .one

def body : List Statement :=
  [.provided (.greater .least .greatest)
      [.declare .swap (.held .least), .set .least (.held .greatest), .set .greatest (.held .swap)],
    .gap,
    .provided (.equal .least .greatest) [.give (.held .least)],
    .gap,
    .simple (.declare .range (.cast .word width)),
    .simple (.declare .limit (.without .greatestWord (.group (.remainder .greatestWord (.held .range))))),
    .simple (.reserve .draw),
    .gap,
    .redraw .draw (.atLeast .draw .limit),
    .gap]

def result : Term .int := .add (.held .least) (.cast .int (.remainder (.held .draw) (.held .range)))

def rows : List String :=
  (body.flatMap Statement.rows ++ [(Step.give result).row]).map fun row => if row = "" then "" else "    " ++ row

def ending (state : Frame × List UInt32) (rest : List Statement) : Ending :=
  let run : Except Ending Int := do
    let (frame, _) ← rest.foldlM Statement.run state
    result.value frame
  match run with
  | .ok value => .returned value
  | .error ending => ending

def between (a b : Int) (draws : List UInt32) : Ending := ending (⟨a, b, 0, 0, 0, 0⟩, draws) body

/-- The first word below a limit, which is a multiple of the range, tells how far above the least bound. -/
def evenly (a b : Int) (draws : List UInt32) : Ending :=
  if a = b then .returned a
  else if 2147483647 ≤ b - a then .overflow
  else
    let range := (b - a + 1).toNat
    (draws.find? fun draw => draw.toNat < 4294967295 - 4294967295 % range).elim .waiting
      fun draw => .returned (a + (draw.toNat % range : Nat))

theorem rows_randomRange : randomRange.rows =
    ["// Uniform integer in [min, max], rejecting draws that would bias the modulo",
      "static int random_range(int min, int max) \x7b"] ++ rows ++ ["\x7d"] := by
  decide +kernel

section

variable {frame : Frame} {a b : Int} {draws : List UInt32}

theorem ok_bind {ε α β : Type} (a : α) (f : α → Except ε β) : (Except.ok a >>= f) = f a := rfl

theorem error_bind {ε α β : Type} (e : ε) (f : α → Except ε β) :
    ((.error e : Except ε α) >>= f) = .error e := rfl

theorem pure_eq {ε α : Type} (a : α) : (pure a : Except ε α) = .ok a := rfl

theorem throw_eq {ε α : Type} (e : ε) : (throw e : Except ε α) = .error e := rfl

attribute [local simp] Statement.run Step.run Test.holds Term.value Var.read Var.write ok_bind error_bind pure_eq
  throw_eq

variable {state next : Frame × List UInt32} {statement : Statement}

theorem ending_ok (goesOn : statement.run state = .ok next) (rest : List Statement) :
    ending state (statement :: rest) = ending next rest := by
  rw [ending, List.foldlM_cons, goesOn, ok_bind, ending]

theorem ending_error {ends : Ending} (stops : statement.run state = .error ends) (rest : List Statement) :
    ending state (statement :: rest) = ends := by
  rw [ending, List.foldlM_cons, stops, error_bind, error_bind]

theorem value_width (ordered : frame.least ≤ frame.greatest) : width.value frame =
      if 2147483647 ≤ frame.greatest - frame.least then .error .overflow
      else .ok (frame.greatest - frame.least + 1) := by
  change (do fit ((← fit (frame.greatest - frame.least)) + 1)) = _
  by_cases fits : frame.greatest - frame.least < 2147483648
  · rw [show fit (frame.greatest - frame.least) = .ok (frame.greatest - frame.least) from if_pos (by omega), ok_bind]
    split
    · exact if_neg (by omega)
    · exact if_pos (by omega)
  · rw [fit, if_neg (by omega), if_pos (by omega), error_bind]

/-- Words are drawn until one is below the limit, which is then taken into the range. -/
theorem ending_draws (positive : 0 < frame.range.toNat) (small : frame.range.toNat ≤ 2147483647)
    (least : -2147483648 ≤ frame.least) (fits : frame.least + frame.range.toNat ≤ 2147483648) :
    ending (frame, draws) (body.drop 8) =
      (draws.find? fun draw => draw.toNat < frame.limit.toNat).elim .waiting
        fun draw => .returned (frame.least + (draw.toNat % frame.range.toNat : Nat)) := by
  have sought : (draws.find? fun draw => draw.toNat < frame.limit.toNat) =
      (draws.dropWhile fun draw => decide (frame.limit ≤ draw)).head? := by
    simp only [List.find?_eq_head?_dropWhile_not, UInt32.le_iff_toNat_le, ← decide_not, Nat.not_lt]
  rw [sought]
  cases drawn : draws.dropWhile fun draw => decide (frame.limit ≤ draw) with
  | nil =>
    refine ending_error ?_ _
    simp [drawn]
  | cons draw draws =>
    have some : frame.range ≠ 0 := by
      intro none
      simp [none] at positive
    have less := Nat.mod_lt draw.toNat positive
    have taken : fit (frame.least + @convert .word .int (draw % frame.range)) =
        .ok (frame.least + (draw.toNat % frame.range.toNat : Nat)) := by
      change fit (frame.least + ((draw % frame.range).toNat : Int).bmod 4294967296) = _
      rw [UInt32.toNat_mod, Int.bmod_eq_of_le (by omega) (by omega)]
      exact if_pos (by omega)
    refine (ending_ok (by simp [drawn]; rfl) _).trans ((ending_ok rfl _).trans ?_)
    simp [ending, result, some, taken]

theorem ending_ordered (least : -2147483648 ≤ frame.least) (ordered : frame.least ≤ frame.greatest)
    (greatest : frame.greatest < 2147483648) :
    ending (frame, draws) body.tail = evenly frame.least frame.greatest draws := by
  have fits := value_width ordered
  refine (ending_ok rfl _).trans ?_
  unfold evenly
  by_cases same : frame.least = frame.greatest
  · rw [if_pos same]
    exact ending_error (by simp [same]) _
  rw [if_neg same]
  refine (ending_ok (by simp [same]; rfl) _).trans ((ending_ok rfl _).trans ?_)
  by_cases wide : 2147483647 ≤ frame.greatest - frame.least
  · rw [if_pos wide] at fits ⊢
    exact ending_error (by simp [fits]) _
  rw [if_neg wide] at fits ⊢
  let range : UInt32 := @convert .int .word (frame.greatest - frame.least + 1)
  let limit : UInt32 := 4294967295 - 4294967295 % range
  have exact : range.toNat = (frame.greatest - frame.least + 1).toNat := by
    change (UInt32.ofNat ((frame.greatest - frame.least + 1) % 4294967296).toNat).toNat = _
    rw [UInt32.toNat_ofNat']
    omega
  have bound : limit.toNat = 4294967295 - 4294967295 % (frame.greatest - frame.least + 1).toNat := by
    have taken : (4294967295 % range).toNat = 4294967295 % (frame.greatest - frame.least + 1).toNat := by
      rw [UInt32.toNat_mod, exact]
      rfl
    have whole : (4294967295 : UInt32).toNat = 4294967295 := rfl
    have less := Nat.mod_le 4294967295 (frame.greatest - frame.least + 1).toNat
    rw [UInt32.toNat_sub_of_le _ _ (by rw [UInt32.le_iff_toNat_le, taken, whole]; exact less), taken, whole]
  have some : range ≠ 0 := by
    intro none
    rw [none] at exact
    change 0 = _ at exact
    omega
  have ranged : Statement.run (frame, draws) (.simple (.declare .range (.cast .word width))) =
      .ok ({ frame with range }, draws) := by simp [fits, range]
  have limited : Statement.run ({ frame with range }, draws)
      (.simple (.declare .limit (.without .greatestWord (.group (.remainder .greatestWord (.held .range)))))) =
        .ok ({ frame with range, limit }, draws) := by simp [some, limit]
  refine (ending_ok ranged _).trans ((ending_ok limited _).trans ((ending_ok rfl _).trans ((ending_ok rfl _).trans ?_)))
  have drawn := @ending_draws { frame with range, limit } draws (by dsimp only; omega) (by dsimp only; omega) least
    (by dsimp only; omega)
  dsimp only at drawn
  rw [exact, bound] at drawn
  exact drawn

theorem between_eq (first : -2147483648 ≤ a ∧ a < 2147483648) (second : -2147483648 ≤ b ∧ b < 2147483648) :
    between a b draws = evenly (min a b) (max a b) draws := by
  by_cases swapped : a > b
  · rw [min_eq_right (by omega), max_eq_left (by omega)]
    have swaps : between a b draws = ending (⟨b, a, a, 0, 0, 0⟩, draws) body.tail :=
      ending_ok (by simp [swapped]) _
    rw [swaps, ending_ordered second.1 (by dsimp only; omega) first.2]
  · rw [min_eq_left (by omega), max_eq_right (by omega)]
    have stays : between a b draws = ending (⟨a, b, 0, 0, 0, 0⟩, draws) body.tail :=
      ending_ok (by simp [swapped]) _
    rw [stays, ending_ordered first.1 (by dsimp only; omega) second.2]

end

/-- How the routine draws an integer between two bounds. -/
structure Draws (a b : Int) : Prop where
  /-- The width of bounds that are too far apart does not fit an integer. -/
  wide : 2147483647 ≤ max a b - min a b → ∀ draws, between a b draws = .overflow
  /-- Otherwise nothing overflows, and nothing is divided by zero. -/
  narrow : max a b - min a b < 2147483647 → ∀ draws,
    between a b draws ≠ .overflow ∧ between a b draws ≠ .divisionByZero
  inside : ∀ draws value, between a b draws = .returned value → min a b ≤ value ∧ value ≤ max a b
  /-- A word that is not accepted is drawn for nothing, and nothing is drawn behind one that is. -/
  redraws : ∀ draw draws, between a b (draw :: draws) =
    if between a b [draw] = .waiting then between a b draws else between a b [draw]
  /-- As many words are accepted for any integer between the bounds as for any other. -/
  even : max a b - min a b < 2147483647 → ∃ count, 0 < count ∧
    ∀ value, min a b ≤ value → value ≤ max a b →
      Nat.count (fun draw => between a b [UInt32.ofNat draw] = .returned value) 4294967296 = count

variable {a b : Int}

theorem evenly_cons (draw : UInt32) (draws : List UInt32) : evenly a b (draw :: draws) =
    if evenly a b [draw] = .waiting then evenly a b draws else evenly a b [draw] := by
  unfold evenly
  split
  · rfl
  split
  · rfl
  by_cases accepted : draw.toNat < 4294967295 - 4294967295 % (b - a + 1).toNat <;> simp [accepted]

theorem evenly_narrow (ordered : a ≤ b) (narrow : b - a < 2147483647) (draws : List UInt32) :
    evenly a b draws = .waiting ∨ ∃ value, a ≤ value ∧ value ≤ b ∧ evenly a b draws = .returned value := by
  unfold evenly
  by_cases same : a = b
  · exact .inr ⟨a, by omega, by omega, if_pos same⟩
  rw [if_neg same, if_neg (Int.not_le.2 narrow)]
  dsimp only
  cases draws.find? fun draw => draw.toNat < 4294967295 - 4294967295 % (b - a + 1).toNat with
  | none => exact .inl rfl
  | some draw =>
    have less : draw.toNat % (b - a + 1).toNat < (b - a + 1).toNat := Nat.mod_lt _ (by omega)
    exact .inr ⟨_, by omega, by omega, rfl⟩

theorem evenly_wide (wide : 2147483647 ≤ b - a) (draws : List UInt32) : evenly a b draws = .overflow := by
  rw [evenly, if_neg (by omega), if_pos wide]

theorem evenly_single_iff (apart : a ≠ b) (narrow : b - a < 2147483647) {value : Int} (least : a ≤ value)
    {draw : Nat} (small : draw < 4294967296) : evenly a b [UInt32.ofNat draw] = .returned value ↔
      draw < 4294967295 - 4294967295 % (b - a + 1).toNat ∧ draw % (b - a + 1).toNat = (value - a).toNat := by
  have same : (UInt32.ofNat draw).toNat = draw := UInt32.toNat_ofNat_of_lt' small
  unfold evenly
  rw [if_neg apart, if_neg (by omega)]
  dsimp only
  by_cases accepted : draw < 4294967295 - 4294967295 % (b - a + 1).toNat
  · rw [List.find?_cons_of_pos (by rw [same]; exact decide_eq_true accepted), Option.elim_some, same,
      Ending.returned.injEq]
    omega
  · rw [List.find?_cons_of_neg (by rw [same]; exact fun other => accepted (of_decide_eq_true other))]
    exact iff_of_false (by simp) fun both => accepted both.1

/-- The limit is a multiple of the range, so that every remainder is left by the same number of words below it. -/
theorem evenly_count (apart : a ≠ b) (narrow : b - a < 2147483647) {value : Int} (least : a ≤ value)
    (greatest : value ≤ b) :
    Nat.count (fun draw => evenly a b [UInt32.ofNat draw] = .returned value) 4294967296 =
      4294967295 / (b - a + 1).toNat := by
  have positive : 0 < (b - a + 1).toNat := by omega
  have inside : (value - a).toNat < (b - a + 1).toNat := by omega
  have accepted := @evenly_single_iff a b apart narrow value least
  generalize (b - a + 1).toNat = range at positive inside accepted
  generalize (value - a).toNat = rest at inside accepted
  have limit : 4294967295 - 4294967295 % range = range * (4294967295 / range) := by
    have split := Nat.div_add_mod 4294967295 range
    omega
  rw [limit] at accepted
  have counted := Nat.count_modEq_card (range * (4294967295 / range)) positive rest
  rw [Nat.mul_mod_right, if_neg (Nat.not_lt_zero _), Nat.add_zero, Nat.mul_div_cancel_left _ positive] at counted
  rw [← counted, Nat.count_eq_card_filter_range, Nat.count_eq_card_filter_range]
  refine congrArg Finset.card (Finset.ext fun draw => ?_)
  have bounded : range * (4294967295 / range) ≤ 4294967295 := Nat.mul_div_le _ _
  rw [Finset.mem_filter, Finset.mem_filter, Finset.mem_range, Finset.mem_range, Nat.ModEq, Nat.mod_eq_of_lt inside]
  constructor
  · exact fun both => (accepted both.1).1 both.2
  · exact fun both => ⟨by omega, (accepted (by omega)).2 both⟩

/-- Whatever the bounds are, the routine draws between them; its rows are those of the statements that are run. -/
theorem draws_between (a b : Int32) : Draws a.toInt b.toInt ∧ randomRange.rows =
    ["// Uniform integer in [min, max], rejecting draws that would bias the modulo",
      "static int random_range(int min, int max) \x7b"] ++ rows ++ ["\x7d"] := by
  have first : -2147483648 ≤ a.toInt ∧ a.toInt < 2147483648 := ⟨a.le_toInt, a.toInt_lt⟩
  have second : -2147483648 ≤ b.toInt ∧ b.toInt < 2147483648 := ⟨b.le_toInt, b.toInt_lt⟩
  generalize a.toInt = a at first
  generalize b.toInt = b at second
  have ordered : min a b ≤ max a b := min_le_max
  have same (draws : List UInt32) := @between_eq a b draws first second
  refine ⟨⟨fun wide draws => ?_, fun narrow draws => ?_, fun draws value returned => ?_, fun draw draws => ?_,
    fun narrow => ?_⟩, rows_randomRange⟩
  · rw [same, evenly_wide wide]
  · rw [same]
    obtain waits | ⟨value, -, -, returns⟩ := evenly_narrow ordered narrow draws
    · simp [waits]
    · simp [returns]
  · rw [same] at returned
    by_cases narrow : max a b - min a b < 2147483647
    · obtain waits | ⟨other, least, greatest, returns⟩ := evenly_narrow ordered narrow draws
      · rw [waits] at returned
        contradiction
      · rw [returns] at returned
        injection returned with equal
        exact equal ▸ ⟨least, greatest⟩
    · rw [evenly_wide (Int.not_lt.1 narrow)] at returned
      contradiction
  · rw [same, same, same]
    exact evenly_cons draw draws
  · simp only [same]
    by_cases apart : min a b = max a b
    · refine ⟨4294967296, by decide, fun value least greatest => Nat.count_of_forall fun draw _ => ?_⟩
      rw [evenly, if_pos apart, show value = min a b by omega]
    · exact ⟨_, Nat.div_pos (by omega) (by omega), fun value least greatest =>
        evenly_count apart narrow least greatest⟩

/-- The width of these bounds does not fit, although both of them do. -/
theorem natural_bounds_overflow : between 0 2147483647 [0] = .overflow ∧
    between (-2147483648) 2147483647 [0] = .overflow := by
  decide +kernel

end RandomRange

end FlipperBlocks.Application.Routine
