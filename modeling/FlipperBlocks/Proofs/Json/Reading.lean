import FlipperBlocks.Json.Skip
import Mathlib.Data.List.DropRight

/-! What readers read.

A reader is seen as a partial function from bytes to what it reads and the bytes after it, whatever
the fault is when it fails. A scalar that is read can be passed over, and takes at least one byte. -/
namespace FlipperBlocks.Json.Reader

open Byte

variable {α β : Type}

def accepts (reader : Reader α) (bytes : List UInt8) : Option (α × List UInt8) := (reader bytes).toOption

def trim (bytes : List UInt8) : List UInt8 := bytes.dropWhile isBlank

theorem length_trim (bytes : List UInt8) : (trim bytes).length ≤ bytes.length :=
  (List.dropWhile_sublist _).length_le

@[simp] theorem trim_trim (bytes : List UInt8) : trim (trim bytes) = trim bytes :=
  List.dropWhile_idempotent isBlank bytes

/-! ### The steps of readers -/

@[simp] theorem accepts_pure (a : α) (bytes : List UInt8) : accepts (pure a) bytes = some (a, bytes) := rfl

@[simp] theorem accepts_throw (fault : Fault) (bytes : List UInt8) :
    accepts (throw fault : Reader α) bytes = none := rfl

@[simp] theorem accepts_bind (first : Reader α) (next : α → Reader β) (bytes : List UInt8) :
    accepts (first >>= next) bytes = (accepts first bytes).bind fun read => accepts (next read.1) read.2 := by
  have run : (first >>= next) bytes = first bytes >>= fun read => next read.1 read.2 := rfl
  unfold accepts
  rw [run]
  cases first bytes <;> rfl

@[simp] theorem accepts_map (f : α → β) (reader : Reader α) (bytes : List UInt8) :
    accepts (f <$> reader) bytes = (accepts reader bytes).map fun read => (f read.1, read.2) := by
  have run : (f <$> reader) bytes = reader bytes >>= fun read => pure (f read.1, read.2) := rfl
  unfold accepts
  rw [run]
  cases reader bytes <;> rfl

@[simp] theorem accepts_get (bytes : List UInt8) :
    accepts (get : Reader (List UInt8)) bytes = some (bytes, bytes) := rfl

@[simp] theorem accepts_set (left bytes : List UInt8) :
    accepts (set left : Reader PUnit) bytes = some ((), left) := rfl

@[simp] theorem accepts_skip (bytes : List UInt8) : accepts skip bytes = some ((), bytes.drop 1) := rfl

@[simp] theorem accepts_peek (bytes : List UInt8) :
    accepts peek bytes = some ((trim bytes).head?, trim bytes) := rfl

@[simp] theorem accepts_ite (condition : Prop) [Decidable condition] (first second : Reader α)
    (bytes : List UInt8) : accepts (if condition then first else second) bytes =
      if condition then accepts first bytes else accepts second bytes := by
  split <;> rfl

@[simp] theorem accepts_lift (result : Except Fault α) (bytes : List UInt8) :
    accepts (liftM result : Reader α) bytes = result.toOption.map fun a => (a, bytes) := by
  cases result <;> rfl

@[simp] theorem accepts_discard (reader : Reader α) (bytes : List UInt8) :
    accepts (discard reader) bytes = (accepts reader bytes).map fun read => ((), read.2) :=
  accepts_map _ _ _

/-! ### Words and texts -/

theorem length_word {word left rest : List UInt8}
    (read : accepts (Reader.word word) left = some ((), rest)) : rest.length ≤ left.length := by
  induction word generalizing left with
  | nil =>
    cases read
    exact Nat.le_refl _
  | cons expected word ih =>
    cases left with
    | nil => cases read
    | cons b bytes =>
      have run : accepts (Reader.word (expected :: word)) (b :: bytes) =
          if b = expected then accepts (Reader.word word) bytes else none := by
        simp only [Reader.word, accepts_bind, accepts_get, Option.bind_some, accepts_ite,
          accepts_set, accepts_throw]
      rw [run] at read
      split at read
      · exact Nat.le_succ_of_le (ih read)
      · cases read

theorem length_afterText {bytes rest : List UInt8} (passed : Skip.afterText bytes = .ok rest) :
    rest.length < bytes.length := by
  fun_induction Skip.afterText bytes <;> simp_all <;> omega

theorem afterText_of_unescape {done bytes contents rest : List UInt8}
    (read : unescape done bytes = .ok (contents, rest)) : Skip.afterText bytes = .ok rest := by
  fun_induction unescape done bytes
  -- A pair of surrogates is two escapes.
  case case17 => simp_all [Skip.afterText]
  all_goals
    unfold Skip.afterText
    simp_all

theorem skip_text {bytes rest : List UInt8} {contents : String}
    (read : accepts Reader.text bytes = some (contents, rest)) :
    accepts Skip.text bytes = some ((), rest) := by
  have run : accepts Reader.text bytes = (unescape [] bytes).toOption.bind fun read =>
      (String.fromUTF8? ⟨read.1.toArray⟩).map fun contents => (contents, read.2) := by
    simp only [Reader.text, accepts_bind, accepts_get, Option.bind_some, accepts_lift]
    cases unescape [] bytes with
    | error fault => rfl
    | ok read =>
      simp only [Except.toOption, Option.map_some, Option.bind_some, accepts_set]
      cases String.fromUTF8? ⟨read.1.toArray⟩ <;> rfl
  rw [run] at read
  cases unescaped : unescape [] bytes with
  | error fault =>
    rw [unescaped] at read
    cases read
  | ok pair =>
    obtain ⟨decoded, after⟩ := pair
    rw [unescaped] at read
    obtain ⟨_, _, equal⟩ := Option.map_eq_some_iff.1 read
    cases equal
    have passed := afterText_of_unescape unescaped
    simp only [Skip.text, accepts_bind, accepts_get, Option.bind_some, accepts_lift, passed]
    rfl

theorem length_skip_text {bytes rest : List UInt8}
    (passed : accepts Skip.text bytes = some ((), rest)) : rest.length < bytes.length := by
  simp only [Skip.text, accepts_bind, accepts_get, Option.bind_some, accepts_lift] at passed
  cases after : Skip.afterText bytes with
  | error fault =>
    rw [after] at passed
    cases passed
  | ok left =>
    rw [after] at passed
    cases passed
    exact length_afterText after

/-! ### Numbers -/

inductive Numeric : Json → Prop
  | integer (value : Int) : Numeric (.integer value)
  | float (value : Binary64) : Numeric (.float value)

def Concludes (reader : Reader Json) : Prop :=
  ∀ {bytes value rest}, accepts reader bytes = some (value, rest) → Numeric value ∧ rest = bytes

theorem concludes_pure {value : Json} (numeric : Numeric value) : Concludes (pure value : Reader Json) := by
  intro bytes result rest read
  cases read
  exact ⟨numeric, rfl⟩

theorem numeric_of_scale {negative : Bool} {significand : Nat} {power : Int} {value : Json}
    (scaled : scale negative significand power = .ok value) : Numeric value := by
  unfold scale at scaled
  dsimp only at scaled
  split at scaled
  · cases scaled
    exact .float _
  split at scaled
  · split at scaled
    · cases scaled
    · cases scaled
      exact .float _
  split at scaled
  · cases scaled
    exact .float _
  · cases scaled

theorem concludes_scale (negative : Bool) (significand : Nat) (power : Int) :
    Concludes (liftM (scale negative significand power) : Reader Json) := by
  intro bytes value rest read
  rw [accepts_lift] at read
  cases scaled : scale negative significand power with
  | error fault =>
    rw [scaled] at read
    cases read
  | ok made =>
    rw [scaled] at read
    cases read
    exact ⟨numeric_of_scale scaled, rfl⟩

theorem concludes_ofSignificand (negative : Bool) (significand : Nat) :
    Concludes (pure (ofSignificand negative significand) : Reader Json) := by
  apply concludes_pure
  unfold ofSignificand
  split
  · exact .integer _
  · split
    · exact .integer _
    · exact .float _

theorem skip_digits {bytes rest run : List UInt8} (read : accepts Reader.digits bytes = some (run, rest)) :
    accepts Skip.digits bytes = some (run, rest) := by
  unfold Reader.digits at read
  unfold Skip.digits
  simp only [accepts_bind, accepts_get, Option.bind_some] at read ⊢
  cases taken : bytes.takeWhile isDigit with
  | nil =>
    rw [taken] at read
    cases read
  | cons b run =>
    rw [taken] at read
    exact read

theorem length_skip_digits {bytes rest run : List UInt8}
    (passed : accepts Skip.digits bytes = some (run, rest)) : rest.length < bytes.length := by
  unfold Skip.digits at passed
  simp only [accepts_bind, accepts_get, Option.bind_some] at passed
  cases taken : bytes.takeWhile isDigit with
  | nil =>
    rw [taken] at passed
    cases passed
  | cons b run =>
    rw [taken] at passed
    cases passed
    have split : (bytes.takeWhile isDigit ++ bytes.dropWhile isDigit).length =
        bytes.length := by
      rw [List.takeWhile_append_dropWhile]
    rw [taken, List.length_append, List.length_cons] at split
    omega

def unsigned (bytes : List UInt8) : List UInt8 :=
  if bytes.head?.any fun b => b == plus || b == minus then bytes.tail else bytes

def passEnding (bytes : List UInt8) : Option (Unit × List UInt8) :=
  if bytes.head?.any isExponentMark then
    (accepts Skip.digits (unsigned bytes.tail)).map fun read => ((), read.2)
  else some ((), bytes)

theorem accepts_skip_number (bytes : List UInt8) : accepts Skip.number bytes =
    (accepts Skip.digits bytes).bind fun read => if read.1.head? = some 0x30 ∧ 1 < read.1.length then none
      else if read.2.head? = some point then
        (accepts Skip.digits (read.2.drop 1)).bind fun read => passEnding read.2 else passEnding read.2 := by
  have ending (bytes : List UInt8) : passEnding bytes =
      if bytes.head?.any isExponentMark then
        if bytes.tail.head?.any fun b => b == plus || b == minus then
          (accepts Skip.digits bytes.tail.tail).map fun read => ((), read.2)
        else (accepts Skip.digits bytes.tail).map fun read => ((), read.2)
      else some ((), bytes) := by
    unfold passEnding unsigned
    split
    · split <;> rfl
    · rfl
  unfold Skip.number
  simp only [ending, accepts_bind, accepts_ite, accepts_throw, accepts_get, accepts_skip, accepts_discard,
    accepts_pure, Bool.and_eq_true, decide_eq_true_eq, List.drop_one, List.head?_tail, Option.bind_some,
    Option.bind_map, Option.bind_none, Function.comp_def]

theorem skip_exponent {bytes rest : List UInt8} {exponent : Bool × Nat}
    (read : accepts Reader.exponent bytes = some (exponent, rest)) :
    ∃ run, accepts Skip.digits (unsigned bytes) = some (run, rest) := by
  have after {bytes : List UInt8} {negative : Bool}
      (read : ((accepts Reader.digits bytes).bind fun read =>
        some ((negative, runValue read.1), read.2)) = some (exponent, rest)) :
      ∃ run, accepts Skip.digits bytes = some (run, rest) := by
    obtain ⟨⟨run, left⟩, ran, equal⟩ := Option.bind_eq_some_iff.1 read
    cases equal
    exact ⟨run, skip_digits ran⟩
  unfold Reader.exponent at read
  unfold unsigned
  cases bytes with
  | nil => exact @after [] false read
  | cons b bytes =>
    simp only [accepts_bind, accepts_get, Option.bind_some, accepts_ite, accepts_set, accepts_pure] at read
    by_cases plus : b = plus
    · rw [if_pos plus] at read
      simpa [plus] using after read
    by_cases minus : b = minus
    · rw [if_neg plus, if_pos minus] at read
      simpa [minus] using after read
    · rw [if_neg plus, if_neg minus] at read
      simpa [plus, minus] using after read

theorem skip_ending {finish : Reader Json} {conclude : Bool × Nat → Reader Json}
    (finishes : Concludes finish) (concludes : ∀ exponent, Concludes (conclude exponent))
    {bytes rest : List UInt8} {value : Json} (read : accepts (match bytes.head? with
      | some mark => if isExponentMark mark then skip >>= fun _ => exponent >>= conclude
        else finish
      | none => finish) bytes = some (value, rest)) :
    Numeric value ∧ passEnding bytes = some ((), rest) := by
  unfold passEnding
  cases bytes with
  | nil =>
    obtain ⟨numeric, rfl⟩ := finishes read
    exact ⟨numeric, rfl⟩
  | cons mark bytes =>
    by_cases marked : (mark :: bytes).head?.any isExponentMark = true
    · rw [if_pos marked]
      dsimp only [List.head?_cons] at read
      rw [if_pos (show isExponentMark mark = true from marked)] at read
      simp only [accepts_bind, accepts_skip, Option.bind_some] at read
      obtain ⟨⟨exponent, left⟩, ran, read⟩ := Option.bind_eq_some_iff.1 read
      obtain ⟨run, passed⟩ := skip_exponent ran
      obtain ⟨numeric, rfl⟩ := concludes exponent read
      refine ⟨numeric, ?_⟩
      rw [List.tail_cons]
      exact Option.map_eq_some_iff.2 ⟨_, passed, rfl⟩
    · rw [if_neg marked]
      dsimp only [List.head?_cons] at read
      rw [if_neg (show ¬isExponentMark mark = true from marked)] at read
      obtain ⟨numeric, rfl⟩ := finishes read
      exact ⟨numeric, rfl⟩

theorem concludes_ite {condition : Prop} [Decidable condition] {first second : Reader Json}
    (left : Concludes first) (right : Concludes second) :
    Concludes (if condition then first else second) := by
  split
  · exact left
  · exact right

theorem concludes_throw (fault : Fault) : Concludes (throw fault : Reader Json) := fun read => by cases read

theorem skip_number {negative : Bool} {bytes rest : List UInt8} {value : Json}
    (read : accepts (number negative) bytes = some (value, rest)) :
    Numeric value ∧ accepts Skip.number bytes = some ((), rest) := by
  rw [accepts_skip_number]
  unfold number at read
  simp only [accepts_bind] at read
  obtain ⟨⟨run, after⟩, ran, read⟩ := Option.bind_eq_some_iff.1 read
  rw [skip_digits ran, Option.bind_some]
  dsimp only at read ⊢
  split at read
  · cases read
  rename_i plain
  have plain : ¬(run.head? = some 0x30 ∧ 1 < run.length) := by simpa using plain
  rw [if_neg plain]
  simp only [accepts_bind, accepts_get, Option.bind_some, accepts_ite, accepts_skip] at read
  split at read
  · rename_i point
    rw [if_pos point]
    obtain ⟨⟨places, left⟩, placed, read⟩ := Option.bind_eq_some_iff.1 read
    rw [skip_digits placed, Option.bind_some]
    refine skip_ending (concludes_scale _ _ _) (fun exponent => ?_) read
    apply concludes_ite
    · apply concludes_ite
      · exact concludes_pure (.float _)
      · exact concludes_throw _
    · exact concludes_scale _ _ _
  · rename_i point
    rw [if_neg point]
    refine skip_ending ?_ (fun exponent => ?_) read
    · apply concludes_ite
      · exact concludes_ofSignificand _ _
      · exact concludes_scale _ _ _
    · apply concludes_ite
      · apply concludes_ite
        · exact concludes_pure (.float _)
        · exact concludes_throw _
      · exact concludes_scale _ _ _

theorem length_passEnding {bytes rest : List UInt8} (passed : passEnding bytes = some ((), rest)) :
    rest.length ≤ bytes.length := by
  unfold passEnding at passed
  split at passed
  · obtain ⟨⟨run, left⟩, ran, equal⟩ := Option.map_eq_some_iff.1 passed
    cases equal
    have shorter : left.length < _ := length_skip_digits ran
    have unsigned : (unsigned bytes.tail).length ≤ bytes.length := by
      unfold Reader.unsigned
      split <;> simp only [List.length_tail] <;> omega
    exact (Nat.le_of_lt shorter).trans unsigned
  · cases passed
    exact Nat.le_refl _

theorem length_skip_number {bytes rest : List UInt8}
    (passed : accepts Skip.number bytes = some ((), rest)) : rest.length < bytes.length := by
  rw [accepts_skip_number] at passed
  obtain ⟨⟨run, after⟩, ran, passed⟩ := Option.bind_eq_some_iff.1 passed
  have first := length_skip_digits ran
  dsimp only at passed
  split at passed
  · cases passed
  split at passed
  · obtain ⟨⟨places, left⟩, placed, passed⟩ := Option.bind_eq_some_iff.1 passed
    have second := length_skip_digits placed
    have ending : rest.length ≤ left.length := length_passEnding passed
    simp only [List.length_drop] at second
    omega
  · have ending := length_passEnding passed
    omega

/-! ### Scalars -/

theorem accepts_scalar (b : UInt8) (left : List UInt8) : accepts (scalar b) (b :: left) =
    if b = lowerN then (accepts (word afterN) left).map fun read => (null, read.2)
    else if b = lowerT then (accepts (word afterT) left).map fun read => (truth true, read.2)
    else if b = lowerF then (accepts (word afterF) left).map fun read => (truth false, read.2)
    else if b = minus then accepts (number true) left
    else if isDigit b then accepts (number false) (b :: left) else if b = quote then
      (accepts Reader.text left).map fun read => (Json.text read.1, read.2) else none := by
  unfold scalar
  simp

theorem accepts_skip_value (budget : Nat) {bytes left : List UInt8} {b : UInt8}
    (start : trim bytes = b :: left) : accepts (Skip.value (budget + 1)) bytes =
    if b = lowerN then accepts (word afterN) left else if b = lowerT then accepts (word afterT) left
    else if b = lowerF then accepts (word afterF) left else if b = minus then accepts Skip.number left
    else if isDigit b then accepts Skip.number (b :: left) else if b = quote then accepts Skip.text left
    else if b = openList then accepts (Skip.list budget (Skip.value budget)) left
    else if b = openObject then accepts (Skip.object budget (Skip.value budget)) left else none := by
  rw [Skip.value]
  simp [start]

inductive Scalar (b : UInt8) (left : List UInt8) : Json → List UInt8 → Prop
  | null {rest : List UInt8} (start : b = lowerN)
      (read : accepts (word afterN) left = some ((), rest)) : Scalar b left .null rest
  | text {contents : String} {rest : List UInt8} (start : b = quote)
      (read : accepts Reader.text left = some (contents, rest)) : Scalar b left (.text contents) rest
  | truth {value : Bool} {rest : List UInt8} (noNull : b ≠ lowerN) (noText : b ≠ quote) :
      Scalar b left (.truth value) rest
  | number {value : Json} {rest : List UInt8} (noNull : b ≠ lowerN) (noText : b ≠ quote)
      (numeric : Numeric value) : Scalar b left value rest

theorem scalar_passed {b : UInt8} {left rest : List UInt8} {value : Json}
    (read : accepts (scalar b) (b :: left) = some (value, rest)) :
    Scalar b left value rest ∧ rest.length ≤ left.length ∧ ∀ budget bytes, trim bytes = b :: left →
        accepts (Skip.value (budget + 1)) bytes = some ((), rest) := by
  rw [accepts_scalar] at read
  by_cases isN : b = lowerN
  · rw [if_pos isN] at read
    obtain ⟨⟨_, left⟩, word, equal⟩ := Option.map_eq_some_iff.1 read
    cases equal
    refine ⟨.null isN word, length_word word, fun budget bytes start => ?_⟩
    rw [accepts_skip_value budget start, if_pos isN, word]
  rw [if_neg isN] at read
  by_cases isT : b = lowerT
  · rw [if_pos isT] at read
    obtain ⟨⟨_, left⟩, word, equal⟩ := Option.map_eq_some_iff.1 read
    cases equal
    have noText : b ≠ quote := by rw [isT]; decide
    refine ⟨.truth isN noText, length_word word, fun budget bytes start => ?_⟩
    rw [accepts_skip_value budget start, if_neg isN, if_pos isT, word]
  rw [if_neg isT] at read
  by_cases isF : b = lowerF
  · rw [if_pos isF] at read
    obtain ⟨⟨_, left⟩, word, equal⟩ := Option.map_eq_some_iff.1 read
    cases equal
    have noText : b ≠ quote := by rw [isF]; decide
    refine ⟨.truth isN noText, length_word word, fun budget bytes start => ?_⟩
    rw [accepts_skip_value budget start, if_neg isN, if_neg isT, if_pos isF, word]
  rw [if_neg isF] at read
  by_cases isMinus : b = minus
  · rw [if_pos isMinus] at read
    obtain ⟨numeric, number⟩ := skip_number read
    have noText : b ≠ quote := by rw [isMinus]; decide
    refine ⟨.number isN noText numeric, Nat.le_of_lt (length_skip_number number),
      fun budget bytes start => ?_⟩
    rw [accepts_skip_value budget start, if_neg isN, if_neg isT, if_neg isF, if_pos isMinus, number]
  rw [if_neg isMinus] at read
  by_cases isDigit : isDigit b = true
  · rw [if_pos isDigit] at read
    obtain ⟨numeric, number⟩ := skip_number read
    have noText : b ≠ quote := by
      rintro rfl
      cases isDigit
    refine ⟨.number isN noText numeric, Nat.le_of_lt_succ (length_skip_number number),
      fun budget bytes start => ?_⟩
    rw [accepts_skip_value budget start, if_neg isN, if_neg isT, if_neg isF, if_neg isMinus,
      if_pos isDigit, number]
  rw [if_neg isDigit] at read
  by_cases isQuote : b = quote
  · rw [if_pos isQuote] at read
    obtain ⟨⟨contents, left⟩, text, equal⟩ := Option.map_eq_some_iff.1 read
    cases equal
    have passed := skip_text text
    refine ⟨.text isQuote text, Nat.le_of_lt (length_skip_text passed), fun budget bytes start => ?_⟩
    rw [accepts_skip_value budget start, if_neg isN, if_neg isT, if_neg isF, if_neg isMinus,
      if_neg isDigit, if_pos isQuote, passed]
  · rw [if_neg isQuote] at read
    cases read

end FlipperBlocks.Json.Reader
