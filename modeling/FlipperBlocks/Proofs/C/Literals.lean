import FlipperBlocks.Proofs.C.Reading
import Mathlib.Data.List.Chain

/-! What a string literal stands for.

A literal is read from left to right, and a backslash with an `x` takes all the hexadecimal digits that
stand behind it. So what a character comes to in a literal depends on the character after it. -/
namespace FlipperBlocks.C

def hexValue? (c : Char) : Option Nat :=
  if 48 ≤ c.toNat ∧ c.toNat ≤ 57 then some (c.toNat - 48)
  else if 65 ≤ c.toNat ∧ c.toNat ≤ 70 then some (c.toNat - 55)
  else if 97 ≤ c.toNat ∧ c.toNat ≤ 102 then some (c.toNat - 87)
  else none

namespace Literal

inductive Place where
  | before
  | inside
  | escape
  | hex
  | number (value : Nat)
  | behind

def simpleEscape? : Char → Option UInt8
  | '\'' => some 0x27
  | '"' => some 0x22
  | '?' => some 0x3f
  | '\\' => some 0x5c
  | 'a' => some 0x07
  | 'b' => some 0x08
  | 'f' => some 0x0c
  | 'n' => some 0x0a
  | 'r' => some 0x0d
  | 't' => some 0x09
  | 'v' => some 0x0b
  | _ => none

def insideStep (c : Char) : Option (List UInt8 × Place) :=
  if c = '"' then some ([], .behind)
  else if c = '\\' then some ([], .escape)
  else if c = '\n' then none
  else some (String.utf8EncodeChar c, .inside)

/-- What a character adds to the bytes of a literal, and where the reader is then. A number is added
once its last digit has been read, if it fits in a byte. -/
def step : Place → Char → Option (List UInt8 × Place)
  | .before, c => if c = '"' then some ([], .inside) else none
  | .inside, c => insideStep c
  | .escape, c =>
    if c = 'x' then some ([], .hex) else (simpleEscape? c).map fun byte => ([byte], .inside)
  | .hex, c => (hexValue? c).map fun digit => ([], .number digit)
  | .number value, c =>
    match hexValue? c with
    | some digit => some ([], .number (value * 16 + digit))
    | none =>
      if value < 256 then (insideStep c).map fun (bytes, next) => (UInt8.ofNat value :: bytes, next)
      else none
  | .behind, _ => none

def read : Place → List Char → Option (List UInt8)
  | .behind, [] => some []
  | _, [] => none
  | place, c :: rest => (step place c).bind fun (bytes, next) => (read next rest).map (bytes ++ ·)

end Literal

/-- The bytes that a literal stands for, if the text is one literal and nothing else. -/
def literalBytes? (text : String) : Option ByteArray :=
  (Literal.read .before text.toList).map List.toByteArray

def isNumbered (c : Char) : Bool := decide (c.toNat < 0x20) && c != '\n' && c != '\r' && c != '\t'

/-- Whether two characters may stand one after the other in a literal: a digit goes on with a number. -/
def Apart (first second : Char) : Prop := isNumbered first = true → hexValue? second = none

instance (first second : Char) : Decidable (Apart first second) := inferInstanceAs (Decidable (_ → _))

namespace Literal

variable {c : Char} {value : Nat} {list : List Char} {bytes : List UInt8}

def written (list : List Char) : List Char := list.flatMap C.escape ++ ['"']

def encoded (list : List Char) : List UInt8 := list.flatMap String.utf8EncodeChar

theorem written_cons (c : Char) (list : List Char) : written (c :: list) = C.escape c ++ written list := by
  simp [written]

theorem encoded_cons (c : Char) (list : List Char) :
    encoded (c :: list) = String.utf8EncodeChar c ++ encoded list := rfl

theorem read_cons (place : Place) (c : Char) (rest : List Char) : read place (c :: rest) =
      (step place c).bind fun (bytes, next) => (read next rest).map (bytes ++ ·) := by
  cases place <;> rfl

private theorem read_silent {place next : Place} (silent : step place c = some ([], next))
    (rest : List Char) : read place (c :: rest) = read next rest := by
  rw [read_cons, silent]
  exact Option.map_id'

private theorem read_backslash (rest : List Char) : read .inside ('\\' :: rest) = read .escape rest :=
  read_silent rfl rest

/-! What one character comes to. -/

private theorem hexValue?_hexDigit : ∀ n < 16, hexValue? (hexDigit n) = some n := by decide

theorem small_of_numbered (numbered : isNumbered c = true) : c.toNat < 0x20 := by
  simp only [isNumbered, Bool.and_eq_true, decide_eq_true_eq] at numbered
  exact numbered.1.1.1

private theorem escape_of_numbered (numbered : isNumbered c = true) :
    C.escape c = ['\\', 'x', hexDigit (c.toNat / 16), hexDigit (c.toNat % 16)] := by
  simp only [isNumbered, Bool.and_eq_true, decide_eq_true_eq, bne_iff_ne, ne_eq] at numbered
  obtain ⟨⟨⟨small, line⟩, carriage⟩, tab⟩ := numbered
  have backslash : c ≠ '\\' := by rintro rfl; exact absurd small (by decide)
  have quote : c ≠ '"' := by rintro rfl; exact absurd small (by decide)
  rw [C.escape, if_neg backslash, if_neg quote, if_neg line, if_neg carriage, if_neg tab, if_pos small]

theorem read_numbered (numbered : isNumbered c = true) (rest : List Char) :
    read .inside (C.escape c ++ rest) = read (.number c.toNat) rest := by
  have small := small_of_numbered numbered
  have high := hexValue?_hexDigit (c.toNat / 16) (by omega)
  have low := hexValue?_hexDigit (c.toNat % 16) (by omega)
  have whole : c.toNat / 16 * 16 + c.toNat % 16 = c.toNat := by omega
  have first : step .hex (hexDigit (c.toNat / 16)) = some ([], .number (c.toNat / 16)) := by
    rw [step, high]
    rfl
  have second : step (.number (c.toNat / 16)) (hexDigit (c.toNat % 16)) =
      some ([], .number c.toNat) := by
    simp only [step, low, whole]
  rw [escape_of_numbered numbered]
  calc read .inside ('\\' :: 'x' :: hexDigit (c.toNat / 16) :: hexDigit (c.toNat % 16) :: rest)
    _ = read .hex (hexDigit (c.toNat / 16) :: hexDigit (c.toNat % 16) :: rest) := by
      rw [read_backslash, read_silent (by rfl : step .escape 'x' = some ([], .hex))]
    _ = read (.number c.toNat) rest := by rw [read_silent first, read_silent second]

private theorem read_simple {letter : Char} {byte : UInt8} (known : simpleEscape? letter = some byte)
    (other : letter ≠ 'x') (rest : List Char) :
    read .inside ('\\' :: letter :: rest) = (read .inside rest).map (byte :: ·) := by
  rw [read_backslash, read_cons]
  simp [step, known, other]

theorem read_escape (unnumbered : isNumbered c = false) (rest : List Char) :
    read .inside (C.escape c ++ rest) = (read .inside rest).map (String.utf8EncodeChar c ++ ·) := by
  by_cases simple : c ∈ ['\\', '"', '\n', '\r', '\t']
  · simp only [List.mem_cons, List.not_mem_nil, or_false] at simple
    rcases simple with rfl | rfl | rfl | rfl | rfl <;> exact read_simple rfl (by decide) rest
  · simp only [List.mem_cons, List.not_mem_nil, or_false, not_or] at simple
    obtain ⟨backslash, quote, line, carriage, tab⟩ := simple
    have large : ¬ c.toNat < 0x20 := by simpa [isNumbered, line, carriage, tab] using unnumbered
    have itself : C.escape c = [c] := by
      rw [C.escape, if_neg backslash, if_neg quote, if_neg line, if_neg carriage, if_neg tab, if_neg large]
    rw [itself]
    simp [read_cons, step, insideStep, backslash, quote, line]

theorem read_number_ends (ends : hexValue? c = none) (rest : List Char) : read (.number value) (c :: rest) =
      if value < 256 then (read .inside (c :: rest)).map (UInt8.ofNat value :: ·) else none := by
  simp only [read_cons, step, ends]
  split
  · cases insideStep c with
    | none => rfl
    | some next => simp [Function.comp_def]
  · rfl

theorem read_number_digit {digit : Nat} (found : hexValue? c = some digit) (rest : List Char) :
    read (.number value) (c :: rest) = read (.number (value * 16 + digit)) rest :=
  read_silent (by simp only [step, found]) rest

theorem utf8EncodeChar_of_lt (ascii : c.toNat < 0x80) : String.utf8EncodeChar c = [UInt8.ofNat c.toNat] := by
  have size : c.utf8Size = 1 := by
    rw [Char.utf8Size_eq_one_iff, UInt32.le_iff_toNat_le]
    exact Nat.le_of_lt_succ ascii
  rw [String.utf8EncodeChar_eq_singleton size]
  rfl

theorem bounds_of_hexValue? {digit : Nat} (found : hexValue? c = some digit) :
    48 ≤ c.toNat ∧ c.toNat ≤ 102 ∧ c.toNat ≠ 92 := by
  unfold hexValue? at found
  split at found
  · omega
  · split at found
    · omega
    · split at found
      · omega
      · contradiction

theorem escape_of_hexValue? {digit : Nat} (found : hexValue? c = some digit) :
    C.escape c = [c] ∧ (String.utf8EncodeChar c).length = 1 := by
  obtain ⟨least, most, other⟩ := bounds_of_hexValue? found
  have apart {d : Char} (far : d.toNat < 48 ∨ d.toNat = 92) : c ≠ d := by
    rintro rfl
    omega
  constructor
  · rw [C.escape, if_neg (apart (by decide)), if_neg (apart (by decide)), if_neg (apart (by decide)),
      if_neg (apart (by decide)), if_neg (apart (by decide)), if_neg (by omega)]
  · rw [utf8EncodeChar_of_lt (by omega)]
    rfl

theorem hexValue?_head_written (ends : ∀ d ∈ list.head?, hexValue? d = none) :
    ∃ d rest, written list = d :: rest ∧ hexValue? d = none := by
  cases list with
  | nil => exact ⟨'"', [], rfl, by decide⟩
  | cons c list =>
    have itself := ends c rfl
    rw [written_cons]
    unfold C.escape
    split_ifs
    all_goals first
      | exact ⟨'\\', _, rfl, by decide⟩
      | exact ⟨c, _, rfl, itself⟩

private theorem read_number (numbered : isNumbered c = true) (ends : ∀ d ∈ list.head?, hexValue? d = none) :
    read .inside (written (c :: list)) =
      (read .inside (written list)).map (String.utf8EncodeChar c ++ ·) := by
  have small := small_of_numbered numbered
  obtain ⟨d, rest, starts, other⟩ := hexValue?_head_written ends
  rw [written_cons, read_numbered numbered, starts, read_number_ends other, if_pos (by omega),
    utf8EncodeChar_of_lt (by omega)]
  rfl

/-! A digit that a number takes is missing from the bytes. -/

private theorem length_encoded_cons (ascii : c.toNat < 0x80) :
    (encoded (c :: list)).length = (encoded list).length + 1 := by
  rw [encoded_cons, utf8EncodeChar_of_lt ascii, List.length_append, List.length_singleton, Nat.add_comm]

/-- What is read inside a literal is no more than the bytes of the text. A number before it adds one byte
at most, and none if it takes a digit. -/
private theorem length_read (list : List Char) :
    (∀ bytes, read .inside (written list) = some bytes → bytes.length ≤ (encoded list).length) ∧
      ∀ value bytes, read (.number value) (written list) = some bytes →
        bytes.length ≤ (encoded list).length + 1 ∧
          ∀ d ∈ list.head?, hexValue? d ≠ none → bytes.length ≤ (encoded list).length := by
  have unread {list : List Char} (ends : ∀ d ∈ list.head?, hexValue? d = none)
      (inside : ∀ bytes, read .inside (written list) = some bytes → bytes.length ≤ (encoded list).length)
      (value : Nat) (bytes : List UInt8) (found : read (.number value) (written list) = some bytes) :
      bytes.length ≤ (encoded list).length + 1 := by
    obtain ⟨d, rest, starts, other⟩ := hexValue?_head_written ends
    rw [starts, read_number_ends other] at found
    split at found
    · obtain ⟨more, rest, rfl⟩ := Option.map_eq_some_iff.1 found
      exact Nat.succ_le_succ (inside more (starts ▸ rest))
    · contradiction
  induction list with
  | nil =>
    have inside (bytes) (found : read .inside (written []) = some bytes) :
        bytes.length ≤ (encoded []).length := by
      injection found with same
      exact same ▸ Nat.le_refl _
    exact ⟨inside, fun value bytes found => ⟨unread (by simp) inside value bytes found, by simp⟩⟩
  | cons c list ih =>
    have inside (bytes) (found : read .inside (written (c :: list)) = some bytes) :
        bytes.length ≤ (encoded (c :: list)).length := by
      rw [written_cons] at found
      cases numbered : isNumbered c with
      | true =>
        rw [read_numbered numbered] at found
        rw [length_encoded_cons (by have := small_of_numbered numbered; omega)]
        exact (ih.2 _ _ found).1
      | false =>
        rw [read_escape numbered] at found
        obtain ⟨more, rest, rfl⟩ := Option.map_eq_some_iff.1 found
        rw [encoded_cons, List.length_append, List.length_append]
        exact Nat.add_le_add_left (ih.1 more rest) _
    refine ⟨inside, fun value bytes found => ?_⟩
    cases digit : hexValue? c with
    | some digit =>
      have taken : bytes.length ≤ (encoded (c :: list)).length := by
        rw [written_cons, (escape_of_hexValue? digit).1, List.singleton_append,
          read_number_digit digit] at found
        rw [length_encoded_cons (by have := bounds_of_hexValue? digit; omega)]
        exact (ih.2 _ _ found).1
      exact ⟨Nat.le_succ_of_le taken, fun _ _ _ => taken⟩
    | none =>
      have ends : ∀ d ∈ (c :: list).head?, hexValue? d = none := by simpa using digit
      exact ⟨unread ends inside value bytes found, fun d among other => absurd (ends d among) other⟩

private theorem read_written_iff (list : List Char) :
    read .inside (written list) = some (encoded list) ↔ list.IsChain Apart := by
  induction list with
  | nil => exact iff_of_true rfl .nil
  | cons c list ih =>
    have reads (each : read .inside (written (c :: list)) =
        (read .inside (written list)).map (String.utf8EncodeChar c ++ ·)) :
        read .inside (written (c :: list)) = some (encoded (c :: list)) ↔ list.IsChain Apart := by
      rw [each, encoded_cons, ← ih]
      simp
    rw [List.isChain_cons]
    cases numbered : isNumbered c with
    | false =>
      have apart : ∀ d ∈ list.head?, Apart c d := fun d _ => by simp [Apart, numbered]
      rw [reads (by rw [written_cons, read_escape numbered]), and_iff_right apart]
    | true =>
      by_cases ends : ∀ d ∈ list.head?, hexValue? d = none
      · have apart : ∀ d ∈ list.head?, Apart c d := fun d among _ => ends d among
        rw [reads (read_number numbered ends), and_iff_right apart]
      · refine iff_of_false (fun found => ?_) fun both =>
          ends fun d among => both.1 d among numbered
        simp only [not_forall] at ends
        obtain ⟨d, among, digit⟩ := ends
        rw [written_cons, read_numbered numbered] at found
        have short := ((length_read list).2 _ _ found).2 d among digit
        rw [length_encoded_cons (by have := small_of_numbered numbered; omega)] at short
        exact Nat.not_succ_le_self _ short

theorem read_quoted (contents : String) :
    read .before (quoted contents).toList = read .inside (written contents.toList) := by
  rw [quoted, String.toList_ofList]
  exact read_silent rfl _

end Literal

section

variable (contents : String)

private theorem toUTF8_eq : contents.toUTF8 = (Literal.encoded contents.toList).toByteArray := by
  rw [String.toUTF8_eq_toByteArray, ← String.utf8Encode_toList]
  rfl

private theorem literalBytes?_quoted_iff :
    literalBytes? (quoted contents) = some contents.toUTF8 ↔ contents.toList.IsChain Apart := by
  rw [literalBytes?, Literal.read_quoted, toUTF8_eq, ← Literal.read_written_iff, Option.map_eq_some_iff]
  simp only [List.toByteArray_inj, exists_eq_right]

/-- The literal of a text is one literal. It stands for the bytes of the text if and only if no digit
follows a character that is written with its number, and texts like that have literals of different
bytes. -/
theorem quoted_stands_for_text : (tokens (quoted contents) = [.string] ∧ endMode (quoted contents) = .code) ∧
      (literalBytes? (quoted contents) = some contents.toUTF8 ↔ contents.toList.IsChain Apart) ∧
      ∀ other : String, contents.toList.IsChain Apart → other.toList.IsChain Apart →
        literalBytes? (quoted contents) = literalBytes? (quoted other) → contents = other := by
  refine ⟨⟨(Closes.quoted contents).reads.tokens_eq, ?_⟩, literalBytes?_quoted_iff contents, ?_⟩
  · rw [endMode, Closes.quoted contents]
    rfl
  · intro other first second same
    rw [(literalBytes?_quoted_iff contents).2 first, (literalBytes?_quoted_iff other).2 second] at same
    injection same with bytes
    exact String.toByteArray_inj.1 bytes

end

theorem quoted_stands_for_text_lines :
    literalBytes? (quoted "two\nlines\x01!") = some "two\nlines\x01!".toUTF8 ∧
      literalBytes? (quoted "two\nlines\x01!") ≠ literalBytes? (quoted "two\\nlines\x01!") := by
  obtain ⟨_, reads, apart⟩ := quoted_stands_for_text "two\nlines\x01!"
  have chain : "two\nlines\x01!".toList.IsChain Apart := by decide
  refine ⟨reads.2 chain, fun same => ?_⟩
  exact absurd (apart "two\\nlines\x01!" chain (by decide) same) (by decide)

/-- A digit behind a character that is written with its number is taken for a part of the number. -/
theorem digit_taken : "\x01a" ≠ "\x1a" ∧ literalBytes? (quoted "\x01a") = some "\x1a".toUTF8 ∧
      literalBytes? (quoted "\x1a") = some "\x1a".toUTF8 := by
  decide

end FlipperBlocks.C
