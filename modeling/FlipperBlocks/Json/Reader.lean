import FlipperBlocks.Json.Byte
import FlipperBlocks.Json.Fault

/-! Reading JSON from bytes, from left to right: the first fault met is the one reported.

A reader takes the bytes that are left and returns what it read with the bytes after it. Readers of
nested values take a budget that bounds nesting and the length of lists; the number of bytes plus one
is always enough, because every level and every item takes at least one byte. -/
namespace FlipperBlocks.Json

open Byte

abbrev Reader (α : Type) := StateT (List UInt8) (Except Fault) α

namespace Reader

/-- The next byte that is not blank, if there is one; the blanks before it are gone. -/
def peek : Reader (Option UInt8) := do
  modify (List.dropWhile isBlank)
  return (← get).head?

def skip : Reader Unit := modify (List.drop 1)

/-- Reads the given bytes. -/
def word : List UInt8 → Reader Unit
  | [] => pure ()
  | expected :: rest => do
    match ← get with
    | [] => throw .endOfValue
    | b :: bytes =>
      if b = expected then set bytes; word rest else throw .expectedWord

/-! ### Texts -/

/-- The bytes of a text after its opening quote with escapes resolved, `done` being those read so
far, reversed; and the bytes after its closing quote. -/
def unescape (done : List UInt8) : List UInt8 → Except Fault (List UInt8 × List UInt8)
  | [] => .error .endOfText
  | b :: bytes =>
    if b = quote then .ok (done.reverse, bytes)
    else if b < 0x20 then .error .controlCharacter
    else if b ≠ backslash then unescape (b :: done) bytes
    else match bytes with
      | [] => .error .endOfText
      | mark :: bytes =>
        if mark ≠ lowerU then
          match escape? mark with
          | some byte => unescape (byte :: done) bytes
          | none => .error .invalidEscape
        else match bytes with
          | a :: b :: c :: d :: bytes =>
            match unit? a b c d with
            | none => .error .invalidEscape
            | some unit =>
              if 0xDC00 ≤ unit && unit ≤ 0xDFFF then .error .loneSurrogate
              else if unit < 0xD800 || 0xDFFF < unit then
                unescape ((String.utf8EncodeChar (Char.ofNat unit)).reverse ++ done) bytes
              else match bytes with
                | [] => .error .endOfText
                | mark :: bytes =>
                  if mark ≠ backslash then .error .missingSurrogate
                  else match bytes with
                    | [] => .error .endOfText
                    | mark :: bytes =>
                      if mark ≠ lowerU then .error .missingSurrogate
                      else match bytes with
                        | a :: b :: c :: d :: bytes =>
                          match unit? a b c d with
                          | none => .error .invalidEscape
                          | some low =>
                            if low < 0xDC00 || 0xDFFF < low then .error .loneSurrogate
                            else
                              let point := (unit - 0xD800) * 0x400 + (low - 0xDC00) + 0x10000
                              unescape
                                ((String.utf8EncodeChar (Char.ofNat point)).reverse ++ done) bytes
                        | _ => .error .endOfText
          | _ => .error .endOfText

/-- Reads a text after its opening quote. Its bytes must be valid once all of them are known. -/
def text : Reader String := do
  let (contents, rest) ← unescape [] (← get)
  set rest
  match String.fromUTF8? ⟨contents.toArray⟩ with
  | some contents => return contents
  | none => throw .invalidCodePoint

/-! ### Numbers -/

/-- Digits collected into a significand of 64 bits until one does not fit; the digits left over. -/
def collect (significand : Nat) : List UInt8 → Nat × List UInt8
  | [] => (significand, [])
  | b :: digits =>
    let next := significand * 10 + digit b
    if next < twoTo 64 then collect next digits else (significand, b :: digits)

/-- The power of ten nearest to `10 ^ k`. -/
def powerOfTen (k : Nat) : Float := (Binary64.ofDecimal false 1 k).toFloat

/-- Divides by `10 ^ k`, in steps of at most `10 ^ 308`, each rounded on its own. -/
def divideByPower (x : Float) (k : Nat) : Float :=
  if k ≤ 308 then x / powerOfTen k
  else if x == 0 then x
  else divideByPower (x / powerOfTen 308) (k - 308)
termination_by k

/-- The number `± significand · 10 ^ exponent`: the significand is rounded, then scaled. -/
def scale (negative : Bool) (significand : Nat) (exponent : Int) : Except Fault Json := do
  let start := (UInt64.ofNat significand).toFloat
  let size ←
    if exponent < 0 then pure (divideByPower start exponent.natAbs)
    else if exponent ≤ 308 then
      let product := start * powerOfTen exponent.natAbs
      if product.isInf then throw .outOfRange else pure product
    else if start == 0 then pure start
    else throw .outOfRange
  return float (.ofFloat (if negative then -size else size))

/-- A whole number without point or exponent. A negative one that has no 64-bit form, and minus
zero, are floating-point numbers. -/
def ofSignificand (negative : Bool) (significand : Nat) : Json :=
  if !negative then integer significand
  else if 1 ≤ significand && significand ≤ twoTo 63 then integer (-significand)
  else float (.ofFloat (-(UInt64.ofNat significand).toFloat))

/-- The digits that must stand next. -/
def digits : Reader (List UInt8) := do
  let bytes ← get
  match bytes.takeWhile isDigit with
  | [] => throw (if bytes.isEmpty then .endOfValue else .invalidNumber)
  | run => set (bytes.dropWhile isDigit); return run

/-- The value of a run of digits. -/
def runValue (run : List UInt8) : Nat := run.foldl (fun n b => 10 * n + digit b) 0

/-- An exponent after its mark: its sign and its size. -/
def exponent : Reader (Bool × Nat) := do
  let negative ←
    match ← get with
    | b :: bytes =>
      if b = plus then set bytes; pure false
      else if b = minus then set bytes; pure true
      else pure false
    | [] => pure false
  return (negative, runValue (← digits))

def number (negative : Bool) : Reader Json := do
  let run ← digits
  if run.head? = some 0x30 && 1 < run.length then throw .invalidNumber
  let (significand, left) := collect 0 run
  let mut significand := significand
  let mut power : Int := left.length
  let mut whole := left.isEmpty
  if (← get).head? = some point then
    skip
    let places ← digits
    let (longer, unused) := collect significand places
    significand := longer
    power := power - (places.length - unused.length : Nat)
    whole := false
  match (← get).head? with
  | some mark =>
    if isExponentMark mark then
      skip
      let (below, size) ← exponent
      if twoTo 31 ≤ size then
        if significand = 0 || below then
          return float (.ofMagnitude negative 0)
        else throw .outOfRange
      else scale negative significand (if below then power - size else power + size)
    else if whole then return ofSignificand negative significand
    else scale negative significand power
  | none =>
    if whole then return ofSignificand negative significand
    else scale negative significand power

/-! ### Lists, objects and values -/

/-- Whether a list has another item; the comma before it is read. -/
def nextItem (first : Bool) : Reader Bool := do
  match ← peek with
  | none => throw .endOfList
  | some b =>
    if b = closeList then return false
    else if first then return true
    else if b = comma then
      skip
      match ← peek with
      | none => throw .endOfValue
      | some b => if b = closeList then throw .trailingComma else return true
    else throw .expectedListEnd

def endList : Reader Unit := do
  match ← peek with
  | none => throw .endOfList
  | some b =>
    if b = closeList then skip
    else if b = comma then
      skip
      if (← peek) = some closeList then throw .trailingComma else throw .trailingCharacters
    else throw .trailingCharacters

/-- Whether an object has another member; the comma before it and the opening quote of its name
are read. -/
def nextMember (first : Bool) : Reader Bool := do
  match ← peek with
  | none => throw .endOfObject
  | some b =>
    if b = closeObject then return false
    else if first then
      if b = quote then skip; return true else throw .keyNotText
    else if b = comma then
      skip
      match ← peek with
      | none => throw .endOfValue
      | some b =>
        if b = quote then skip; return true
        else if b = closeObject then throw .trailingComma
        else throw .keyNotText
    else throw .expectedObjectEnd

/-- Reads the colon after the name of a member. -/
def colon : Reader Unit := do
  match ← peek with
  | none => throw .endOfObject
  | some b => if b = Byte.colon then skip else throw .expectedColon

/-- What stands in a list or an object after its opening bracket, up to its closing one. -/
def each {α : Type} (cut : Fault) (next : Bool → Reader Bool) (element : Reader α) :
    Nat → Bool → Reader (List α)
  | 0, _ => throw cut
  | budget + 1, first => do
    if ← next first then
      let head ← element
      return head :: (← each cut next element budget false)
    else
      return []

def listOf {α : Type} (budget : Nat) (item : Reader α) : Reader (List α) := do
  let all ← each .endOfList nextItem item budget true
  endList
  return all

/-- A member of an object after the opening quote of its name. -/
def member {α : Type} (value : Reader α) : Reader (String × α) := do
  let name ← text
  colon
  return (name, ← value)

def objectOf {α : Type} (budget : Nat) (value : Reader α) : Reader (List (String × α)) := do
  let all ← each .endOfObject nextMember (member value) budget true
  skip
  return all

/-- A scalar starting with the given byte; lists and objects are left to the caller. -/
def scalar (b : UInt8) : Reader Json := do
  if b = lowerN then skip; word afterN; return null
  else if b = lowerT then skip; word afterT; return truth true
  else if b = lowerF then skip; word afterF; return truth false
  else if b = minus then skip; number true
  else if isDigit b then number false
  else if b = quote then skip; return Json.text (← text)
  else throw .expectedValue

def value : Nat → Reader Json
  | 0 => throw .endOfValue
  | budget + 1 => do
    match ← peek with
    | none => throw .endOfValue
    | some b =>
      if b = openList then skip; return list (← listOf budget (value budget))
      else if b = openObject then
        skip; return object (Entries.ofPairs (← objectOf budget (value budget)))
      else scalar b

/-- The fault of a value of another kind than expected. A scalar is read first, so that a fault
of its own comes before. -/
def unexpected {α : Type} (b : UInt8) (expected : String) : Reader α := do
  if b = openList then throw (.wrongKind .sequence expected)
  else if b = openObject then throw (.wrongKind .map expected)
  else throw (.wrongKind (← scalar b).found expected)

/-- Nothing but blanks may be left. -/
def finish : Reader Unit := do
  if (← peek).isSome then throw .trailingCharacters

end Reader

def read (bytes : List UInt8) : Except Fault Json := do
  let all : Reader Json := do
    let value ← Reader.value (bytes.length + 1)
    Reader.finish
    return value
  all.run' bytes

end FlipperBlocks.Json
