import FlipperBlocks.Lowering.Conversion

/-! Byte streams. -/
namespace FlipperBlocks.Lowering

open C (Code Expr)

def hexValue? (c : Char) : Option Nat :=
  if c.isDigit then some (c.toNat - 48)
  else if 'a' ≤ c && c ≤ 'f' then some (c.toNat - 87)
  else if 'A' ≤ c && c ≤ 'F' then some (c.toNat - 55)
  else none

def hexNumber? (digits : List Char) : Option Nat :=
  digits.foldlM (fun n c => (hexValue? c).map (16 * n + ·)) 0

/-- A word without `0x` in front. -/
def dropHexMark : List Char → List Char
  | '0' :: 'x' :: rest | '0' :: 'X' :: rest => rest
  | word => word

/-- Digits without a plus sign in front. -/
def dropPlus : List Char → List Char
  | '+' :: rest => rest
  | digits => digits

def byteOfWord? (word : List Char) : Option UInt8 :=
  let digits := dropPlus (dropHexMark word)
  if digits.isEmpty then none
  else
    match hexNumber? digits with
    | some n => if n < 256 then some (UInt8.ofNat n) else none
    | none => none

/-- The bytes that the words of a text spell; words that spell none are passed over, and without
any there is one zero byte. -/
def bytesOfText (text : String) : List UInt8 :=
  match (Text.words text).filterMap byteOfWord? with
  | [] => [0]
  | bytes => bytes

def byteStream (site : Site) : Lowering Value := do
  let bytes := bytesOfText (site.head.rawField "BYTES")
  let array ← fresh "byte_stream"
  let _ ← declare ⟨array, .bytes bytes.length (some bytes)⟩
  return .bytes array

/-- An array, and the read that fills it if the read is made in place. -/
structure Stream where
  array : String
  read : Option Expr

def Stream.ofValue? (value : Value) : Option Stream :=
  value.array.map fun array => ⟨array, if value.code = array then none else some value.expr⟩

/-- The stream in an input. A value that is none is as if it had never been lowered. -/
def streamIn? (site : Site) (input : String) : Lowering (Option Stream) := do
  let stream ← tentatively do
    return Stream.ofValue? (← site.number input "0")
  if stream.isNone then
    degrade (.expectedBytes input)
  return stream

def arraySize (array : String) : Expr := .cast "int" (.sizeOf (.name array))

def streamLength (site : Site) : Lowering Value := do
  match ← streamIn? site "STREAM" with
  | some stream => return ⟨arraySize stream.array, .number, none⟩
  | none => return .number "0"

def inBounds (array : String) (position : Expr) : Expr :=
  .binary .and (.binary .greaterEqual position (.number "0"))
    (.binary .less position (arraySize array))

/-- A read made for its effect only. -/
def discarded (read : Expr) : Expr := .cast "void" read

/-- The byte of a stream at a position, or zero outside of it. A position that is no integer
literal is evaluated once, into a variable. -/
def byteAt (stream : Stream) (position : Value) : Expr :=
  let element (spot : Expr) : Expr := .index stream.array spot
  match position.integer? with
  | some n =>
    let spot : Expr := .number (toString n)
    let chosen : Expr := .conditional (inBounds stream.array spot.group) (element spot) (.number "0")
    .group <|
      match stream.read with
      | some read => .sequence (discarded read) chosen
      | none => chosen
  | none =>
    let spot : Expr := .name "_ix"
    .steps
      ((stream.read.toList.map discarded) ++
        [.declare "int" "_ix" (.castGroup "int" position.expr),
          .conditional (.group (inBounds stream.array spot)) (element spot) (.number "0")])

def streamByte (site : Site) : Lowering Value := do
  match ← streamIn? site "STREAM" with
  | some stream =>
    let position ← site.numeric "INDEX" "0"
    return ⟨byteAt stream position, .number, none⟩
  | none => return .number "0"

end FlipperBlocks.Lowering
