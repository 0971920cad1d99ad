import FlipperBlocks.Json.Reader

/-! Passing over values that nobody asked for.

A skipped value must still be well formed, but its numbers have no range, its surrogates no
partner, and its texts may hold any bytes. -/
namespace FlipperBlocks.Json.Skip

open Byte Reader

/-- The bytes after the closing quote of a text. -/
def afterText : List UInt8 → Except Fault (List UInt8)
  | [] => .error .endOfText
  | b :: bytes =>
    if b = quote then .ok bytes
    else if b < 0x20 then .error .controlCharacter
    else if b ≠ backslash then afterText bytes
    else match bytes with
      | [] => .error .endOfText
      | mark :: bytes =>
        if mark ≠ lowerU then
          if (escape? mark).isSome then afterText bytes else .error .invalidEscape
        else match bytes with
          | a :: b :: c :: d :: bytes =>
            if (unit? a b c d).isSome then afterText bytes else .error .invalidEscape
          | _ => .error .endOfText

def text : Reader Unit := do
  set (← afterText (← get))

def digits : Reader (List UInt8) := do
  let bytes ← get
  match bytes.takeWhile isDigit with
  | [] => throw .invalidNumber
  | run => set (bytes.dropWhile isDigit); return run

def number : Reader Unit := do
  let run ← digits
  if run.head? = some 0x30 && 1 < run.length then throw .invalidNumber
  if (← get).head? = some point then
    skip
    discard digits
  if (← get).head?.any isExponentMark then
    skip
    if (← get).head?.any fun b => b == plus || b == minus then skip
    discard digits

/-- Passes over the rest of a list or an object, from after an element. -/
def others (ends : UInt8) (cut unended : Fault) (element : Reader Unit) : Nat → Reader Unit
  | 0 => throw cut
  | budget + 1 => do
    match ← peek with
    | none => throw cut
    | some b =>
      if b = ends then skip
      else if b = comma then skip; element; others ends cut unended element budget
      else throw unended

def each (ends : UInt8) (cut unended : Fault) (budget : Nat) (element : Reader Unit) : Reader Unit := do
  match ← peek with
  | none => throw cut
  | some b => if b = ends then skip else element; others ends cut unended element budget

def list (budget : Nat) (item : Reader Unit) : Reader Unit :=
  each closeList .endOfList .expectedListEnd budget item

def name : Reader Unit := do
  match ← peek with
  | none => throw .endOfObject
  | some b => if b = quote then skip; text; colon else throw .keyNotText

def object (budget : Nat) (value : Reader Unit) : Reader Unit :=
  each closeObject .endOfObject .expectedObjectEnd budget do name; value

def value : Nat → Reader Unit
  | 0 => throw .endOfValue
  | budget + 1 => do
    match ← peek with
    | none => throw .endOfValue
    | some b =>
      if b = lowerN then skip; word afterN
      else if b = lowerT then skip; word afterT
      else if b = lowerF then skip; word afterF
      else if b = minus then skip; number
      else if isDigit b then number
      else if b = quote then skip; text
      else if b = openList then skip; list budget (value budget)
      else if b = openObject then skip; object budget (value budget)
      else throw .expectedValue

end FlipperBlocks.Json.Skip
