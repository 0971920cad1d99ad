import FlipperBlocks.Lowering.Site

/-! Conversions between kinds of values, and the storage that they and other reads fill. -/
namespace FlipperBlocks.Lowering

open C (Expr)

/-- A value as a number: of a text, the first integer in it. -/
def toNumber (value : Value) : Lowering Value := do
  if value.kind = .text then
    enable [.textToNumber]
    return ⟨.call "extract_number_from_string" [value.expr], .number, none⟩
  else
    return value

/-- A buffer that all uses share, declared when it is first asked for. -/
def sharedBuffer (name : String) (size : Nat) : Lowering String := do
  let key := "buffer:" ++ name
  match ← slot? key with
  | some buffer => return buffer
  | none =>
    let taken := (← lookup? name).isSome
    let buffer ← if taken then fresh name else pure name
    let _ ← declare ⟨buffer, .text size⟩
    rememberSlot key buffer
    return buffer

/-- Prints one value into a buffer. -/
def printInto (buffer format type : String) (value : Expr) : Expr :=
  .call "snprintf"
    [.name buffer, .sizeOf (.name buffer), .quoted format, .castGroup type value]

/-- An action and then the value it prepares, as one expression. -/
def doing (action result : Expr) : Expr := .group (.sequence action result)

/-- A value as text to be shown. Literals become text literals, and other values are printed into
a buffer that whatever shows them copies. -/
def toText (value : Value) : Lowering Value := do
  if value.kind = .text then
    return value
  else if value.isLiteral then
    return .text value.code
  else
    let buffer ← sharedBuffer "display_buffer" 64
    return ⟨doing (printInto buffer "%d" "int" value.expr) (.name buffer), .text, none⟩

/-- The value of a read that leaves its result in storage. While drawing, the read is put before
the drawing; elsewhere it is made in place. -/
def deferred (read : Expr) (result : Value) : Lowering Value := do
  if (← phase) = .draw then
    hoist (.run read)
    return result
  else
    return { result with expr := doing read result.expr }

/-- The storage of all reads with the same key. -/
def readSlot (key stem : String) (type : StorageType) : Lowering Storage := do
  let known := (← slot? key).bind (← getDraft).lookup?
  match known with
  | some storage => return storage
  | none =>
    let name ← fresh stem
    rememberSlot key name
    declare ⟨name, type⟩

/-- The name of the array or buffer of all reads with the same key. -/
def namedSlot (key stem : String) (type : StorageType) : Lowering String := do
  match ← slot? key with
  | some name => return name
  | none =>
    let name ← fresh stem
    let _ ← declare ⟨name, type⟩
    rememberSlot key name
    return name

end FlipperBlocks.Lowering

namespace FlipperBlocks.Site

open Lowering

/-- The number in an input; of a text, the first integer in it. -/
def numeric (site : Site) (input default : String) : Lowering Value := do
  toNumber (← site.number input default)

/-- The value in an input, unless it is a byte array; then it is as if it had never been lowered. -/
def scalar? (site : Site) (input : String) (default : Value) : Lowering (Option Value) :=
  tentatively do
    let value ← site.value input default
    return if value.kind = .bytes then none else some value

def shown (site : Site) (input default : String) : Lowering Value := do
  match ← site.scalar? input (.text default) with
  | some value => toText value
  | none =>
    degrade (.bytesAsValue input)
    return .text ""

end FlipperBlocks.Site
