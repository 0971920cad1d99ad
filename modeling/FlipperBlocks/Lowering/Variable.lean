import FlipperBlocks.Lowering.Conversion

/-! Variables: a variable is declared when it is first met, as text or as a number. -/
namespace FlipperBlocks.Lowering

open C (Code Expr)

variable (site : Site)

def variableName : String := C.Identifier.sanitize (site.head.fieldOr "VAR" C.Identifier.fallback)

def resolve (asText : Bool) : Lowering Storage :=
  declare ⟨variableName site, if asText then .text 256 else .int⟩

def getVariable (asText : Bool) : Lowering Value := do
  return (← resolve site asText).value

/-- Copies a text into storage and ends it there. -/
def copyText (storage : Storage) (text : Expr) : Code :=
  let last : Expr := .binary .subtract (.sizeOf storage.place) (.number "1")
  Code.run (.call "strncpy" [storage.place, text, last]) ++
    Code.run (.assign .set (.index storage.name last) .nul)

def store (storage : Storage) (value : Value) : Lowering Code := do
  if storage.kind = .text then
    if value.kind = .text then
      return copyText storage value.expr
    else
      return Code.run (printInto storage.name "%d" "int" value.expr)
  else
    let value ← toNumber value
    return Code.run (.assign .set storage.place value.expr)

/-- Sets a variable. A byte array cannot be stored in one. -/
def setVariable : Lowering Code := do
  match ← site.scalar? "VALUE" (.number "0") with
  | some value =>
    let storage ← resolve site (value.kind = .text)
    store storage value
  | none =>
    let name := variableName site
    degrade (.bytesAsValue name)
    return Code.comment ("cannot assign a byte stream to " ++ name)

/-- Adds to a variable, which has to be a number. -/
def changeVariable : Lowering Code := do
  let storage ← resolve site false
  if storage.kind = .number then
    let delta ← site.numeric "DELTA" "1"
    return Code.run (.assign .add storage.place delta.expr)
  else
    degrade (.textArithmetic storage.name)
    return Code.comment ("cannot add a number to " ++ storage.name)

end FlipperBlocks.Lowering
