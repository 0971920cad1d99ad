import FlipperBlocks.Lowering.Conversion

/-! Messages to the log. -/
namespace FlipperBlocks.Lowering

open C (Code Expr)

/-- The function that logs at the level a field names. -/
def logFunction : Option String → String
  | some "E" => "FURI_LOG_E"
  | some "W" => "FURI_LOG_W"
  | some "D" => "FURI_LOG_D"
  | some "T" => "FURI_LOG_T"
  | _ => "FURI_LOG_I"

/-- A text in which every percent sign has been doubled, so that a format prints it as it is. -/
def doublePercent (text : String) : String :=
  String.ofList (text.toList.flatMap fun c => if c = '%' then ['%', '%'] else [c])

/-- A format and its arguments that print a value after a leading text. A text literal is its own
format; other values are printed by one directive. -/
def formatArguments (lead : String) (value : Value) : List Expr :=
  match value.kind, value.expr with
  | .text, .quoted contents => [.quoted (lead ++ doublePercent contents)]
  | .text, expr => [.quoted (lead ++ "%s"), expr]
  | .bytes, expr => [.quoted (lead ++ "%p"), .cast "void*" expr]
  | .number, expr | .truth, expr => [.quoted (lead ++ "%d"), .castGroup "int" expr]

def log (site : Site) : Lowering Code := do
  let tag ← site.shown "TAG" "APP"
  let message ← site.text "MSG" ""
  return Code.run
    (.call (logFunction (site.head.field? "LEVEL")) (tag.expr :: formatArguments "" message))

def print (site : Site) : Lowering Code := do
  let value ← site.text "TEXT" ""
  return Code.run (.call "FURI_LOG_I" (.quoted "APP" :: formatArguments "Print: " value))

end FlipperBlocks.Lowering
