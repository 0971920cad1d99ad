import FlipperBlocks.Lowering.Conversion

/-! Elements of the screen. -/
namespace FlipperBlocks.Lowering

open C (Code Expr)

variable (site : Site)

def element (function : String) (arguments : List Expr) : Code :=
  Code.run (.call function (.member "app" "widget" :: arguments))

def measure (input default : String) : Lowering Expr := return (← site.number input default).expr

def coordinate (input : String) : Lowering Expr := measure site input "0"

def alignment : List Expr :=
  [.name (C.Identifier.symbolOr (site.head.field? "HALIGN") "AlignLeft"),
    .name (C.Identifier.symbolOr (site.head.field? "VALIGN") "AlignTop")]

def drawText (x y : Expr) : Lowering Code := do
  let text ← site.shown "TEXT" "Hello"
  return element "widget_add_string_element"
    [x, y, .name "AlignLeft", .name "AlignTop", .name "FontPrimary", text.expr]

def drawAlignedText (x y : Expr) : Lowering Code := do
  let text ← site.shown "TEXT" ""
  return element "widget_add_string_element"
    ([x, y] ++ alignment site ++ [.name "FontPrimary", text.expr])

def drawRectangle (rounded filled : Bool) (x y : Expr) : Lowering Code := do
  let width ← coordinate site "W"
  let height ← coordinate site "H"
  let radius ← if rounded then measure site "R" "3" else pure (.number "0")
  return element "widget_add_rect_element" [x, y, width, height, radius, .truth filled]

def drawLine : Lowering Code := do
  let x₁ ← coordinate site "X1"
  let y₁ ← coordinate site "Y1"
  let x₂ ← coordinate site "X2"
  let y₂ ← coordinate site "Y2"
  return element "widget_add_line_element" [x₁, y₁, x₂, y₂]

def drawCircle (filled : Bool) (x y : Expr) : Lowering Code := do
  let radius ← coordinate site "R"
  return element "widget_add_circle_element" [x, y, radius, .truth filled]

def drawDot (x y : Expr) : Code := element "widget_add_circle_element" [x, y, .number "1", .truth true]

def textBox (x y : Expr) : Lowering Code := do
  let width ← coordinate site "W"
  let height ← coordinate site "H"
  let text ← site.shown "TEXT" ""
  let strip := site.head.field? "STRIP" == some "TRUE"
  return element "widget_add_text_box_element"
    ([x, y, width, height] ++ alignment site ++ [text.expr, .truth strip])

def scrollingText (x y : Expr) : Lowering Code := do
  let width ← coordinate site "W"
  let height ← coordinate site "H"
  let text ← site.shown "TEXT" ""
  return element "widget_add_text_scroll_element" [x, y, width, height, text.expr]

/-- An element of the screen. Its corner is lowered first, also where the element goes by other
coordinates. -/
def drawing : Lowering Code := do
  let x ← coordinate site "X"
  let y ← coordinate site "Y"
  match site.kind with
  | .drawText => drawText site x y
  | .drawAlignedText => drawAlignedText site x y
  | .drawBox => drawRectangle site false true x y
  | .drawFrame => drawRectangle site false false x y
  | .drawRoundedBox => drawRectangle site true true x y
  | .drawRoundedFrame => drawRectangle site true false x y
  | .drawLine => drawLine site
  | .drawCircle => drawCircle site false x y
  | .drawDisc => drawCircle site true x y
  | .drawDot => return drawDot x y
  | .textBox => textBox site x y
  | _ => scrollingText site x y

/-- A button of the screen, with what it does if it does anything. -/
def button : Lowering Code := do
  let type := C.Identifier.symbolOr (site.head.field? "BTN") "GuiButtonTypeLeft"
  let label ← site.shown "LABEL" "Btn"
  let body ← inPhase .button (site.statements "DO")
  let callback : List Expr ←
    if body.isEmpty then
      pure [.name "NULL", .name "NULL"]
    else do
      let number ← addButton body
      pure [.name ("app_button_cb_" ++ toString number), .name "app"]
  return element "widget_add_button_element" ([.name type, label.expr] ++ callback)

end FlipperBlocks.Lowering
