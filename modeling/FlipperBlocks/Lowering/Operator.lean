import FlipperBlocks.Lowering.Conversion

/-! Operators, literals and conversions that blocks ask for. -/
namespace FlipperBlocks.Lowering

open C (Expr BinaryOp)

variable (site : Site)

def operation (op : BinaryOp) (left right : Expr) (kind : ValueKind) : Value :=
  ⟨.binary op left right, kind, none⟩

def truthLiteral : Value := .truth (site.head.field? "BOOL" != some "FALSE")

def numberLiteral : Value := .number (((site.head.numberField? "NUM").map Binary64.literal).getD "0")

def isHexLiteral : List Char → Bool
  | '0' :: 'x' :: digits | '0' :: 'X' :: digits =>
    !digits.isEmpty && digits.all fun c => c.isDigit || ('a' ≤ c && c ≤ 'f') || ('A' ≤ c && c ≤ 'F')
  | _ => false

def hexLiteral : Value :=
  let text := Text.trim (site.head.fieldOr "HEX" "0x0")
  .number (if isHexLiteral text.toList then text else "0x0")

def comparisonOf : Option String → BinaryOp
  | some "NEQ" => .notEqual
  | some "LT" => .less
  | some "LTE" => .lessEqual
  | some "GT" => .greater
  | some "GTE" => .greaterEqual
  | _ => .equal

/-- A comparison. Two texts are compared letter by letter; other values as numbers, and a
comparison within a comparison stands in parentheses. -/
def comparison : Lowering Value := do
  let op := comparisonOf (site.head.field? "OP")
  let a ← site.number "A" "0"
  let b ← site.number "B" "0"
  if a.kind = .text ∧ b.kind = .text then
    return operation op (.call "strcmp" [a.expr, b.expr]) (.number "0") .truth
  else
    let a ← toNumber a
    let b ← toNumber b
    return operation op (a.expr.operand .additive) (b.expr.operand .additive) .truth

def logical : Lowering Value := do
  let op : BinaryOp := if site.head.field? "OP" = some "OR" then .or else .and
  let a ← site.truth "A" false
  let b ← site.truth "B" false
  return operation op (a.expr.operand .bitOr) (b.expr.operand .bitOr) .truth

def negation : Lowering Value := do
  let operand ← site.truth "BOOL" false
  return ⟨.unary .not (operand.expr.operand .unary), .truth, none⟩

/-- The arithmetic operator that a field names, powers apart. -/
def arithmeticOf : Option String → BinaryOp
  | some "MINUS" => .subtract
  | some "MULTIPLY" => .multiply
  | some "DIVIDE" => .divide
  | _ => .add

def arithmetic : Lowering Value := do
  let a ← site.numeric "A" "0"
  let b ← site.numeric "B" "0"
  let name := site.head.field? "OP"
  if name = some "POWER" then
    enable [.math]
    return ⟨.call "pow" [a.expr, b.expr], .number, none⟩
  else
    let op := arithmeticOf name
    return operation op (a.expr.operand op.level) (b.expr.rightOperand op.level) .number

/-- A bitwise operation; operands that are operations themselves stand in parentheses. -/
def bitwise (op : BinaryOp) (site : Site) : Lowering Value := do
  let a ← site.numeric "A" "0"
  let b ← site.numeric "B" "0"
  return operation op (a.expr.operand .unary) (b.expr.operand .unary) .number

def complement : Lowering Value := do
  let operand ← site.numeric "A" "0"
  return ⟨.unary .complement (operand.expr.operand .unary), .number, none⟩

def textToNumber : Lowering Value := do
  toNumber (← site.text "STRING" "")

/-- The decimal text of a number. Equal expressions share a buffer. -/
def numberToText : Lowering Value := do
  let value ← site.number "NUMBER" "0"
  if value.kind = .text then
    return value
  else if value.isLiteral then
    return .text value.code
  else
    let buffer ← namedSlot ("num_str:" ++ value.code) "num_str" (.text 32)
    deferred (printInto buffer "%ld" "long" value.expr) ⟨.name buffer, .text, none⟩

def textLength : Lowering Value := do
  let text ← site.shown "STRING" ""
  return ⟨.cast "int" (.call "strlen" [text.expr]), .number, none⟩

def randomNumber : Lowering Value := do
  let least ← site.numeric "MIN" "0"
  let greatest ← site.numeric "MAX" "100"
  enable [.random]
  return ⟨.call "random_range" [least.expr, greatest.expr], .number, none⟩

end FlipperBlocks.Lowering
