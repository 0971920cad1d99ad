import FlipperBlocks.C.Expr
import FlipperBlocks.Number.Text

/-! Values: expressions together with what they stand for. -/
namespace FlipperBlocks

inductive ValueKind where
  | number
  | text
  | truth
  | bytes
  deriving DecidableEq

structure Value where
  expr : C.Expr
  kind : ValueKind
  array : Option String := none

namespace Value

def number (digits : String) : Value := ⟨.number digits, .number, none⟩

def text (contents : String) : Value := ⟨.quoted contents, .text, none⟩

def truth (value : Bool) : Value := ⟨.truth value, .truth, none⟩

def bytes (array : String) : Value := ⟨.name array, .bytes, some array⟩

/-- A value that is given as text, of which no more is known than how tightly it binds. -/
def ofText (text : String) (kind : ValueKind) (level : C.Level) : Value := ⟨.verbatim text level, kind, none⟩

def code (value : Value) : String := value.expr.code

def isLiteral (value : Value) : Bool := value.expr.isLiteral

/-- The integer of 64 bits that decimal digits spell, with a sign or without. -/
def integerOfText (text : List Char) : Option Int :=
  let (negative, digits) := Binary64.splitSign text
  let magnitude := Binary64.digitsValue digits
  if digits.isEmpty || !digits.all Char.isDigit then none
  else if negative then
    if magnitude ≤ twoTo 63 then some (-(magnitude : Int)) else none
  else if magnitude < twoTo 63 then some magnitude else none

/-- The integer that a literal spells in decimal. -/
def integer? (value : Value) : Option Int :=
  match value.expr, value.kind with
  | .number digits, .number => integerOfText digits.toList
  | _, _ => none

end Value

end FlipperBlocks
