import FlipperBlocks.C.Level
import FlipperBlocks.C.Quoted

/-! Expressions of C, as the generated programs use them.

An expression is a tree of the text that it will become: parentheses are part of the tree, and
`operand` and `rightOperand` add them where an operator needs them. -/
namespace FlipperBlocks.C

inductive UnaryOp where
  | not
  | complement
  | address
  deriving DecidableEq

def UnaryOp.symbol : UnaryOp → String
  | not => "!"
  | complement => "~"
  | address => "&"

inductive BinaryOp where
  | add
  | subtract
  | multiply
  | divide
  | shiftLeft
  | less
  | lessEqual
  | greater
  | greaterEqual
  | equal
  | notEqual
  | bitAnd
  | bitXor
  | bitOr
  | and
  | or
  deriving DecidableEq

namespace BinaryOp

def symbol : BinaryOp → String
  | add => "+"
  | subtract => "-"
  | multiply => "*"
  | divide => "/"
  | shiftLeft => "<<"
  | less => "<"
  | lessEqual => "<="
  | greater => ">"
  | greaterEqual => ">="
  | equal => "=="
  | notEqual => "!="
  | bitAnd => "&"
  | bitXor => "^"
  | bitOr => "|"
  | and => "&&"
  | or => "||"

/-- The level of an operator. A shift is counted with the comparisons, which bind less tightly. -/
def level : BinaryOp → Level
  | add | subtract => .additive
  | multiply | divide => .multiplicative
  | shiftLeft | less | lessEqual | greater | greaterEqual => .relational
  | equal | notEqual => .equality
  | bitAnd => .bitAnd
  | bitXor => .bitXor
  | bitOr => .bitOr
  | and => .logicalAnd
  | or => .logicalOr

end BinaryOp

inductive AssignOp where
  | set
  | add
  | shiftRight
  deriving DecidableEq

def AssignOp.symbol : AssignOp → String
  | set => "="
  | add => "+="
  | shiftRight => ">>="

inductive Expr where
  /-- A number as it is written, with its sign and suffix. -/
  | number (digits : String)
  /-- A string literal with these contents. -/
  | quoted (contents : String)
  | truth (value : Bool)
  /-- The character with code zero. -/
  | nul
  | name (text : String)
  | member (object field : String)
  | unary (op : UnaryOp) (operand : Expr)
  | binary (op : BinaryOp) (left right : Expr)
  | conditional (test yes no : Expr)
  | group (inner : Expr)
  | call (function : String) (arguments : List Expr)
  | cast (type : String) (operand : Expr)
  | index (array : String) (position : Expr)
  | assign (op : AssignOp) (place value : Expr)
  | increment (place : Expr)
  /-- Two expressions one after the other, the second giving the value. -/
  | sequence (first second : Expr)
  /-- A variable declared with its first value. -/
  | declare (type label : String) (value : Expr)
  /-- Statements in braces and parentheses, the last one giving the value. -/
  | steps (list : List Expr)
  /-- An expression with a comment in front. -/
  | remark (text : String) (inner : Expr)
  /-- Any text, said to bind at this level. -/
  | verbatim (text : String) (level : Level)

namespace Expr

mutual

def code : Expr → String
  | number digits => digits
  | quoted contents => C.quoted contents
  | truth true => "true"
  | truth false => "false"
  | nul => "'\\0'"
  | name text => text
  | member object field => object ++ "->" ++ field
  | unary op operand => op.symbol ++ operand.code
  | binary op left right => left.code ++ " " ++ op.symbol ++ " " ++ right.code
  | conditional test yes no => test.code ++ " ? " ++ yes.code ++ " : " ++ no.code
  | group inner => "(" ++ inner.code ++ ")"
  | call function arguments => function ++ "(" ++ listed arguments ++ ")"
  | cast type operand => "(" ++ type ++ ")" ++ operand.code
  | index array position => array ++ "[" ++ position.code ++ "]"
  | assign op place value => place.code ++ " " ++ op.symbol ++ " " ++ value.code
  | increment place => place.code ++ "++"
  | sequence first second => first.code ++ ", " ++ second.code
  | declare type label value => type ++ " " ++ label ++ " = " ++ value.code
  | steps list => "(\x7b " ++ stepped list ++ "\x7d)"
  | remark text inner => "/* " ++ text ++ " */ " ++ inner.code
  | verbatim text _ => text

def listed : List Expr → String
  | [] => ""
  | [last] => last.code
  | first :: rest => first.code ++ ", " ++ listed rest

def stepped : List Expr → String
  | [] => ""
  | first :: rest => first.code ++ "; " ++ stepped rest

end

/-- How tightly an expression binds. A number with a sign binds as the sign does. -/
def level : Expr → Level
  | number digits => if digits.toList.head? = some '-' then .unary else .atomic
  | unary .. | cast .. => .unary
  | binary op _ _ => op.level
  | conditional .. | assign .. | sequence .. | declare .. => .conditional
  | remark _ inner => inner.level
  | verbatim _ level => level
  | quoted _ | truth _ | nul | name _ | member .. | group _ | call .. | index .. | increment _
  | steps _ => .atomic

/-- Numbers, texts and truth values as they are written in a program. -/
def isLiteral : Expr → Bool
  | number _ | quoted _ | truth _ => true
  | _ => false

/-- The expression as an operand of an operator of that level, in parentheses if it binds less
tightly. A left operand of the same level needs none. -/
def operand (e : Expr) (context : Level) : Expr :=
  if e.level.looser context then e.group else e

/-- The expression as a right operand of an operator of that level, in parentheses unless it
binds more tightly. -/
def rightOperand (e : Expr) (context : Level) : Expr :=
  if !context.looser e.level && e.level != .atomic then e.group else e

/-- The expression, in parentheses, converted to a type. -/
def castGroup (type : String) (e : Expr) : Expr := cast type e.group

/-- The number of bytes of an object. -/
def sizeOf (object : Expr) : Expr := call "sizeof" [object]

def ofNat (n : Nat) : Expr := number (toString n)

end Expr

end FlipperBlocks.C
