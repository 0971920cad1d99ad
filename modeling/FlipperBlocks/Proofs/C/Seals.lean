import FlipperBlocks.C.Code

/-! Sealed expressions.

An expression is sealed when nothing but its text and its level is left of it. Code that is made with a
sealed expression in place of another one reads the same, and the seals in it tell how often it has been
put there. -/
namespace FlipperBlocks.C

namespace Expr

def sealed (e : Expr) : Expr := verbatim e.code e.level

mutual

def seals : Expr → Nat
  | number _ | quoted _ | truth _ | nul | name _ | member .. => 0
  | unary _ inner | group inner | cast _ inner | index _ inner | increment inner | declare _ _ inner
  | remark _ inner => inner.seals
  | binary _ first second | assign _ first second | sequence first second => first.seals + second.seals
  | conditional test yes no => test.seals + yes.seals + no.seals
  | call _ list | steps list => sealsIn list
  | verbatim .. => 1

def sealsIn : List Expr → Nat
  | [] => 0
  | first :: rest => first.seals + sealsIn rest

end

/-- The second expression reads as the first one, and has as many seals more as the input is listed.
Literals are the same in both. -/
structure Marked (input : String) (names : List String) (e e' : Expr) : Prop where
  code : e'.code = e.code
  level : e'.level = e.level
  isLiteral : e'.isLiteral = e.isLiteral
  literal : e.isLiteral = true → e' = e
  seals : e'.seals = e.seals + names.count input

inductive AllMarked (input : String) : List String → List Expr → List Expr → Prop
  | nil : AllMarked input [] [] []
  | cons {names others : List String} {e e' : Expr} {list list' : List Expr}
      (first : Marked input names e e') (rest : AllMarked input others list list') :
      AllMarked input (names ++ others) (e :: list) (e' :: list')

variable {input : String} {names others : List String}

theorem Marked.refl (e : Expr) : Marked input [] e e := ⟨rfl, rfl, rfl, fun _ => rfl, rfl⟩

theorem AllMarked.all (list : List Expr) : AllMarked input [] list list := by
  induction list with
  | nil => exact .nil
  | cons e rest ih => exact .cons (.refl e) ih

variable {e e' : Expr} {list list' : List Expr}

theorem AllMarked.followed (marked : Marked input names e e') (list : List Expr) :
    AllMarked input names (e :: list) (e' :: list) := by
  rw [← List.append_nil names]
  exact .cons marked (.all list)

theorem AllMarked.single (marked : Marked input names e e') : AllMarked input names [e] [e'] :=
  .followed marked []

theorem AllMarked.of_single (marked : AllMarked input names [e] [e']) : Marked input names e e' := by
  cases marked with
  | cons first rest =>
    cases rest
    rw [List.append_nil]
    exact first

theorem AllMarked.map {change : Expr → Expr} (marked : AllMarked input names list list')
    (each : ∀ names e e', Marked input names e e' → Marked input names (change e) (change e')) :
    AllMarked input names (list.map change) (list'.map change) := by
  induction marked with
  | nil => exact .nil
  | cons first _ ih => exact .cons (each _ _ _ first) ih

theorem AllMarked.append {tail tail' : List Expr}
    (marked : AllMarked input names list list') (rest : AllMarked input others tail tail') :
    AllMarked input (names ++ others) (list ++ tail) (list' ++ tail') := by
  induction marked with
  | nil => exact rest
  | cons first _ ih =>
    rw [List.append_assoc]
    exact .cons first ih

theorem AllMarked.sealsIn {list list' : List Expr} (marked : AllMarked input names list list') :
    Expr.sealsIn list' = Expr.sealsIn list + names.count input := by
  induction marked with
  | nil => rfl
  | cons first _ ih =>
    change Expr.seals _ + Expr.sealsIn _ = Expr.seals _ + Expr.sealsIn _ + _
    rw [first.seals, ih, List.count_append]
    omega

theorem AllMarked.listed {list list' : List Expr} (marked : AllMarked input names list list') :
    Expr.listed list' = Expr.listed list := by
  induction marked with
  | nil => rfl
  | cons first rest ih =>
    cases rest with
    | nil => exact first.code
    | cons second rest =>
      change _ ++ ", " ++ Expr.listed (_ :: _) = _ ++ ", " ++ Expr.listed (_ :: _)
      rw [first.code, ih]

theorem AllMarked.stepped {list list' : List Expr} (marked : AllMarked input names list list') :
    Expr.stepped list' = Expr.stepped list := by
  induction marked with
  | nil => rfl
  | cons first rest ih =>
    change _ ++ "; " ++ Expr.stepped _ = _ ++ "; " ++ Expr.stepped _
    rw [first.code, ih]

namespace Marked

variable {e e' f f' : Expr}

theorem of_absent (absent : input ∉ names) (e : Expr) : Marked input names e e :=
  ⟨rfl, rfl, rfl, fun _ => rfl, by rw [List.count_eq_zero.2 absent, Nat.add_zero]⟩

theorem of_count (marked : Marked input names e e') (same : names.count input = others.count input) :
    Marked input others e e' :=
  { marked with seals := same ▸ marked.seals }

theorem sealed (unsealed : e.seals = 0) (changing : e.isLiteral = false) :
    Marked input [input] e e.sealed where
  code := rfl
  level := rfl
  isLiteral := changing.symm
  literal literal := absurd (changing.symm.trans literal) Bool.false_ne_true
  seals := by
    change 1 = e.seals + [input].count input
    rw [unsealed, List.count_singleton_self]

theorem eq_of_literal (marked : Marked input names e e') (literal : e.isLiteral = true) :
    e' = e ∧ names.count input = 0 := by
  have same := marked.literal literal
  have seals := marked.seals
  rw [same] at seals
  exact ⟨same, by omega⟩

private theorem of_open (code : f'.code = f.code) (level : f'.level = f.level)
    (isLiteral : f.isLiteral = false) (same : f'.isLiteral = false)
    (seals : f'.seals = f.seals + names.count input) : Marked input names f f' :=
  ⟨code, level, same.trans isLiteral.symm, fun literal => absurd (isLiteral.symm.trans literal)
    Bool.false_ne_true, seals⟩

theorem unary (op : UnaryOp) (marked : Marked input names e e') :
    Marked input names (.unary op e) (.unary op e') :=
  of_open (congrArg (op.symbol ++ ·) marked.code) rfl rfl rfl marked.seals

theorem binary (op : BinaryOp) (left : Marked input names e e') (right : Marked input others f f') :
    Marked input (names ++ others) (.binary op e f) (.binary op e' f') := by
  refine of_open ?code rfl rfl rfl ?seals
  case code =>
    change e'.code ++ " " ++ op.symbol ++ " " ++ f'.code = e.code ++ " " ++ op.symbol ++ " " ++ f.code
    rw [left.code, right.code]
  case seals =>
    change e'.seals + f'.seals = e.seals + f.seals + _
    rw [left.seals, right.seals, List.count_append]
    omega

theorem group (marked : Marked input names e e') : Marked input names e.group e'.group :=
  of_open (congrArg (fun code => "(" ++ code ++ ")") marked.code) rfl rfl rfl marked.seals

variable {list list' : List Expr}

theorem call (function : String) (marked : AllMarked input names list list') :
    Marked input names (.call function list) (.call function list') :=
  of_open (congrArg (fun code => function ++ "(" ++ code ++ ")") marked.listed) rfl rfl rfl
    marked.sealsIn

theorem cast (type : String) (marked : Marked input names e e') :
    Marked input names (.cast type e) (.cast type e') :=
  of_open (congrArg (fun code => "(" ++ type ++ ")" ++ code) marked.code) rfl rfl rfl marked.seals

theorem castGroup (type : String) (marked : Marked input names e e') :
    Marked input names (.castGroup type e) (.castGroup type e') :=
  marked.group.cast type

theorem assign (op : AssignOp) (place : Expr) (marked : Marked input names e e') :
    Marked input names (.assign op place e) (.assign op place e') := by
  refine of_open (congrArg (fun code => place.code ++ " " ++ op.symbol ++ " " ++ code) marked.code)
    rfl rfl rfl ?_
  change place.seals + e'.seals = place.seals + e.seals + _
  rw [marked.seals, Nat.add_assoc]

theorem before (marked : Marked input names e e') (result : Expr) :
    Marked input names (.sequence e result) (.sequence e' result) := by
  refine of_open (congrArg (fun code => code ++ ", " ++ result.code) marked.code) rfl rfl rfl ?_
  change e'.seals + result.seals = e.seals + result.seals + _
  rw [marked.seals, Nat.add_right_comm]

theorem declare (type label : String) (marked : Marked input names e e') :
    Marked input names (.declare type label e) (.declare type label e') :=
  of_open (congrArg (fun code => type ++ " " ++ label ++ " = " ++ code) marked.code) rfl rfl rfl
    marked.seals

theorem steps (marked : AllMarked input names list list') : Marked input names (.steps list) (.steps list') :=
  of_open (congrArg (fun code => "(\x7b " ++ code ++ "\x7d)") marked.stepped) rfl rfl rfl
    marked.sealsIn

/-- Parentheses are put around both or around none, since they go by the level. -/
theorem operand (marked : Marked input names e e') (context : Level) :
    Marked input names (e.operand context) (e'.operand context) := by
  unfold Expr.operand
  rw [marked.level]
  split
  · exact marked.group
  · exact marked

theorem rightOperand (marked : Marked input names e e') (context : Level) :
    Marked input names (e.rightOperand context) (e'.rightOperand context) := by
  unfold Expr.rightOperand
  rw [marked.level]
  split
  · exact marked.group
  · exact marked

end Marked

end Expr

def Line.seals : Line → Nat
  | run inner | openIf inner | openBranch inner | nextBranch inner | openWhile inner
  | openFor _ inner => inner.seals
  | guarded test action => test.seals + action.seals
  | reserve .. | comment _ | placeholder _ | openBlock | lastBranch | close | verbatim _ => 0

def Code.seals : Code → Nat
  | [] => 0
  | placed :: rest => placed.line.seals + seals rest

/-- Two lines that read the same, the second with as many seals more as the input is listed. -/
structure Line.Marked (input : String) (names : List String) (line line' : Line) : Prop where
  ended : line'.ended = line.ended
  seals : line'.seals = line.seals + names.count input

namespace Line.Marked

variable {input : String} {names : List String} {e e' : Expr}

theorem refl (line : Line) : Marked input [] line line := ⟨rfl, rfl⟩

variable (marked : Expr.Marked input names e e')

include marked

theorem run : Marked input names (.run e) (.run e') :=
  ⟨congrArg (fun code => code ++ ";" ++ "\n") marked.code, marked.seals⟩

theorem openIf : Marked input names (.openIf e) (.openIf e') :=
  ⟨congrArg (fun code => "if(" ++ code ++ ") \x7b" ++ "\n") marked.code, marked.seals⟩

theorem openBranch : Marked input names (.openBranch e) (.openBranch e') :=
  ⟨congrArg (fun code => "if (" ++ code ++ ") \x7b" ++ "\n") marked.code, marked.seals⟩

theorem nextBranch : Marked input names (.nextBranch e) (.nextBranch e') :=
  ⟨congrArg (fun code => "\x7d else if (" ++ code ++ ") \x7b" ++ "\n") marked.code, marked.seals⟩

theorem openWhile : Marked input names (.openWhile e) (.openWhile e') :=
  ⟨congrArg (fun code => "while(" ++ code ++ ") \x7b" ++ "\n") marked.code, marked.seals⟩

theorem openFor (counter : String) : Marked input names (.openFor counter e) (.openFor counter e') :=
  ⟨congrArg (fun code => "for(int " ++ counter ++ " = 0; " ++ counter ++ " < " ++ code ++ "; " ++
    counter ++ "++) \x7b" ++ "\n") marked.code, marked.seals⟩

end Line.Marked

/-- Two pieces of code whose lines read the same at the same places, the second with as many seals more
as the input is listed. -/
inductive Code.Marked (input : String) : List String → Code → Code → Prop
  | nil : Marked input [] [] []
  | cons {names others : List String} {line line' : Line} {code code' : Code} (margin depth : Nat)
      (first : Line.Marked input names line line') (rest : Marked input others code code') :
      Marked input (names ++ others) (⟨margin, depth, line⟩ :: code) (⟨margin, depth, line'⟩ :: code')

/-- Two pieces of code that read the same, the second with as many seals more as the input is listed. -/
structure Code.Spliced (input : String) (names : List String) (code code' : Code) : Prop where
  text : code'.text = code.text
  seals : code'.seals = code.seals + names.count input

namespace Code.Marked

variable {input : String} {names others : List String} {a a' b b' : Code}

theorem text (marked : Marked input names a a') : Code.text a' = Code.text a := by
  induction marked with
  | nil => rfl
  | cons margin depth first rest ih =>
    rw [text_cons, text_cons, ih]
    unfold PlacedLine.text
    rw [first.ended]

theorem seals (marked : Marked input names a a') : Code.seals a' = Code.seals a + names.count input := by
  induction marked with
  | nil => rfl
  | @cons names others line line' code code' margin depth first rest ih =>
    change line'.seals + code'.seals = line.seals + code.seals + _
    rw [first.seals, ih, List.count_append]
    omega

theorem spliced (marked : Marked input names a a') : Code.Spliced input names a a' :=
  ⟨marked.text, marked.seals⟩

theorem refl (code : Code) : Marked input [] code code := by
  induction code with
  | nil => exact .nil
  | cons placed rest ih => exact .cons placed.margin placed.depth (.refl placed.line) ih

theorem append (first : Marked input names a a') (second : Marked input others b b') :
    Marked input (names ++ others) (a ++ b) (a' ++ b') := by
  induction first with
  | nil => exact second
  | cons margin depth head rest ih =>
    rw [List.append_assoc]
    exact .cons margin depth head ih

theorem followed (marked : Marked input names a a') (rest : Code) :
    Marked input names (a ++ rest) (a' ++ rest) := by
  rw [← List.append_nil names]
  exact marked.append (.refl rest)

theorem inset (marked : Marked input names a a') : Marked input names a.inset a'.inset := by
  induction marked with
  | nil => exact .nil
  | cons margin depth head rest ih => exact .cons (margin + 1) depth head ih

theorem line {line line' : Line} (marked : Line.Marked input names line line') :
    Marked input names (Code.line line) (Code.line line') := by
  rw [← List.append_nil names]
  exact .cons 0 0 marked .nil

theorem run {e e' : Expr} (marked : Expr.Marked input names e e') :
    Marked input names (Code.run e) (Code.run e') :=
  line (.run marked)

theorem runs {list list' : List Expr} (marked : Expr.AllMarked input names list list') :
    Marked input names (Code.ofLines (list.map .run)) (Code.ofLines (list'.map .run)) := by
  induction marked with
  | nil => exact .nil
  | cons first _ ih => exact .cons 0 0 (.run first) ih

variable {opening opening' : Line}

theorem braced (marked : Line.Marked input names opening opening')
    (body : Code) : Marked input names (Code.braced opening body) (Code.braced opening' body) :=
  ((line marked).followed body.indent).followed (Code.line .close)

theorem framed (head : Line.Marked input names opening opening') (body : Marked input others a a') :
    Marked input (names ++ others) (Code.framed opening a) (Code.framed opening' a') :=
  ((line head).append body.inset).followed (Code.line .close)

end Code.Marked

end FlipperBlocks.C
