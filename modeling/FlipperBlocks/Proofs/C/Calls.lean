import FlipperBlocks.Proofs.C.Code

/-! The calls in a piece of code.

They are the functions of the call expressions in it, and the words of the language that have a
parenthesis right behind them. -/
namespace FlipperBlocks.C

namespace Expr

def calls (e : Expr) : List String := callsIn e.tokens

def callsOf (list : List Expr) : List String := list.flatMap calls

section

variable (e left right : Expr) (list : List Expr)

private theorem callsIn_numberTokens (digits : List Char) : callsIn (numberTokens digits) = [] := by
  unfold numberTokens
  split <;> rfl

private theorem callsIn_typeTokens (type : String) : callsIn (typeTokens type) = [] := by
  unfold typeTokens
  split <;> rfl

private theorem callsIn_listTokens : callsIn (listTokens list) = callsOf list := by
  induction list with
  | nil => rfl
  | cons first rest ih =>
    cases rest with
    | nil => simp [listTokens, callsOf, calls]
    | cons second rest =>
      simp only [listTokens, callsIn_append, callsIn_mark, ih]
      rfl

private theorem callsIn_stepTokens : callsIn (stepTokens list) = callsOf list := by
  induction list with
  | nil => rfl
  | cons first rest ih =>
    simp only [stepTokens, callsIn_append, callsIn_mark, ih]
    rfl

@[simp, grind norm] theorem callsOf_nil : callsOf [] = [] := rfl

@[simp, grind norm] theorem callsOf_cons : callsOf (e :: list) = e.calls ++ callsOf list := rfl

@[simp, grind norm] theorem callsOf_append (more : List Expr) :
    callsOf (list ++ more) = callsOf list ++ callsOf more := by
  simp [callsOf]

@[simp, grind norm] theorem calls_number (digits : String) : (number digits).calls = [] :=
  callsIn_numberTokens digits.toList

@[simp, grind norm] theorem calls_quoted (contents : String) : (quoted contents).calls = [] := rfl

@[simp, grind norm] theorem calls_truth (value : Bool) : (truth value).calls = [] := by cases value <;> rfl

@[simp, grind norm] theorem calls_nul : nul.calls = [] := rfl

@[simp, grind norm] theorem calls_name (text : String) : (name text).calls = [] := rfl

@[simp, grind norm] theorem calls_member (object field : String) : (member object field).calls = [] := rfl

@[simp, grind norm] theorem calls_unary (op : UnaryOp) : (unary op e).calls = e.calls := rfl

@[simp, grind norm] theorem calls_binary (op : BinaryOp) :
    (binary op left right).calls = left.calls ++ right.calls := by
  simp [calls, tokens]

@[simp, grind norm] theorem calls_conditional :
    (conditional e left right).calls = e.calls ++ (left.calls ++ right.calls) := by
  simp [calls, tokens]

@[simp, grind norm] theorem calls_group : e.group.calls = e.calls := by simp [calls, tokens]

@[simp, grind norm] theorem calls_call (function : String) :
    (call function list).calls = function :: callsOf list := by
  simp [calls, tokens, callsIn_listTokens]

@[simp, grind norm] theorem calls_cast (type : String) : (cast type e).calls = e.calls := by
  simp [calls, tokens, callsIn_typeTokens]

@[simp, grind norm] theorem calls_castGroup (type : String) : (e.castGroup type).calls = e.calls := by
  simp [castGroup]

@[simp, grind norm] theorem calls_sizeOf : e.sizeOf.calls = "sizeof" :: e.calls := by simp [sizeOf]

@[simp, grind norm] theorem calls_index (array : String) : (index array e).calls = e.calls := by
  simp [calls, tokens]

@[simp, grind norm] theorem calls_assign (op : AssignOp) :
    (assign op left right).calls = left.calls ++ right.calls := by
  simp [calls, tokens]

@[simp, grind norm] theorem calls_increment : (increment e).calls = e.calls := by simp [calls, tokens]

@[simp, grind norm] theorem calls_sequence : (sequence left right).calls = left.calls ++ right.calls := by
  simp [calls, tokens]

@[simp, grind norm] theorem calls_declare (type label : String) : (declare type label e).calls = e.calls := by
  simp [calls, tokens, callsIn_typeTokens]

@[simp, grind norm] theorem calls_steps : (steps list).calls = callsOf list := by
  simp [calls, tokens, callsIn_stepTokens]

@[simp, grind norm] theorem calls_remark (text : String) : (remark text e).calls = e.calls := rfl

@[simp, grind norm] theorem calls_operand (context : Level) : (e.operand context).calls = e.calls := by
  unfold operand
  split
  · exact calls_group e
  · rfl

@[simp, grind norm] theorem calls_rightOperand (context : Level) :
    (e.rightOperand context).calls = e.calls := by
  unfold rightOperand
  split
  · exact calls_group e
  · rfl

end

variable {ok : Atom → Prop}

mutual

theorem Holds.call : ∀ (e : Expr), e.Holds ok → ∀ function ∈ e.calls, ok (.call function)
  | number _, _, _, called | quoted _, _, _, called | truth _, _, _, called | nul, _, _, called
  | name _, _, _, called | member .., _, _, called => by simp at called
  | unary _ operand, holds, function, called => Holds.call operand holds.2 function called
  | binary _ left right, holds, function, called => by
    rw [calls_binary, List.mem_append] at called
    exact called.elim (Holds.call left holds.1 function) (Holds.call right holds.2 function)
  | conditional test yes no, holds, function, called => by
    rw [calls_conditional, List.mem_append, List.mem_append] at called
    rcases called with inTest | inYes | inNo
    · exact Holds.call test holds.1 function inTest
    · exact Holds.call yes holds.2.1 function inYes
    · exact Holds.call no holds.2.2 function inNo
  | group inner, holds, function, called => by
    rw [calls_group] at called
    exact Holds.call inner holds function called
  | Expr.call callee arguments, holds, function, called => by
    rw [calls_call, List.mem_cons] at called
    rcases called with same | inArguments
    · rw [same]
      exact holds.1
    · exact HoldAll.call arguments holds.2 function inArguments
  | cast _ operand, holds, function, called => by
    rw [calls_cast] at called
    exact Holds.call operand holds.2 function called
  | index _ position, holds, function, called => by
    rw [calls_index] at called
    exact Holds.call position holds.2 function called
  | assign _ place value, holds, function, called => by
    rw [calls_assign, List.mem_append] at called
    exact called.elim (Holds.call place holds.1 function) (Holds.call value holds.2 function)
  | increment place, holds, function, called => by
    rw [calls_increment] at called
    exact Holds.call place holds.2 function called
  | sequence first second, holds, function, called => by
    rw [calls_sequence, List.mem_append] at called
    exact called.elim (Holds.call first holds.1 function) (Holds.call second holds.2 function)
  | declare _ _ value, holds, function, called => by
    rw [calls_declare] at called
    exact Holds.call value holds.2.2 function called
  | steps list, holds, function, called => by
    rw [calls_steps] at called
    exact HoldAll.call list holds function called
  | remark _ inner, holds, function, called => Holds.call inner holds.2 function called
  | verbatim .., holds, _, _ => holds.elim

theorem HoldAll.call : ∀ (list : List Expr), HoldAll ok list → ∀ function ∈ callsOf list, ok (.call function)
  | [], _, _, called => by simp at called
  | first :: rest, holds, function, called => by
    rw [callsOf_cons, List.mem_append] at called
    rcases called with here | there
    · exact Holds.call first holds.1 function here
    · exact HoldAll.call rest holds.2 function there

end

end Expr

namespace Line

def calls (line : Line) : List String := callsIn line.tokens

def keywords : List String := ["if", "while", "for"]

@[simp, grind norm] theorem calls_run (action : Expr) : (run action).calls = action.calls := by
  simp [calls, tokens, Expr.calls]

@[simp, grind norm] theorem calls_guarded (test action : Expr) :
    (guarded test action).calls = "if" :: (test.calls ++ action.calls) := by
  have keyword : Token.call ['i', 'f'] = .call "if".toList := rfl
  simp [calls, tokens, Expr.calls, keyword]

@[simp, grind norm] theorem calls_reserve (type name : String) : (reserve type name).calls = [] := by
  simp [calls, tokens, Expr.callsIn_typeTokens]

@[simp, grind norm] theorem calls_comment (text : String) : (comment text).calls = [] := rfl

@[simp, grind norm] theorem calls_placeholder (kind : String) : (placeholder kind).calls = [] := rfl

@[simp, grind norm] theorem calls_openBlock : openBlock.calls = [] := rfl

@[simp, grind norm] theorem calls_openIf (test : Expr) : (openIf test).calls = "if" :: test.calls := by
  have keyword : Token.call ['i', 'f'] = .call "if".toList := rfl
  simp [calls, tokens, testTokens, Expr.calls, keyword]

@[simp, grind norm] theorem calls_openBranch (test : Expr) : (openBranch test).calls = test.calls := by
  simp [calls, tokens, testTokens, Expr.calls]

@[simp, grind norm] theorem calls_nextBranch (test : Expr) : (nextBranch test).calls = test.calls := by
  simp [calls, tokens, testTokens, Expr.calls]

@[simp, grind norm] theorem calls_lastBranch : lastBranch.calls = [] := rfl

@[simp, grind norm] theorem calls_openWhile (test : Expr) :
    (openWhile test).calls = "while" :: test.calls := by
  have keyword : Token.call ['w', 'h', 'i', 'l', 'e'] = .call "while".toList := rfl
  simp [calls, tokens, testTokens, Expr.calls, keyword]

@[simp, grind norm] theorem calls_openFor (counter : String) (bound : Expr) :
    (openFor counter bound).calls = "for" :: bound.calls := by
  have keyword : Token.call ['f', 'o', 'r'] = .call "for".toList := rfl
  simp [calls, tokens, Expr.calls, keyword]

@[simp, grind norm] theorem calls_close : close.calls = [] := rfl

theorem Holds.call {ok : Atom → Prop} {line : Line} (holds : line.Holds ok) {function : String}
    (called : function ∈ line.calls) : function ∈ keywords ∨ ok (.call function) := by
  cases line with
  | run action =>
    rw [calls_run] at called
    exact .inr (Expr.Holds.call action holds function called)
  | guarded test action =>
    rw [calls_guarded, List.mem_cons, List.mem_append] at called
    rcases called with keyword | inTest | inAction
    · exact .inl (by simp [keyword, keywords])
    · exact .inr (Expr.Holds.call test holds.1 function inTest)
    · exact .inr (Expr.Holds.call action holds.2 function inAction)
  | openIf test =>
    rw [calls_openIf, List.mem_cons] at called
    rcases called with keyword | inTest
    · exact .inl (by simp [keyword, keywords])
    · exact .inr (Expr.Holds.call test holds function inTest)
  | openBranch test =>
    rw [calls_openBranch] at called
    exact .inr (Expr.Holds.call test holds function called)
  | nextBranch test =>
    rw [calls_nextBranch] at called
    exact .inr (Expr.Holds.call test holds function called)
  | openWhile test =>
    rw [calls_openWhile, List.mem_cons] at called
    rcases called with keyword | inTest
    · exact .inl (by simp [keyword, keywords])
    · exact .inr (Expr.Holds.call test holds function inTest)
  | openFor counter bound =>
    rw [calls_openFor, List.mem_cons] at called
    rcases called with keyword | inBound
    · exact .inl (by simp [keyword, keywords])
    · exact .inr (Expr.Holds.call bound holds.2 function inBound)
  | verbatim _ => exact holds.elim
  | _ => simp at called

theorem calls_eq_of_text {line other : Line} (spelled : line.Holds Atom.Spelled)
    (otherSpelled : other.Holds Atom.Spelled) (same : other.text = line.text) : other.calls = line.calls := by
  have first := (Line.rows spelled).scan
  have second := (Line.rows otherSpelled).scan
  rw [Line.ended_eq spelled] at first
  rw [Line.ended_eq otherSpelled, same, first] at second
  injection second with tokens
  rw [calls, calls, tokens]

end Line

namespace Code

def calls (code : Code) : List String := callsIn code.tokens

variable (a b code : Code) (line : Line)

@[simp, grind norm] theorem calls_nil : calls [] = [] := rfl

@[simp, grind norm] theorem calls_append : calls (a ++ b) = calls a ++ calls b := by simp [calls]

@[simp, grind norm] theorem calls_line : calls (Code.line line) = line.calls := by simp [calls, Line.calls]

@[simp, grind norm] theorem calls_run (action : Expr) : calls (Code.run action) = action.calls := by
  simp [Code.run]

@[simp, grind norm] theorem calls_ofLines (lines : List Line) :
    calls (ofLines lines) = lines.flatMap Line.calls := by
  induction lines with
  | nil => rfl
  | cons line lines ih =>
    have split : ofLines (line :: lines) = Code.line line ++ ofLines lines := rfl
    rw [split, calls_append, calls_line, ih]
    rfl

@[simp, grind norm] theorem calls_indent : calls code.indent = calls code := by simp [calls]

@[simp, grind norm] theorem calls_inset : calls code.inset = calls code := by simp [calls]

@[simp, grind norm] theorem calls_braced : calls (braced line code) = line.calls ++ code.calls := by
  simp [braced]

@[simp, grind norm] theorem calls_framed : calls (framed line code) = line.calls ++ code.calls := by
  simp [framed]

theorem mem_calls {function : String} :
    function ∈ calls code ↔ ∃ placed ∈ code, function ∈ placed.line.calls := by
  induction code with
  | nil => simp
  | cons placed rest ih =>
    have split : calls (placed :: rest) = placed.line.calls ++ calls rest := by
      simp [calls, tokens, Line.calls]
    rw [split, List.mem_append, ih]
    simp

theorem Holds.call {ok : Atom → Prop} {code : Code} (holds : code.Holds ok) {function : String}
    (called : function ∈ code.calls) : function ∈ Line.keywords ∨ ok (.call function) := by
  rw [mem_calls] at called
  obtain ⟨placed, member, there⟩ := called
  exact Line.Holds.call (holds placed member) there

end Code

end FlipperBlocks.C
