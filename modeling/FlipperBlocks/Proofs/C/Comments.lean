import FlipperBlocks.Proofs.C.Code
import FlipperBlocks.Proofs.C.OneRow

/-! Code without comments, and comments that end with their line.

Comments are tokens of their own, so that a text in which a scanner finds none of them has no comment
outside of its literals. -/
namespace FlipperBlocks.C

namespace Expr

def Uncommented (e : Expr) : Prop := Token.comment ∉ e.tokens

section

variable (e left right : Expr) (list : List Expr)

private theorem comment_not_mem_numberTokens (digits : List Char) : Token.comment ∉ numberTokens digits := by
  unfold numberTokens
  split <;> simp

theorem comment_not_mem_typeTokens (type : String) : Token.comment ∉ typeTokens type := by
  unfold typeTokens
  split <;> simp

private theorem comment_mem_listTokens :
    Token.comment ∈ listTokens list ↔ ∃ e ∈ list, Token.comment ∈ e.tokens := by
  induction list with
  | nil => simp [listTokens]
  | cons first rest ih =>
    cases rest with
    | nil => simp [listTokens]
    | cons second rest => simp [listTokens, ih]

private theorem comment_mem_stepTokens :
    Token.comment ∈ stepTokens list ↔ ∃ e ∈ list, Token.comment ∈ e.tokens := by
  induction list with
  | nil => simp [stepTokens]
  | cons first rest ih => simp [stepTokens, ih]

@[simp] theorem uncommented_number (digits : String) : (number digits).Uncommented :=
  comment_not_mem_numberTokens digits.toList

@[simp] theorem uncommented_quoted (contents : String) : (quoted contents).Uncommented := by
  simp [Uncommented, tokens]

@[simp] theorem uncommented_truth (value : Bool) : (truth value).Uncommented := by
  cases value <;> simp [Uncommented, tokens]

@[simp] theorem uncommented_nul : nul.Uncommented := by simp [Uncommented, tokens]

@[simp] theorem uncommented_name (text : String) : (name text).Uncommented := by simp [Uncommented, tokens]

@[simp] theorem uncommented_member (object field : String) : (member object field).Uncommented := by
  simp [Uncommented, tokens]

@[simp] theorem uncommented_unary (op : UnaryOp) : (unary op e).Uncommented ↔ e.Uncommented := by
  simp [Uncommented, tokens]

@[simp] theorem uncommented_binary (op : BinaryOp) :
    (binary op left right).Uncommented ↔ left.Uncommented ∧ right.Uncommented := by
  simp [Uncommented, tokens]

@[simp] theorem uncommented_conditional : (conditional e left right).Uncommented ↔
      e.Uncommented ∧ left.Uncommented ∧ right.Uncommented := by
  simp [Uncommented, tokens]

@[simp] theorem uncommented_group : (group e).Uncommented ↔ e.Uncommented := by simp [Uncommented, tokens]

@[simp] theorem uncommented_call (function : String) :
    (call function list).Uncommented ↔ ∀ e ∈ list, e.Uncommented := by
  simp [Uncommented, tokens, comment_mem_listTokens]

@[simp] theorem uncommented_cast (type : String) : (cast type e).Uncommented ↔ e.Uncommented := by
  simp [Uncommented, tokens, comment_not_mem_typeTokens]

@[simp] theorem uncommented_index (array : String) : (index array e).Uncommented ↔ e.Uncommented := by
  simp [Uncommented, tokens]

@[simp] theorem uncommented_assign (op : AssignOp) :
    (assign op left right).Uncommented ↔ left.Uncommented ∧ right.Uncommented := by
  simp [Uncommented, tokens]

@[simp] theorem uncommented_increment : (increment e).Uncommented ↔ e.Uncommented := by
  simp [Uncommented, tokens]

@[simp] theorem uncommented_sequence :
    (sequence left right).Uncommented ↔ left.Uncommented ∧ right.Uncommented := by
  simp [Uncommented, tokens]

@[simp] theorem uncommented_declare (type label : String) :
    (declare type label e).Uncommented ↔ e.Uncommented := by
  simp [Uncommented, tokens, comment_not_mem_typeTokens]

@[simp] theorem uncommented_steps : (steps list).Uncommented ↔ ∀ e ∈ list, e.Uncommented := by
  simp [Uncommented, tokens, comment_mem_stepTokens]

@[simp] theorem uncommented_sizeOf : (sizeOf e).Uncommented ↔ e.Uncommented := by simp [sizeOf]

end

end Expr

namespace Code

def Uncommented (code : Code) : Prop := Token.comment ∉ code.tokens

section

variable {a b : Code} {e test : Expr}

@[simp] theorem uncommented_nil : Uncommented [] := by simp [Uncommented]

@[simp] theorem uncommented_append : Uncommented (a ++ b) ↔ a.Uncommented ∧ b.Uncommented := by
  simp [Uncommented]

@[simp] theorem uncommented_indent : Uncommented (indent a) ↔ a.Uncommented := by simp [Uncommented]

@[simp] theorem uncommented_inset : Uncommented (inset a) ↔ a.Uncommented := by simp [Uncommented]

@[simp] theorem uncommented_line_run : (Code.line (.run e)).Uncommented ↔ e.Uncommented := by
  simp [Uncommented, Line.tokens, Expr.Uncommented]

@[simp] theorem uncommented_guarded :
    (Code.line (.guarded test e)).Uncommented ↔ test.Uncommented ∧ e.Uncommented := by
  simp [Uncommented, Line.tokens, Expr.Uncommented]

@[simp] theorem uncommented_reserve (type name : String) : (Code.line (.reserve type name)).Uncommented := by
  simp [Uncommented, Line.tokens, Expr.comment_not_mem_typeTokens]

@[simp] theorem uncommented_openBlock : (Code.line .openBlock).Uncommented := by
  simp [Uncommented, Line.tokens]

@[simp] theorem uncommented_openIf : (Code.line (.openIf e)).Uncommented ↔ e.Uncommented := by
  simp [Uncommented, Line.tokens, Line.testTokens, Expr.Uncommented]

@[simp] theorem uncommented_openBranch : (Code.line (.openBranch e)).Uncommented ↔ e.Uncommented := by
  simp [Uncommented, Line.tokens, Line.testTokens, Expr.Uncommented]

@[simp] theorem uncommented_nextBranch : (Code.line (.nextBranch e)).Uncommented ↔ e.Uncommented := by
  simp [Uncommented, Line.tokens, Line.testTokens, Expr.Uncommented]

@[simp] theorem uncommented_lastBranch : (Code.line .lastBranch).Uncommented := by
  simp [Uncommented, Line.tokens]

@[simp] theorem uncommented_openWhile : (Code.line (.openWhile e)).Uncommented ↔ e.Uncommented := by
  simp [Uncommented, Line.tokens, Line.testTokens, Expr.Uncommented]

@[simp] theorem uncommented_openFor (counter : String) :
    (Code.line (.openFor counter e)).Uncommented ↔ e.Uncommented := by
  simp [Uncommented, Line.tokens, Expr.Uncommented]

@[simp] theorem uncommented_close : (Code.line .close).Uncommented := by simp [Uncommented, Line.tokens]

end

end Code

/-! Whole lines. -/

/-- A line with no text of its own. A backslash would join the row after a comment to it. -/
@[simp] def Line.Composed : Line → Prop
  | verbatim _ => False
  | comment text => text.toList.getLast? ≠ some '\\'
  | _ => True

namespace Line

variable {front back : String}

theorem composed_comment (plain : back.toList.getLast?.any (· != '\\') = true) :
    (comment (front ++ back)).Composed := by
  intro last
  rw [String.toList_append, List.getLast?_append] at last
  cases found : back.toList.getLast? with
  | none => simp [found] at plain
  | some c => simp_all

theorem composed_naming (identifier : Identifier.isIdentifier back = true) :
    (comment (front ++ back)).Composed := by
  have word := (Identifier.split identifier).1
  apply composed_comment
  cases found : back.toList.getLast? with
  | none => simp [List.getLast?_eq_none_iff.1 found, Scan.isWord] at word
  | some c =>
    have other : c ≠ '\\' := by
      rintro rfl
      exact not_mem_word word (by decide) (List.mem_of_getLast? found)
    simpa using other

end Line

namespace Code

variable {a b : Code} {line : Line}

def Composed (code : Code) : Prop := ∀ placed ∈ code, placed.line.Composed

@[simp] theorem composed_nil : Composed [] := List.forall_mem_nil _

@[simp] theorem composed_append : (a ++ b).Composed ↔ a.Composed ∧ b.Composed := List.forall_mem_append

@[simp] theorem composed_line : (Code.line line).Composed ↔ line.Composed := List.forall_mem_singleton

@[simp] theorem composed_indent : a.indent.Composed ↔ a.Composed := by simp [Composed, indent]

@[simp] theorem composed_inset : a.inset.Composed ↔ a.Composed := by simp [Composed, inset]

end Code

end FlipperBlocks.C
