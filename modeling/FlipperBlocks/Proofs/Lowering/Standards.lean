import FlipperBlocks.Proofs.C.Comments
import FlipperBlocks.Proofs.C.PlainLines
import FlipperBlocks.Proofs.Lowering.Effects
import Mathlib.Tactic.Tauto

/-! Standards for code.

A standard is about the parts of a piece of code: the atoms in it, what is done with storage, and comments. So a piece of
code meets it if the pieces that it is put together from do. -/
namespace FlipperBlocks.C

/-- What is asked of the atoms of code and of what it does with storage, and whether it must be without comments. -/
structure Standard where
  atom : Atom → Prop
  use : Use → Prop
  clear : Prop

variable {standard : Standard}

namespace Expr

structure Meets (standard : Standard) (e : Expr) : Prop where
  atoms : e.Holds standard.atom
  uses : e.Uses standard.use
  clear : standard.clear → e.Uncommented

variable {e left right : Expr} {list : List Expr}

theorem meets_iff : e.Meets standard ↔
    e.Holds standard.atom ∧ e.Uses standard.use ∧ (standard.clear → e.Uncommented) :=
  ⟨fun meets => ⟨meets.1, meets.2, meets.3⟩, fun all => ⟨all.1, all.2.1, all.2.2⟩⟩

@[simp] theorem isPlace_name (text : String) : (name text).isPlace = true := rfl

@[simp] theorem meets_number {digits : String} :
    (number digits).Meets standard ↔ standard.atom (.number digits) := by
  simp [meets_iff, Holds]

@[simp] theorem meets_ofNat {n : Nat} : (ofNat n).Meets standard ↔ standard.atom (.number (toString n)) :=
  meets_number

@[simp] theorem meets_quoted (contents : String) : (quoted contents).Meets standard := by
  simp [meets_iff, Holds]

@[simp] theorem meets_truth (value : Bool) : (truth value).Meets standard := by simp [meets_iff, Holds]

@[simp] theorem meets_nul : nul.Meets standard := by simp [meets_iff, Holds]

variable {text type function : String} {context : Level}

@[simp] theorem meets_name :
    (name text).Meets standard ↔ standard.atom (.name text) ∧ standard.use (.read text) := by
  simp [meets_iff, Holds]

@[simp] theorem meets_member {object field : String} :
    (member object field).Meets standard ↔ standard.atom (.member object field) ∧ standard.use (.read field) := by
  simp [meets_iff, Holds]

@[simp] theorem meets_binary {op : BinaryOp} :
    (binary op left right).Meets standard ↔ left.Meets standard ∧ right.Meets standard := by
  simp only [meets_iff, Holds, uses_binary, uncommented_binary]
  tauto

@[simp] theorem meets_sequence :
    (sequence left right).Meets standard ↔ left.Meets standard ∧ right.Meets standard := by
  simp only [meets_iff, Holds, uses_sequence, uncommented_sequence]
  tauto

@[simp] theorem meets_conditional : (conditional e left right).Meets standard ↔
    e.Meets standard ∧ left.Meets standard ∧ right.Meets standard := by
  simp only [meets_iff, Holds, uses_conditional, uncommented_conditional]
  tauto

@[simp] theorem meets_unary {op : UnaryOp} :
    (unary op e).Meets standard ↔ (op = .address → e.isPlace = true) ∧ e.Meets standard := by
  simp only [meets_iff, Holds, uses_unary, uncommented_unary]
  tauto

@[simp] theorem meets_group : e.group.Meets standard ↔ e.Meets standard := by simp [meets_iff, Holds]

@[simp] theorem meets_cast :
    (cast type e).Meets standard ↔ standard.atom (.type type) ∧ e.Meets standard := by
  simp only [meets_iff, Holds, uses_cast, uncommented_cast]
  tauto

@[simp] theorem meets_castGroup :
    (e.castGroup type).Meets standard ↔ standard.atom (.type type) ∧ e.Meets standard := by
  rw [castGroup, meets_cast, meets_group]

@[simp] theorem meets_declare {label : String} : (declare type label e).Meets standard ↔
    standard.atom (.type type) ∧ standard.atom (.name label) ∧ e.Meets standard := by
  simp only [meets_iff, Holds, uses_declare, uncommented_declare]
  tauto

@[simp] theorem meets_increment : (increment e).Meets standard ↔ e.isPlace = true ∧ e.Meets standard := by
  simp only [meets_iff, Holds, uses_increment, uncommented_increment]
  tauto

@[simp] theorem meets_index {array : String} : (index array e).Meets standard ↔
    standard.atom (.name array) ∧ standard.use (.read array) ∧ e.Meets standard := by
  simp only [meets_iff, Holds, uses_index, uncommented_index]
  tauto

@[simp] theorem meets_remark (unclear : ¬ standard.clear) :
    (remark text e).Meets standard ↔ standard.atom (.remark text) ∧ e.Meets standard := by
  simp only [meets_iff, Holds, uses_remark]
  tauto

@[simp] theorem meets_operand : (e.operand context).Meets standard ↔ e.Meets standard := by
  unfold operand
  split <;> simp

@[simp] theorem meets_rightOperand : (e.rightOperand context).Meets standard ↔ e.Meets standard := by
  unfold rightOperand
  split <;> simp

theorem holdAll_iff {ok : Atom → Prop} : ∀ {list : List Expr}, HoldAll ok list ↔ ∀ e ∈ list, e.Holds ok
  | [] => by simp [HoldAll]
  | first :: rest => by rw [HoldAll, holdAll_iff, List.forall_mem_cons]

private theorem forall_meets : (∀ e ∈ list, e.Meets standard) ↔ (∀ e ∈ list, e.Holds standard.atom) ∧
    (∀ e ∈ list, e.Uses standard.use) ∧ (standard.clear → ∀ e ∈ list, e.Uncommented) := by
  simp only [meets_iff]
  exact ⟨fun all => ⟨fun e member => (all e member).1, fun e member => (all e member).2.1,
    fun clear e member => (all e member).2.2 clear⟩,
    fun all e member => ⟨all.1 e member, all.2.1 e member, fun clear => all.2.2 clear e member⟩⟩

@[simp] theorem meets_steps : (steps list).Meets standard ↔ ∀ e ∈ list, e.Meets standard := by
  rw [meets_iff, Holds, uses_steps, uncommented_steps, holdAll_iff, forall_meets]

@[simp] theorem meets_call (plain : unreadArgument? function = none) : (call function list).Meets standard ↔
      standard.atom (.call function) ∧ ∀ e ∈ list, e.Meets standard := by
  rw [meets_iff, Holds, uses_call_of_plain plain, uncommented_call, holdAll_iff, forall_meets, and_assoc]

theorem meets_call_of_lenient (lenient : ∀ use, standard.use use) :
    (call function list).Meets standard ↔ standard.atom (.call function) ∧ ∀ e ∈ list, e.Meets standard := by
  have any (e : Expr) : e.Uses standard.use := fun use _ => lenient use
  rw [meets_iff, Holds, uncommented_call, holdAll_iff, forall_meets]
  simp [any, and_assoc]

/-- A call that leaves one of its arguments unread, and may fill it. -/
theorem meets_call_at {position : Nat} (fills : filledArgument? function = some position) :
    (call function list).Meets standard ↔ standard.atom (.call function) ∧
      (∀ e ∈ list, e.Holds standard.atom ∧ (standard.clear → e.Uncommented)) ∧
      (∀ name, (call function list).destination? = some name →
        standard.use (.fill name (call function list).code)) ∧
      ∀ e ∈ list.eraseIdx position, e.Uses (Use.Besides (call function list).destination? standard.use) := by
  rw [meets_iff, Holds, uses_call_at fills, uncommented_call, holdAll_iff]
  simp only [forall_and]
  tauto

@[simp] theorem meets_sizeOf : (name text).sizeOf.Meets standard ↔
    standard.atom (.call "sizeof") ∧ standard.atom (.name text) ∧ standard.use (.size text) := by
  have holds : (name text).sizeOf.Holds standard.atom ↔
      standard.atom (.call "sizeof") ∧ standard.atom (.name text) := by
    simp [sizeOf, Holds, HoldAll]
  simp [meets_iff, holds, storage?, and_assoc]

structure MeetsAsPlace (standard : Standard) (e : Expr) : Prop where
  atoms : e.Holds standard.atom
  uses : ∀ use ∈ e.placeUses, standard.use use
  clear : standard.clear → e.Uncommented

theorem Meets.place (meets : e.Meets standard) : e.MeetsAsPlace standard :=
  ⟨meets.atoms, meets.uses.place, meets.clear⟩

@[simp] theorem meetsAsPlace_name (ok : standard.atom (.name text)) : (name text).MeetsAsPlace standard :=
  ⟨ok, fun _ member => by simp [placeUses] at member, fun _ => uncommented_name text⟩

theorem meets_assign_set : (assign .set left right).Meets standard ↔ left.MeetsAsPlace standard ∧
    (∀ name, (assign .set left right).destination? = some name →
      standard.use (.fill name (assign .set left right).code)) ∧ right.Meets standard := by
  have split : left.MeetsAsPlace standard ↔ left.Holds standard.atom ∧
      (∀ use ∈ left.placeUses, standard.use use) ∧ (standard.clear → left.Uncommented) :=
    ⟨fun meets => ⟨meets.1, meets.2, meets.3⟩, fun all => ⟨all.1, all.2.1, all.2.2⟩⟩
  simp only [meets_iff, split, Holds, uses_assign_set, uncommented_assign]
  tauto

@[simp] theorem meets_assign_add :
    (assign .add left right).Meets standard ↔ left.Meets standard ∧ right.Meets standard := by
  simp only [meets_iff, Holds, uses_assign_add, uncommented_assign]
  tauto

@[simp] theorem meets_assign_shiftRight :
    (assign .shiftRight left right).Meets standard ↔ left.Meets standard ∧ right.Meets standard := by
  simp only [meets_iff, Holds, uses_assign_shiftRight, uncommented_assign]
  tauto

end Expr

namespace Code

structure Meets (standard : Standard) (code : Code) : Prop where
  atoms : code.Holds standard.atom
  uses : code.Uses standard.use
  clear : standard.clear → code.Uncommented
  composed : code.Composed

variable {code more : Code} {line : Line} {lines : List Line} {e test : Expr}

theorem meets_iff : code.Meets standard ↔
    code.Holds standard.atom ∧ code.Uses standard.use ∧ (standard.clear → code.Uncommented) ∧ code.Composed :=
  ⟨fun meets => ⟨meets.1, meets.2, meets.3, meets.4⟩, fun all => ⟨all.1, all.2.1, all.2.2.1, all.2.2.2⟩⟩

@[simp] theorem meets_nil : Code.Meets standard [] := by simp [meets_iff]

@[simp] theorem meets_append :
    Code.Meets standard (code ++ more) ↔ code.Meets standard ∧ more.Meets standard := by
  simp only [meets_iff, holds_append, uses_append, uncommented_append, composed_append]
  tauto

@[simp] theorem meets_indent : code.indent.Meets standard ↔ code.Meets standard := by simp [meets_iff]

@[simp] theorem meets_inset : code.inset.Meets standard ↔ code.Meets standard := by simp [meets_iff]

theorem ofLines_cons (line : Line) (rest : List Line) :
    Code.ofLines (line :: rest) = Code.line line ++ Code.ofLines rest := rfl

@[simp] theorem meets_ofLines :
    (Code.ofLines lines).Meets standard ↔ ∀ line ∈ lines, (Code.line line).Meets standard := by
  induction lines with
  | nil => simp [Code.ofLines]
  | cons first rest ih => rw [ofLines_cons, meets_append, ih, List.forall_mem_cons]

@[simp] theorem meets_line_run : (Code.line (.run e)).Meets standard ↔ e.Meets standard := by
  simp [meets_iff, Expr.meets_iff, Line.Holds]

@[simp] theorem meets_run : (Code.run e).Meets standard ↔ e.Meets standard := meets_line_run

@[simp] theorem meets_guarded :
    (Code.line (.guarded test e)).Meets standard ↔ test.Meets standard ∧ e.Meets standard := by
  simp only [meets_iff, Expr.meets_iff, holds_line, Line.Holds, uses_line, Line.uses_guarded, uncommented_guarded,
    composed_line, Line.Composed]
  tauto

@[simp] theorem meets_reserve {type name : String} : (Code.line (.reserve type name)).Meets standard ↔
    standard.atom (.type type) ∧ standard.atom (.name name) := by
  simp [meets_iff, Line.Holds]

@[simp] theorem meets_openBlock : (Code.line .openBlock).Meets standard := by simp [meets_iff, Line.Holds]

@[simp] theorem meets_lastBranch : (Code.line .lastBranch).Meets standard := by simp [meets_iff, Line.Holds]

@[simp] theorem meets_close : (Code.line .close).Meets standard := by simp [meets_iff, Line.Holds]

@[simp] theorem meets_openIf : (Code.line (.openIf e)).Meets standard ↔ e.Meets standard := by
  simp [meets_iff, Expr.meets_iff, Line.Holds]

@[simp] theorem meets_openBranch : (Code.line (.openBranch e)).Meets standard ↔ e.Meets standard := by
  simp [meets_iff, Expr.meets_iff, Line.Holds]

@[simp] theorem meets_nextBranch : (Code.line (.nextBranch e)).Meets standard ↔ e.Meets standard := by
  simp [meets_iff, Expr.meets_iff, Line.Holds]

@[simp] theorem meets_openWhile : (Code.line (.openWhile e)).Meets standard ↔ e.Meets standard := by
  simp [meets_iff, Expr.meets_iff, Line.Holds]

@[simp] theorem meets_openFor {counter : String} : (Code.line (.openFor counter e)).Meets standard ↔
    standard.atom (.counter counter) ∧ e.Meets standard := by
  simp only [meets_iff, Expr.meets_iff, holds_line, Line.Holds, uses_line, Line.uses_openFor, uncommented_openFor,
    composed_line, Line.Composed]
  tauto

theorem meets_comment (unclear : ¬ standard.clear) {text : String} (composed : (Line.comment text).Composed) :
    (Code.line (.comment text)).Meets standard := by
  simp_all [meets_iff, Line.Holds]

@[simp] theorem meets_placeholder (unclear : ¬ standard.clear) (text : String) :
    (Code.line (.placeholder text)).Meets standard := by
  simp [meets_iff, Line.Holds, unclear]

@[simp] theorem meets_braced {opening : Line} : (Code.braced opening code).Meets standard ↔
    (Code.line opening).Meets standard ∧ code.Meets standard := by
  simp [Code.braced]

@[simp] theorem meets_framed {opening : Line} : (Code.framed opening code).Meets standard ↔
    (Code.line opening).Meets standard ∧ code.Meets standard := by
  simp [Code.framed]

end Code

end FlipperBlocks.C
