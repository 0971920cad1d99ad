import FlipperBlocks.Lowering.Pins
import FlipperBlocks.Proofs.Draft.Kept
import Mathlib.Data.List.InsertIdx

/-! What code fills, and what it reads.

A few functions fill storage that is handed to them, and the readings of a sensor are assigned to it. All
other storage that code names is read, unless only its size is asked for. The size of an array also bounds
what is read from it or handed on. -/
namespace FlipperBlocks.C

/-- One access to storage, by its name. -/
inductive Use where
  | read (name : String)
  /-- The storage is filled by an action of that text. -/
  | fill (name text : String)
  /-- The size of the storage is asked for, and not in order to fill it. -/
  | size (name : String)
  deriving DecidableEq

/-- The use is as asked for, or it is the size of the storage that is being filled. -/
def Use.Besides (own : Option String) (ok : Use → Prop) (use : Use) : Prop :=
  ok use ∨ ∃ name ∈ own, use = .size name

@[simp] theorem Use.besides_own {ok : Use → Prop} (name : String) : Use.Besides (some name) ok (.size name) :=
  .inr ⟨name, rfl, rfl⟩

def besides (own : Option String) (uses : List Use) : List Use :=
  uses.filter fun use => own.all fun name => use ≠ .size name

def filledArgument? : String → Option Nat
  | "snprintf" | "strncpy" | "storage_simple_read" => some 0
  | "kb_i2c_read_reg8" | "kb_i2c_read_reg16" | "kb_i2c_read_mem_bytes" => some 3
  | _ => none

/-- The argument that a function does not read: the one that it fills or only measures. -/
def unreadArgument? (function : String) : Option Nat :=
  if function = "sizeof" then some 0 else filledArgument? function

def sensors : List String := [Lowering.temperature.reader, Lowering.humidity.reader]

def without {α : Type} (position : Option Nat) (list : List α) : List α := position.elim list list.eraseIdx

namespace Expr

def storage? : Expr → Option String
  | name text => some text
  | member _ field => some field
  | unary .address (member _ field) => some field
  | _ => none

def destination? : Expr → Option String
  | call function arguments =>
    (filledArgument? function).bind fun position => arguments[position]?.bind storage?
  | assign .set place (call function _) => if function ∈ sensors then place.storage? else none
  | _ => none

def filled (e : Expr) : List Use := e.destination?.toList.map fun name => .fill name e.code

def measured : Expr → List Use
  | call "sizeof" [object] => object.storage?.toList.map .size
  | _ => []

mutual

def uses : Expr → List Use
  -- Lowering leaves no verbatim text, so that it may count as using nothing.
  | number _ | quoted _ | truth _ | nul | verbatim .. => []
  | name text => [.read text]
  | member _ field => [.read field]
  | binary _ left right | sequence left right => left.uses ++ right.uses
  | conditional test yes no => test.uses ++ (yes.uses ++ no.uses)
  | unary _ inner | group inner | cast _ inner | increment inner | declare _ _ inner
  | remark _ inner => inner.uses
  | call function arguments =>
    (call function arguments).filled ++ ((call function arguments).measured ++
      besides (call function arguments).destination?
        (without (unreadArgument? function) (usesOf arguments)).flatten)
  | index array position => .read array :: position.uses
  | assign .set place value => (assign .set place value).filled ++ (place.placeUses ++ value.uses)
  | assign _ place value => place.uses ++ value.uses
  | steps list => (usesOf list).flatten

def placeUses : Expr → List Use
  | index array position => besides (some array) position.uses
  | _ => []

def usesOf : List Expr → List (List Use)
  | [] => []
  | first :: rest => first.uses :: usesOf rest

end

def Uses (ok : Use → Prop) (e : Expr) : Prop := ∀ use ∈ e.uses, ok use

section

variable {ok better : Use → Prop} {e left right : Expr} {list : List Expr}

theorem Uses.imp (uses : e.Uses ok) (imp : ∀ use, ok use → better use) : e.Uses better :=
  fun use member => imp use (uses use member)

@[simp] theorem uses_number (digits : String) : (number digits).Uses ok := nofun

@[simp] theorem uses_quoted (contents : String) : (quoted contents).Uses ok := nofun

@[simp] theorem uses_truth (value : Bool) : (truth value).Uses ok := nofun

@[simp] theorem uses_nul : nul.Uses ok := nofun

@[simp] theorem uses_ofNat (n : Nat) : (ofNat n).Uses ok := nofun

variable {text type array function : String} {position : Nat}

@[simp] theorem uses_name : (name text).Uses ok ↔ ok (.read text) := List.forall_mem_singleton

@[simp] theorem uses_member {object field : String} : (member object field).Uses ok ↔ ok (.read field) :=
  List.forall_mem_singleton

@[simp] theorem uses_unary {op : UnaryOp} : (unary op e).Uses ok ↔ e.Uses ok := Iff.rfl

@[simp] theorem uses_binary {op : BinaryOp} : (binary op left right).Uses ok ↔ left.Uses ok ∧ right.Uses ok :=
  List.forall_mem_append

@[simp] theorem uses_sequence : (sequence left right).Uses ok ↔ left.Uses ok ∧ right.Uses ok :=
  List.forall_mem_append

@[simp] theorem uses_conditional :
    (conditional e left right).Uses ok ↔ e.Uses ok ∧ left.Uses ok ∧ right.Uses ok :=
  List.forall_mem_append.trans (and_congr_right fun _ => List.forall_mem_append)

@[simp] theorem uses_group : e.group.Uses ok ↔ e.Uses ok := Iff.rfl

@[simp] theorem uses_cast : (cast type e).Uses ok ↔ e.Uses ok := Iff.rfl

@[simp] theorem uses_castGroup : (e.castGroup type).Uses ok ↔ e.Uses ok := Iff.rfl

@[simp] theorem uses_declare {label : String} : (declare type label e).Uses ok ↔ e.Uses ok := Iff.rfl

@[simp] theorem uses_increment : (increment e).Uses ok ↔ e.Uses ok := Iff.rfl

@[simp] theorem uses_remark : (remark text e).Uses ok ↔ e.Uses ok := Iff.rfl

@[simp] theorem uses_index : (index array e).Uses ok ↔ ok (.read array) ∧ e.Uses ok := List.forall_mem_cons

private theorem usesOf_eq_map : ∀ list : List Expr, usesOf list = list.map uses
  | [] => rfl
  | first :: rest => congrArg (first.uses :: ·) (usesOf_eq_map rest)

@[simp] theorem uses_steps : (steps list).Uses ok ↔ ∀ e ∈ list, e.Uses ok := by
  change (∀ use ∈ (usesOf list).flatten, ok use) ↔ _
  rw [usesOf_eq_map, List.forall_mem_flatten, List.forall_mem_map]
  rfl

private theorem uses_filled : (∀ use ∈ e.filled, ok use) ↔
    ∀ name, e.destination? = some name → ok (.fill name e.code) := by
  simp [filled]

private theorem forall_besides {own : Option String} {uses : List Use} :
    (∀ use ∈ besides own uses, ok use) ↔ ∀ use ∈ uses, Use.Besides own ok use := by
  have kept (use : Use) : (own.all fun name => use ≠ .size name) = true ↔ ¬ ∃ name ∈ own, use = .size name := by
    cases own <;> simp
  simp only [besides, List.mem_filter, kept, Use.Besides, and_imp]
  exact forall₂_congr fun _ _ => or_iff_not_imp_right.symm

private theorem uses_call : (call function list).Uses ok ↔
    (∀ name, (call function list).destination? = some name → ok (.fill name (call function list).code)) ∧
    (∀ use ∈ (call function list).measured, ok use) ∧
    ∀ e ∈ without (unreadArgument? function) list, e.Uses (Use.Besides (call function list).destination? ok) := by
  have erased : without (unreadArgument? function) (list.map uses) =
      (without (unreadArgument? function) list).map uses := by
    unfold without
    cases unreadArgument? function with
    | none => rfl
    | some position => exact List.eraseIdx_map ..
  change (∀ use ∈ (call function list).filled ++ ((call function list).measured ++
    besides _ (without (unreadArgument? function) (usesOf list)).flatten), ok use) ↔ _
  rw [usesOf_eq_map, erased, List.forall_mem_append, List.forall_mem_append, uses_filled, forall_besides,
    List.forall_mem_flatten, List.forall_mem_map]
  rfl

private theorem measured_call (other : function ≠ "sizeof") : (call function list).measured = [] := by
  unfold measured
  split
  · rename_i same
    exact absurd (Expr.call.inj same).1 other
  · rfl

theorem uses_call_at (fills : filledArgument? function = some position) : (call function list).Uses ok ↔
    (∀ name, (call function list).destination? = some name → ok (.fill name (call function list).code)) ∧
    ∀ e ∈ list.eraseIdx position, e.Uses (Use.Besides (call function list).destination? ok) := by
  have other : function ≠ "sizeof" := by
    rintro rfl
    contradiction
  rw [uses_call, measured_call other, unreadArgument?, if_neg other, fills]
  simp [without]

theorem uses_call_into {name : String} (fills : filledArgument? function = some position)
    (into : (call function list).destination? = some name) : (call function list).Uses ok ↔
    ok (.fill name (call function list).code) ∧
      ∀ e ∈ list.eraseIdx position, e.Uses (Use.Besides (some name) ok) := by
  rw [uses_call_at fills, into]
  simp

@[simp] theorem uses_call_of_plain (plain : unreadArgument? function = none) :
    (call function list).Uses ok ↔ ∀ e ∈ list, e.Uses ok := by
  have other : function ≠ "sizeof" := by
    rintro rfl
    contradiction
  have nothing : filledArgument? function = none := by rwa [unreadArgument?, if_neg other] at plain
  rw [uses_call, measured_call other, plain, destination?, nothing]
  simp [without, Uses, Use.Besides]

@[simp] theorem uses_sizeOf : e.sizeOf.Uses ok ↔ ∀ name, e.storage? = some name → ok (.size name) := by
  have same : (call "sizeof" [e]).measured = e.storage?.toList.map .size := rfl
  have nothing : (call "sizeof" [e]).destination? = none := rfl
  have unread : unreadArgument? "sizeof" = some 0 := rfl
  rw [sizeOf, uses_call, same, nothing, unread]
  simp [without]

theorem uses_assign_set : (assign .set left right).Uses ok ↔
    (∀ name, (assign .set left right).destination? = some name →
      ok (.fill name (assign .set left right).code)) ∧ (∀ use ∈ left.placeUses, ok use) ∧ right.Uses ok := by
  change (∀ use ∈ (assign .set left right).filled ++ (left.placeUses ++ right.uses), ok use) ↔ _
  rw [List.forall_mem_append, List.forall_mem_append, uses_filled]
  rfl

theorem storage?_of_assign {name : String} (found : (assign .set left right).destination? = some name) :
    left.storage? = some name := by
  unfold destination? at found
  split at found
  · contradiction
  · rename_i same
    injection same with _ place _
    split at found
    · rw [place]
      exact found
    · contradiction
  · contradiction

theorem uses_place_index :
    (∀ use ∈ (index array e).placeUses, ok use) ↔ e.Uses (Use.Besides (some array) ok) :=
  forall_besides

theorem Uses.place (uses : e.Uses ok) : ∀ use ∈ e.placeUses, ok use := by
  cases e with
  | index => exact uses_place_index.2 fun use member => .inl (uses use (List.mem_cons_of_mem _ member))
  | _ => exact nofun

@[simp] theorem uses_assign_add : (assign .add left right).Uses ok ↔ left.Uses ok ∧ right.Uses ok :=
  List.forall_mem_append

@[simp] theorem uses_assign_shiftRight :
    (assign .shiftRight left right).Uses ok ↔ left.Uses ok ∧ right.Uses ok :=
  List.forall_mem_append

end

end Expr

namespace Line

def uses : Line → List Use
  | run action => action.uses
  | guarded test action => test.uses ++ action.uses
  | openIf test | openBranch test | nextBranch test | openWhile test => test.uses
  | openFor _ bound => bound.uses
  | reserve .. | comment _ | placeholder _ | openBlock | lastBranch | close | verbatim _ => []

def destination? : Line → Option String
  | run action => action.destination?
  | _ => none

def reads (line : Line) : List String :=
  line.uses.filterMap fun
    | .read name => some name
    | _ => none

def fills (line : Line) : List (String × String) :=
  line.uses.filterMap fun
    | .fill name text => some (name, text)
    | _ => none

def sizes (line : Line) : List String :=
  line.uses.filterMap fun
    | .size name => some name
    | _ => none

variable {line : Line}

theorem mem_reads {name : String} : name ∈ line.reads ↔ .read name ∈ line.uses := by
  constructor
  · intro member
    obtain ⟨use, among, found⟩ := List.mem_filterMap.1 member
    cases use with
    | read => exact Option.some.inj found ▸ among
    | fill | size => contradiction
  · exact fun among => List.mem_filterMap.2 ⟨_, among, rfl⟩

theorem mem_sizes {name : String} (member : name ∈ line.sizes) : .size name ∈ line.uses := by
  obtain ⟨use, among, found⟩ := List.mem_filterMap.1 member
  cases use with
  | size => exact Option.some.inj found ▸ among
  | read | fill => contradiction

theorem mem_fills {name text : String} : (name, text) ∈ line.fills ↔ .fill name text ∈ line.uses := by
  constructor
  · intro member
    obtain ⟨use, among, found⟩ := List.mem_filterMap.1 member
    cases use with
    | read | size => contradiction
    | fill =>
      injection found with same
      injection same with sameName sameText
      rw [← sameName, ← sameText]
      exact among
  · exact fun among => List.mem_filterMap.2 ⟨_, among, rfl⟩

def Uses (ok : Use → Prop) (line : Line) : Prop := ∀ use ∈ line.uses, ok use

section

variable {ok : Use → Prop} {e : Expr}

@[simp] theorem uses_run : (run e).Uses ok ↔ e.Uses ok := Iff.rfl

@[simp] theorem uses_guarded {test : Expr} : (guarded test e).Uses ok ↔ test.Uses ok ∧ e.Uses ok :=
  List.forall_mem_append

@[simp] theorem uses_openIf : (openIf e).Uses ok ↔ e.Uses ok := Iff.rfl

@[simp] theorem uses_openBranch : (openBranch e).Uses ok ↔ e.Uses ok := Iff.rfl

@[simp] theorem uses_nextBranch : (nextBranch e).Uses ok ↔ e.Uses ok := Iff.rfl

@[simp] theorem uses_openWhile : (openWhile e).Uses ok ↔ e.Uses ok := Iff.rfl

@[simp] theorem uses_openFor {counter : String} : (openFor counter e).Uses ok ↔ e.Uses ok := Iff.rfl

@[simp] theorem uses_reserve (type label : String) : (reserve type label).Uses ok := nofun

@[simp] theorem uses_comment (text : String) : (comment text).Uses ok := nofun

@[simp] theorem uses_placeholder (text : String) : (placeholder text).Uses ok := nofun

@[simp] theorem uses_openBlock : openBlock.Uses ok := nofun

@[simp] theorem uses_lastBranch : lastBranch.Uses ok := nofun

@[simp] theorem uses_close : close.Uses ok := nofun

end

end Line

namespace Code

def Uses (ok : Use → Prop) (code : Code) : Prop := ∀ placed ∈ code, placed.line.Uses ok

section

variable {ok better : Use → Prop} {code more : Code} {line : Line}

theorem Uses.imp (uses : code.Uses ok) (imp : ∀ use, ok use → better use) : code.Uses better :=
  fun placed among use member => imp use (uses placed among use member)

@[simp] theorem uses_nil : Uses ok [] := nofun

@[simp] theorem uses_append : Uses ok (code ++ more) ↔ code.Uses ok ∧ more.Uses ok := List.forall_mem_append

@[simp] theorem uses_line : (Code.line line).Uses ok ↔ line.Uses ok := List.forall_mem_singleton

@[simp] theorem uses_indent : code.indent.Uses ok ↔ code.Uses ok := List.forall_mem_map

@[simp] theorem uses_inset : code.inset.Uses ok ↔ code.Uses ok := List.forall_mem_map

end

end Code

end FlipperBlocks.C
