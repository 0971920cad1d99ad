import FlipperBlocks.Proofs.C.Grouping
import FlipperBlocks.Proofs.Lowering.Blocks

/-! Operators keep their operands.

Blocks for literals, variables and operators make a tree, in which an empty input stands for its
default. The code of such a block reads as that tree, and as no other, in the grammar of C. -/
namespace FlipperBlocks

open Lowering
open C (BinaryOp Expr Level Parses Tree)
open C.Identifier (isIdentifier sanitize)

namespace BlockHead

def comparisonSign (head : BlockHead) : List Char :=
  match head.field? "OP" with
  | some "NEQ" => ['!', '=']
  | some "LT" => ['<']
  | some "LTE" => ['<', '=']
  | some "GT" => ['>']
  | some "GTE" => ['>', '=']
  | _ => ['=', '=']

def arithmeticSign? (head : BlockHead) : Option (List Char) :=
  match head.field? "OP" with
  | some "POWER" => none
  | some "MINUS" => some ['-']
  | some "MULTIPLY" => some ['*']
  | some "DIVIDE" => some ['/']
  | _ => some ['+']

/-- The tree of a block that is a literal, a variable or an operator. An operand is asked for by its
input and by the literal that stands for it where the input is empty. -/
def tree? (head : BlockHead) (operand : String → String → Option Tree) : Option Tree :=
  match head.kind with
  | .number => some (.numeral (((head.numberField? "NUM").map Binary64.literal).getD "0").toList)
  | .hexNumber =>
    let digits := (Text.trim (head.fieldOr "HEX" "0x0")).toList
    some (.word (if isHexLiteral digits then digits else "0x0".toList))
  | .truth => some (.word (if head.field? "BOOL" = some "FALSE" then "false" else "true").toList)
  | .getVariable =>
    let name := sanitize (head.fieldOr "VAR" C.Identifier.fallback)
    some (.member (.word "app".toList) name.toList)
  | .compare => return .binary head.comparisonSign (← operand "A" "0") (← operand "B" "0")
  | .logical =>
    let sign := if head.field? "OP" = some "OR" then ['|', '|'] else ['&', '&']
    return .binary sign (← operand "A" "false") (← operand "B" "false")
  | .negate => return .unary ['!'] (← operand "BOOL" "false")
  | .arithmetic => return .binary (← head.arithmeticSign?) (← operand "A" "0") (← operand "B" "0")
  | .bitAnd => return .binary ['&'] (← operand "A" "0") (← operand "B" "0")
  | .bitOr => return .binary ['|'] (← operand "A" "0") (← operand "B" "0")
  | .bitXor => return .binary ['^'] (← operand "A" "0") (← operand "B" "0")
  | .bitNot => return .unary ['~'] (← operand "A" "0")
  | _ => none

end BlockHead

def operandTree? (inputs : Entries (List (Option Tree))) (input default : String) : Option Tree :=
  match inputs.get? input with
  | some (first :: _) => first
  | _ => some (.numeral default.toList)

mutual

def Block.tree? : Block → Option Tree
  | .mk head values _ => head.tree? (operandTree? (inputTrees values))

def chainTrees : List Block → List (Option Tree)
  | [] => []
  | block :: rest => block.tree? :: chainTrees rest

def inputTrees : List (String × List Block) → List (String × List (Option Tree))
  | [] => []
  | (name, chain) :: rest => (name, chainTrees chain) :: inputTrees rest

end

def Block.operand? (block : Block) (input default : String) : Option Tree :=
  operandTree? (inputTrees block.values) input default

def C.Tree.fields : Tree → List (List Char)
  | .word _ => []
  | .member object field => field :: object.fields
  | .unary _ operand => operand.fields
  | .binary _ left right => left.fields ++ right.fields

def C.Tree.Numeric (draft : Draft) (tree : Tree) : Prop :=
  ∀ name ∈ tree.fields, (draft.lookup? (String.ofList name)).map Storage.kind = some .number

structure Value.Shows (value : Value) (tree : Tree) : Prop where
  expr : value.expr.Shows tree
  kind : value.kind ≠ .text

def Grows {α : Type} (action : Lowering α) : Prop :=
  ∀ before : Compilation, before.draft.Extends (action before).2.draft

/-- A step whose value reads as the tree, if the variables of the tree are numbers in the draft that
the step leads to, or in a later one. -/
structure LowersTree (action : Lowering Value) (tree : Tree) : Prop where
  grows : Grows action
  gives : ∀ before last, (action before).2.draft.Extends last → tree.Numeric last →
    (action before).1.Shows tree

namespace Grows

variable {α β : Type}

theorem pure (a : α) : Grows (Pure.pure a) := fun _ => .refl _

theorem bind {action : Lowering α} {next : α → Lowering β} (first : Grows action)
    (second : ∀ a, Grows (next a)) : Grows (action >>= next) := by
  intro before
  exact (first before).trans (second _ _)

theorem enable (features : List Feature) : Grows (Lowering.enable features) :=
  fun _ => Draft.extends_enable _ _

theorem toNumber (value : Value) : Grows (Lowering.toNumber value) := by
  unfold Lowering.toNumber
  split
  · exact .bind (.enable _) fun _ => .pure _
  · exact .pure _

end Grows

namespace LowersTree

variable {action : Lowering Value} {left tree : Tree}

theorem pure {value : Value} (shown : value.Shows tree) : LowersTree (Pure.pure value) tree :=
  ⟨.pure value, fun _ _ _ _ => shown⟩

theorem bind (first : LowersTree action left) {next : Value → Lowering Value}
    (among : ∀ name ∈ left.fields, name ∈ tree.fields) (grows : ∀ value, Grows (next value))
    (second : ∀ value, value.Shows left → LowersTree (next value) tree) :
    LowersTree (action >>= next) tree := by
  refine ⟨.bind first.grows grows, fun before last leads numeric => ?_⟩
  -- The operand is judged by the last draft as well, which knows the variables of the whole.
  have after := grows (action before).1 (action before).2
  have operand := first.gives before last (after.trans leads) fun name member =>
    numeric name (among name member)
  exact (second _ operand).gives _ last leads numeric

theorem toNumber (first : LowersTree action tree) : LowersTree (action >>= Lowering.toNumber) tree := by
  refine .bind first (fun _ => id) .toNumber fun value shown => ?_
  rw [Lowering.toNumber, if_neg shown.kind]
  exact .pure shown

theorem within (step : Step) (first : LowersTree action tree) :
    LowersTree (Lowering.within step action) tree :=
  ⟨fun before => first.grows { before with steps := step :: before.steps }, fun before last =>
    first.gives { before with steps := step :: before.steps } last⟩

theorem both {second : Lowering Value} {right : Tree} {sign : List Char}
    {combine : Value → Value → Lowering Value} (firstTree : LowersTree action left)
    (secondTree : LowersTree second right) (grows : ∀ a b, Grows (combine a b))
    (combined : ∀ a b, a.Shows left → b.Shows right →
      LowersTree (combine a b) (.binary sign left right)) :
    LowersTree (do
      let a ← action
      let b ← second
      combine a b) (.binary sign left right) := by
  refine .bind firstTree (fun _ => List.mem_append_left _)
    (fun a => .bind secondTree.grows (grows a)) fun a shownLeft => ?_
  exact .bind secondTree (fun _ => List.mem_append_right _) (grows a) fun b => combined a b shownLeft

end LowersTree

def Site.Holds (site : Site) (operand : String → String → Option Tree) : Prop :=
  ∀ input default tree value, operand input default = some tree →
    value.Shows (.numeral default.toList) → LowersTree (site.value input value) tree

namespace Site.Holds

variable {site : Site} {operand : String → String → Option Tree} {input : String} {tree : Tree}

theorem number (holds : site.Holds operand) {default : String}
    (numeral : C.isNumeral default.toList = true) (found : operand input default = some tree) :
    LowersTree (site.number input default) tree :=
  holds input default tree _ found ⟨C.Expr.shows_number numeral, nofun⟩

theorem numeric (holds : site.Holds operand) {default : String}
    (numeral : C.isNumeral default.toList = true) (found : operand input default = some tree) :
    LowersTree (site.numeric input default) tree :=
  (holds.number numeral found).toNumber

theorem truth (holds : site.Holds operand) (found : operand input "false" = some tree) :
    LowersTree (site.truth input false) tree :=
  holds input "false" tree _ found ⟨C.Expr.shows_truth false, nofun⟩

end Site.Holds

section

variable {a b : Value} {left right : Tree}

theorem Value.shows_operation {op : BinaryOp} {first second : Expr} (noShift : op ≠ .shiftLeft)
    {kind : ValueKind} (noText : kind ≠ .text) (spelledFirst : first.Holds C.Atom.Spelled)
    (spelledSecond : second.Holds C.Atom.Spelled)
    (derivesFirst : C.Grammar.Derives (.binary op.level.grade) first.tokens left)
    (derivesSecond : C.Grammar.Derives (.binary (op.level.grade - 1)) second.tokens right) :
    (operation op first second kind).Shows (.binary op.symbol.toList left right) :=
  ⟨C.Expr.shows_binary noShift spelledFirst spelledSecond derivesFirst derivesSecond, noText⟩

/-- Operands that stand in parentheses wherever they bind less tightly than some level may be
operands of any looser operator, on both of its sides. -/
theorem Value.shows_operands {op : BinaryOp} (context : Level) (noShift : op ≠ .shiftLeft)
    (tighter : context.grade ≤ op.level.grade - 1) {kind : ValueKind} (noText : kind ≠ .text)
    (first : a.Shows left) (second : b.Shows right) :
    (operation op (a.expr.operand context) (b.expr.operand context) kind).Shows
      (.binary op.symbol.toList left right) := by
  have derivesFirst := C.Level.derives_binary (first.expr.operand context)
  have derivesSecond := C.Level.derives_binary (second.expr.operand context)
  refine Value.shows_operation noShift noText (C.Expr.holds_operand context first.expr.spelled)
    (C.Expr.holds_operand context second.expr.spelled) ?_ (derivesSecond.loosen tighter)
  exact derivesFirst.loosen (Nat.le_trans tighter (Nat.sub_le _ _))

theorem Value.shows_unary {op : C.UnaryOp} (value : op ≠ .address) {kind : ValueKind}
    (noText : kind ≠ .text) {context : Level} (tight : context.rank ≤ 1) (operand : a.Shows left) :
    (⟨.unary op (a.expr.operand context), kind, none⟩ : Value).Shows (.unary op.symbol.toList left) := by
  have derives := C.Level.derives_looser (b := .unary) tight (operand.expr.operand context)
  exact ⟨C.Expr.shows_unary value (C.Expr.holds_operand context operand.expr.spelled) derives, noText⟩

end

namespace Site.Holds

variable {site : Site} {operand : String → String → Option Tree} {left right : Tree}

private theorem comparisonSign_eq (head : BlockHead) :
    head.comparisonSign = (comparisonOf (head.field? "OP")).symbol.toList := by
  unfold BlockHead.comparisonSign comparisonOf
  split <;> simp_all [BinaryOp.symbol]

theorem comparison (holds : site.Holds operand) (first : operand "A" "0" = some left)
    (second : operand "B" "0" = some right) :
    LowersTree (Lowering.comparison site) (.binary site.head.comparisonSign left right) := by
  unfold Lowering.comparison
  refine .both (holds.number rfl first) (holds.number rfl second) (fun a b => ?_) fun a b shownA shownB => ?_
  · split
    · exact .pure _
    · exact .bind (.toNumber a) fun _ => .bind (.toNumber b) fun _ => .pure _
  · rw [if_neg fun texts => shownA.kind texts.1, Lowering.toNumber, if_neg shownA.kind,
      Lowering.toNumber, if_neg shownB.kind, pure_bind, pure_bind, comparisonSign_eq]
    refine .pure (Value.shows_operands .additive ?_ ?_ (by decide) shownA shownB)
    all_goals
      unfold comparisonOf
      split <;> decide

theorem logical (holds : site.Holds operand) (first : operand "A" "false" = some left)
    (second : operand "B" "false" = some right) : LowersTree (Lowering.logical site)
      (.binary (if site.head.field? "OP" = some "OR" then ['|', '|'] else ['&', '&']) left right) := by
  unfold Lowering.logical
  refine .both (holds.truth first) (holds.truth second) (fun _ _ => .pure _) fun a b shownA shownB => ?_
  split <;>
    exact .pure (Value.shows_operands .bitOr (by decide) (by decide) (by decide) shownA shownB)

theorem negation (holds : site.Holds operand) (found : operand "BOOL" "false" = some left) :
    LowersTree (Lowering.negation site) (.unary ['!'] left) := by
  unfold Lowering.negation
  refine .bind (holds.truth found) (fun _ => id) (fun _ => .pure _) fun a shown => ?_
  exact .pure (Value.shows_unary (by decide) (by decide) (by decide) shown)

theorem complement (holds : site.Holds operand) (found : operand "A" "0" = some left) :
    LowersTree (Lowering.complement site) (.unary ['~'] left) := by
  unfold Lowering.complement
  refine .bind (holds.numeric rfl found) (fun _ => id) (fun _ => .pure _) fun a shown => ?_
  exact .pure (Value.shows_unary (by decide) (by decide) (by decide) shown)

theorem bitwise (holds : site.Holds operand) {op : BinaryOp}
    (among : op ∈ [BinaryOp.bitAnd, .bitOr, .bitXor]) (first : operand "A" "0" = some left)
    (second : operand "B" "0" = some right) :
    LowersTree (Lowering.bitwise op site) (.binary op.symbol.toList left right) := by
  have fits : op ≠ .shiftLeft ∧ Level.unary.grade ≤ op.level.grade - 1 := by
    revert op
    decide
  unfold Lowering.bitwise
  refine .both (holds.numeric rfl first) (holds.numeric rfl second) (fun _ _ => .pure _)
    fun a b shownA shownB => ?_
  exact .pure (Value.shows_operands .unary fits.1 fits.2 (by decide) shownA shownB)

private theorem arithmeticSign_eq {head : BlockHead} {sign : List Char}
    (signed : head.arithmeticSign? = some sign) : head.field? "OP" ≠ some "POWER" ∧
      sign = (arithmeticOf (head.field? "OP")).symbol.toList := by
  unfold BlockHead.arithmeticSign? at signed
  unfold arithmeticOf
  split at signed <;> simp_all [BinaryOp.symbol]

private theorem arithmeticOf_binary (name : Option String) :
    arithmeticOf name ≠ .shiftLeft ∧ 2 ≤ (arithmeticOf name).level.rank := by
  unfold arithmeticOf
  split <;> decide

theorem arithmetic (holds : site.Holds operand) {sign : List Char}
    (signed : site.head.arithmeticSign? = some sign) (first : operand "A" "0" = some left)
    (second : operand "B" "0" = some right) :
    LowersTree (Lowering.arithmetic site) (.binary sign left right) := by
  obtain ⟨noPower, rfl⟩ := arithmeticSign_eq signed
  unfold Lowering.arithmetic
  refine .both (holds.numeric rfl first) (holds.numeric rfl second) (fun a b => ?_)
    fun a b shownA shownB => ?_
  · dsimp only
    split
    · exact .bind (.enable _) fun _ => .pure _
    · exact .pure _
  · dsimp only
    rw [if_neg noPower]
    obtain ⟨noShift, binary⟩ := arithmeticOf_binary (site.head.field? "OP")
    refine .pure (Value.shows_operation noShift (by decide) (C.Expr.holds_operand _ shownA.expr.spelled)
      (C.Expr.holds_rightOperand _ shownB.expr.spelled) ?_ (shownB.expr.rightOperand binary))
    exact C.Level.derives_binary (shownA.expr.operand _)

end Site.Holds

namespace Lowering

theorem shows_numberLiteral (site : Site) : (numberLiteral site).Shows
    (.numeral (((site.head.numberField? "NUM").map Binary64.literal).getD "0").toList) := by
  refine ⟨C.Expr.shows_number ?_, nofun⟩
  cases site.head.numberField? "NUM" with
  | none => rfl
  | some number => exact C.isNumeral_literal number

private theorem numeral_of_isHexLiteral {digits : List Char} (hex : isHexLiteral digits = true) :
    Tree.numeral digits = .word digits := by
  unfold Tree.numeral
  split
  · contradiction
  · rfl

theorem shows_hexLiteral (site : Site) : (hexLiteral site).Shows (.word (
      if isHexLiteral (Text.trim (site.head.fieldOr "HEX" "0x0")).toList
      then (Text.trim (site.head.fieldOr "HEX" "0x0")).toList else "0x0".toList)) := by
  unfold hexLiteral
  generalize Text.trim (site.head.fieldOr "HEX" "0x0") = text
  refine ⟨?_, nofun⟩
  dsimp only
  split
  · rename_i hex
    rw [← numeral_of_isHexLiteral hex]
    exact C.Expr.shows_number (C.isNumeral_hex hex)
  · exact C.Expr.shows_number (by decide)

theorem shows_truthLiteral (site : Site) : (truthLiteral site).Shows
    (.word (if site.head.field? "BOOL" = some "FALSE" then "false" else "true").toList) := by
  refine ⟨?_, nofun⟩
  have shown := C.Expr.shows_truth (site.head.field? "BOOL" != some "FALSE")
  by_cases no : site.head.field? "BOOL" = some "FALSE" <;>
    simpa [truthLiteral, Value.truth, no] using shown

private theorem place_of_number {storage : Storage} (number : storage.kind = .number) :
    storage.place = .member "app" storage.name := by
  obtain ⟨name, type⟩ := storage
  cases type with
  | text size => contradiction
  | bytes length initial => contradiction
  | _ => rfl

theorem lowersTree_declare {wanted : Storage} (identifier : isIdentifier wanted.name = true) :
    LowersTree (do return (← declare wanted).value) (.member (.word "app".toList) wanted.name.toList) := by
  refine ⟨fun _ => Draft.extends_declare _ _, fun before last leads numeric => ?_⟩
  obtain ⟨storage, found⟩ : ∃ storage,
      (before.draft.declare wanted).lookup? wanted.name = some storage := by
    rw [Draft.lookup?_declare, if_pos rfl]
    cases before.draft.lookup? wanted.name with
    | none => exact ⟨wanted, rfl⟩
    | some old => exact ⟨old, rfl⟩
  have named : storage.name = wanted.name := Draft.name_of_lookup? found
  have number : storage.kind = .number := by
    have declared := numeric wanted.name.toList List.mem_cons_self
    rw [String.ofList_toList, leads.lookup found] at declared
    injection declared
  change (((before.draft.declare wanted).lookup? wanted.name).getD wanted).value.Shows _
  rw [found, Option.getD_some]
  refine ⟨?_, fun text => ?_⟩
  · change storage.place.Shows _
    rw [place_of_number number, named]
    exact C.Expr.shows_member (by decide) identifier
  · have same : ValueKind.number = .text := number.symm.trans text
    contradiction

theorem lowersTree_getVariable (site : Site) (asText : Bool) : LowersTree (getVariable site asText)
      (.member (.word "app".toList) (variableName site).toList) := by
  unfold getVariable resolve
  have identifier := isIdentifier_variableName site
  generalize variableName site = name at identifier ⊢
  exact lowersTree_declare identifier

end Lowering

section

variable {operand : String → String → Option Tree} {sign : List Char} {input default : String}
  {tree : Tree}

private theorem operand_of_unary
    (reading : (do return Tree.unary sign (← operand input default)) = some tree) :
    ∃ inner, operand input default = some inner ∧ Tree.unary sign inner = tree := by
  obtain ⟨inner, found, same⟩ := Option.bind_eq_some_iff.1 reading
  injection same with same
  exact ⟨inner, found, same⟩

private theorem operands_of_binary (reading :
    (do return Tree.binary sign (← operand "A" default) (← operand "B" default)) = some tree) :
    ∃ left right, operand "A" default = some left ∧ operand "B" default = some right ∧
      Tree.binary sign left right = tree := by
  obtain ⟨left, first, rest⟩ := Option.bind_eq_some_iff.1 reading
  obtain ⟨right, second, same⟩ := Option.bind_eq_some_iff.1 rest
  injection same with same
  exact ⟨left, right, first, second, same⟩

end

/-- A block that is a literal, a variable or an operator reads as its tree. -/
theorem Site.Holds.asValue {site : Site} {operand : String → String → Option Tree} {tree : Tree}
    (holds : site.Holds operand) (reading : site.head.tree? operand = some tree)
    (wantsText : Bool) : LowersTree (site.asValue wantsText) tree := by
  unfold BlockHead.tree? at reading
  unfold Site.asValue Site.kind
  generalize site.head.kind = kind at reading ⊢
  cases kind with
  | number =>
    injection reading with same
    exact same ▸ .pure (Lowering.shows_numberLiteral site)
  | hexNumber =>
    injection reading with same
    exact same ▸ .pure (Lowering.shows_hexLiteral site)
  | truth =>
    injection reading with same
    exact same ▸ .pure (Lowering.shows_truthLiteral site)
  | getVariable =>
    injection reading with same
    rw [← same]
    exact Lowering.lowersTree_getVariable site wantsText
  | compare =>
    obtain ⟨left, right, first, second, rfl⟩ := operands_of_binary reading
    exact holds.comparison first second
  | logical =>
    obtain ⟨left, right, first, second, rfl⟩ := operands_of_binary reading
    exact holds.logical first second
  | negate =>
    obtain ⟨inner, found, rfl⟩ := operand_of_unary reading
    exact holds.negation found
  | arithmetic =>
    obtain ⟨sign, signed, rest⟩ := Option.bind_eq_some_iff.1 reading
    obtain ⟨left, right, first, second, rfl⟩ := operands_of_binary rest
    exact holds.arithmetic signed first second
  | bitAnd | bitOr | bitXor =>
    obtain ⟨left, right, first, second, rfl⟩ := operands_of_binary reading
    exact holds.bitwise (by decide) first second
  | bitNot =>
    obtain ⟨inner, found, rfl⟩ := operand_of_unary reading
    exact holds.complement found
  | _ => contradiction

theorem chainTrees_eq_map (chain : List Block) : chainTrees chain = chain.map Block.tree? := by
  induction chain with
  | nil => rw [chainTrees, List.map_nil]
  | cons block rest ih => rw [chainTrees, ih, List.map_cons]

theorem inputTrees_eq_map (inputs : List (String × List Block)) :
    inputTrees inputs = inputs.map fun entry => (entry.1, entry.2.map Block.tree?) := by
  induction inputs with
  | nil => rw [inputTrees, List.map_nil]
  | cons entry rest ih => rw [inputTrees, ih, chainTrees_eq_map, List.map_cons]

private def Block.Kept (block : Block) : Prop :=
  ∀ tree, block.tree? = some tree → ∀ wantsText, LowersTree (block.meaning.value wantsText) tree

private theorem holds_site (block : Block) (kept : ∀ entry ∈ block.values, ∀ inner ∈ entry.2, inner.Kept) :
    block.site.Holds block.operand? := by
  intro input default tree value found shown
  have trees : Entries.get? (inputTrees block.values) input =
      (block.values.get? input).map (List.map Block.tree?) := by
    rw [inputTrees_eq_map, Entries.get?_map]
  unfold Block.operand? operandTree? at found
  unfold Site.value
  rw [trees] at found
  rw [block.get?_values]
  cases there : block.values.get? input with
  | none =>
    rw [there] at found
    injection found with same
    exact .pure (same ▸ shown)
  | some chain =>
    rw [there] at found
    cases chain with
    | nil =>
      injection found with same
      exact .pure (same ▸ shown)
    | cons first rest =>
      have member := Entries.mem_of_get? there
      exact .within _ (kept _ member first List.mem_cons_self tree found _)

private theorem kept_block (block : Block) : block.Kept := by
  refine block.induction fun head values bodies kept _ tree reading wantsText => ?_
  rw [Block.tree?] at reading
  rw [Block.meaning_eq]
  exact (holds_site (.mk head values bodies) kept).asValue reading wantsText

theorem Block.lowersTree (block : Block) {tree : Tree} (reading : block.tree? = some tree)
    (wantsText : Bool) : LowersTree (block.meaning.value wantsText) tree :=
  kept_block block tree reading wantsText

theorem Block.holds (block : Block) : block.site.Holds block.operand? :=
  holds_site block fun _ _ inner _ => kept_block inner

private theorem grows_statements (block : Block) {input : String}
    (belongs : ∀ phase, block.site.kind.bodyPhase input phase = phase) :
    Grows (block.site.statements input) := by
  intro before
  let outcome : Outcome := ⟨{}, fun _ => True⟩
  have fits : block.site.Fits outcome before.phase := block.site_fits (fun _ => trivial) _
  exact (fits.statements (belongs _) True [] before rfl).1

theorem LowersTree.shows_of_bind {action : Lowering Value} {tree : Tree}
    (first : LowersTree action tree) {α : Type} {next : Value → Lowering α}
    (grows : ∀ value, Grows (next value)) {before : Compilation}
    (numeric : tree.Numeric ((action >>= next) before).2.draft) : (action before).1.Shows tree :=
  first.gives before _ (grows _ _) numeric

private theorem text_until {site : Site} (mode : site.head.field? "MODE" = some "UNTIL")
    (before : Compilation) : (whileUntil site before).1.text = "while(" ++
      (Expr.unary .not ((site.truth "BOOL" false before).1.expr.operand .atomic)).code ++
        ") \x7b\n" ++ (site.statements "DO" (site.truth "BOOL" false before).2).1.indent.text ++
          "\x7d\n" := by
  have code : (whileUntil site before).1 = C.Code.braced (.openWhile
      (if site.head.field? "MODE" = some "UNTIL"
        then .unary .not ((site.truth "BOOL" false before).1.expr.operand .atomic)
        else (site.truth "BOOL" false before).1.expr))
      (site.statements "DO" (site.truth "BOOL" false before).2).1 := rfl
  rw [code, if_pos mode, C.Code.text_braced, C.Line.ended_openWhile]

private theorem text_repeated (site : Site) (before : Compilation) :
    ∃ number body, (repeated site before).1.text =
      "for(int " ++ Draft.numbered "i" number ++ " = 0; " ++ Draft.numbered "i" number ++ " < " ++
        ((site.numeric "TIMES" "1" before).1.expr.rightOperand .relational).code ++ "; " ++
          Draft.numbered "i" number ++ "++) \x7b\n" ++ body ++ "\x7d\n" := by
  let times := site.numeric "TIMES" "1" before
  let counter := fresh "i" times.2
  have code : (repeated site before).1 = C.Code.braced
      (.openFor (Draft.numbered "i" (times.2.draft.freshNumber "i"))
        (times.1.expr.rightOperand .relational)) (site.statements "DO" counter.2).1 := rfl
  refine ⟨times.2.draft.freshNumber "i", (site.statements "DO" counter.2).1.indent.text, ?_⟩
  rw [code, C.Code.text_braced, C.Line.ended_openFor]

structure Block.KeepsOperators (block : Block) (before : Compilation) : Prop where
  value : ∀ wantsText tree, block.tree? = some tree →
    tree.Numeric (block.meaning.value wantsText before).2.draft →
      Parses (block.meaning.value wantsText before).1.code tree ∧
        tree.level? = some (block.meaning.value wantsText before).1.expr.level
  condition : ∀ tree, block.head.kind = .whileUntil → block.head.field? "MODE" = some "UNTIL" →
    block.operand? "BOOL" "false" = some tree →
      tree.Numeric (block.meaning.statement before).2.draft →
        ∃ test body, (block.meaning.statement before).1.text =
          "while(" ++ test ++ ") \x7b\n" ++ body ++ "\x7d\n" ∧ Parses test (.unary ['!'] tree)
  bound : ∀ tree, block.head.kind = .repeated → block.operand? "TIMES" "1" = some tree →
    tree.Numeric (block.meaning.statement before).2.draft →
      ∃ counter limit body, (block.meaning.statement before).1.text =
        "for(int " ++ counter ++ " = 0; " ++ counter ++ " < " ++ limit ++ "; " ++ counter ++
          "++) \x7b\n" ++ body ++ "\x7d\n" ∧
        Parses (counter ++ " < " ++ limit) (.binary ['<'] (.word counter.toList) tree)

private theorem until_parses (block : Block) (before : Compilation) {tree : Tree}
    (kind : block.head.kind = .whileUntil) (mode : block.head.field? "MODE" = some "UNTIL")
    (found : block.operand? "BOOL" "false" = some tree)
    (numeric : tree.Numeric (block.meaning.statement before).2.draft) :
    ∃ test body, (block.meaning.statement before).1.text =
      "while(" ++ test ++ ") \x7b\n" ++ body ++ "\x7d\n" ∧ Parses test (.unary ['!'] tree) := by
  have place : block.site.kind = .whileUntil := kind
  have statement : block.meaning.statement = whileUntil block.site := by
    rw [block.statement_eq, Site.asStatement, place]
  rw [statement] at numeric ⊢
  have body : Grows (block.site.statements "DO") := grows_statements block fun phase => by rw [place]; rfl
  have shown := (block.holds.truth found).shows_of_bind (fun _ => .bind body fun _ => .pure _) numeric
  have negated : (⟨.unary .not ((block.site.truth "BOOL" false before).1.expr.operand .atomic),
      .truth, none⟩ : Value).Shows (.unary ['!'] tree) :=
    Value.shows_unary (by decide) (by decide) (by decide) shown
  exact ⟨_, _, text_until mode before, negated.expr.parses⟩

private theorem code_less (counter : String) (limit : Expr) :
    (Expr.binary .less (.name counter) limit).code = counter ++ " < " ++ limit.code := by
  have code : (Expr.binary .less (.name counter) limit).code =
      counter ++ " " ++ "<" ++ " " ++ limit.code := by
    rw [Expr.code, Expr.code, C.BinaryOp.symbol]
  have joined : " " ++ ("<" ++ " ") = " < " := rfl
  have spaced : counter ++ " " ++ "<" ++ " " = counter ++ " < " := by
    rw [String.append_assoc, String.append_assoc, joined]
  rw [code, spaced]

private theorem repeated_parses (block : Block) (before : Compilation) {tree : Tree}
    (kind : block.head.kind = .repeated) (found : block.operand? "TIMES" "1" = some tree)
    (numeric : tree.Numeric (block.meaning.statement before).2.draft) :
    ∃ counter limit body, (block.meaning.statement before).1.text =
      "for(int " ++ counter ++ " = 0; " ++ counter ++ " < " ++ limit ++ "; " ++ counter ++
        "++) \x7b\n" ++ body ++ "\x7d\n" ∧
      Parses (counter ++ " < " ++ limit) (.binary ['<'] (.word counter.toList) tree) := by
  have place : block.site.kind = .repeated := kind
  have statement : block.meaning.statement = repeated block.site := by
    rw [block.statement_eq, Site.asStatement, place]
  rw [statement] at numeric ⊢
  have body : Grows (block.site.statements "DO") := grows_statements block fun phase => by rw [place]; rfl
  have counted : Grows (fresh "i") := fun _ => Draft.extends_advance _ _ _
  have shown := (block.holds.numeric rfl found).shows_of_bind
    (fun _ => .bind counted fun _ => .bind body fun _ => .pure _) numeric
  obtain ⟨number, text, written⟩ := text_repeated block.site before
  have named : isIdentifier (Draft.numbered "i" number) = true :=
    C.Identifier.isIdentifier_numbered (by decide) number
  have counter := C.Expr.shows_name named
  have compared : (Expr.binary .less (.name (Draft.numbered "i" number)) _).Shows
      (.binary ['<'] (.word (Draft.numbered "i" number).toList) tree) :=
    C.Expr.shows_binary (by decide) counter.spelled
      (C.Expr.holds_rightOperand .relational shown.expr.spelled)
      ((C.Level.derives_binary counter.derives).loosen (Nat.zero_le _))
      (shown.expr.rightOperand (by decide))
  refine ⟨_, _, text, written, ?_⟩
  rw [← code_less]
  exact compared.parses

/-- The code of blocks for literals, variables and operators reads as the tree of the blocks. The
condition of a loop that runs until it holds is negated as a whole, and the bound of a loop that
counts is compared as a whole. -/
theorem Block.keeps_operators (block : Block) (before : Compilation) : block.KeepsOperators before where
  value wantsText tree reading numeric := by
    have shown := (block.lowersTree reading wantsText).gives before _ (.refl _) numeric
    exact ⟨shown.expr.parses, shown.expr.level⟩
  condition _ := until_parses block before
  bound _ := repeated_parses block before

private def minusThree : Block :=
  .mk { kind := .number, fields := [("NUM", .number ⟨0xC008000000000000⟩)] } [] []

private def difference (a b : Block) : Block :=
  .mk { kind := .arithmetic, fields := [("OP", .text "MINUS")] } [("A", [a]), ("B", [b])] []

def comparedDifference : Block :=
  .mk { kind := .compare, fields := [("OP", .text "LT")] } [("A", [difference minusThree
    (difference (.mk { kind := .getVariable, fields := [("VAR", .text "x")] } [] []) minusThree)])] []

def comparedDifferenceTree : Tree :=
  let minusThree : Tree := .unary ['-'] (.word ['3'])
  .binary ['<'] (.binary ['-'] minusThree
    (.binary ['-'] (.member (.word "app".toList) ['x']) minusThree)) (.word ['0'])

theorem comparedDifference_keeps_operators : comparedDifference.tree? = some comparedDifferenceTree ∧
      (comparedDifference.meaning.value false {}).1.code = "-3 - (app->x - -3) < 0" ∧
        Parses "-3 - (app->x - -3) < 0" comparedDifferenceTree := by
  have reading : comparedDifference.tree? = some comparedDifferenceTree := rfl
  have code : (comparedDifference.meaning.value false {}).1.code = "-3 - (app->x - -3) < 0" := by
    decide +kernel
  have numeric : comparedDifferenceTree.Numeric
      (comparedDifference.meaning.value false {}).2.draft := by
    unfold Tree.Numeric
    decide +kernel
  have kept := (comparedDifference.keeps_operators {}).value false _ reading numeric
  exact ⟨reading, code, code ▸ kept.1⟩

end FlipperBlocks
