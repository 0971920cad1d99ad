import FlipperBlocks.Proofs.C.Grammar

/-! Operands stand in parentheses where the grammar needs them.

An expression shows a tree if its text derives the tree as a phrase of the expression's own level.
Then the text as an operand derives the tree as a phrase of the level that the operator wants. -/
namespace FlipperBlocks.C

def Tree.numeral : List Char → Tree
  | '-' :: digits => .unary ['-'] (.word digits)
  | digits => .word digits

def Tree.level? : Tree → Option Level
  | word _ | member .. => some .atomic
  | unary .. => some .unary
  | binary op _ _ =>
    match Grammar.grade? op with
    | some 1 => some .multiplicative
    | some 2 => some .additive
    | some 4 => some .relational
    | some 5 => some .equality
    | some 6 => some .bitAnd
    | some 7 => some .bitXor
    | some 8 => some .bitOr
    | some 9 => some .logicalAnd
    | some 10 => some .logicalOr
    | _ => none

namespace Level

def grade : Level → Nat
  | atomic | unary => 0
  | multiplicative => 1
  | additive => 2
  | relational => 4
  | equality => 5
  | bitAnd => 6
  | bitXor => 7
  | bitOr => 8
  | logicalAnd => 9
  | logicalOr => 10
  | conditional => 11

def phrase : Level → Phrase
  | atomic => .selection
  | unary => .unary
  | level => .binary level.grade

open Grammar (Derives)

variable {tokens : List Token} {tree : Tree}

theorem derives_binary {level : Level} (derives : Derives level.phrase tokens tree) :
    Derives (.binary level.grade) tokens tree := by
  cases level with
  | atomic => exact .unary (.selection derives)
  | unary => exact .unary derives
  | _ => exact derives

theorem derives_looser {a b : Level} (le : a.rank ≤ b.rank)
    (derives : Derives a.phrase tokens tree) : Derives b.phrase tokens tree := by
  have grades : ∀ a ∈ all, ∀ b ∈ all, a.rank ≤ b.rank → a.grade ≤ b.grade := by decide
  have binary := (derives_binary derives).loosen
    (grades a (by cases a <;> decide) b (by cases b <;> decide) le)
  cases b with
  | atomic =>
    cases a with
    | atomic => exact derives
    | _ => contradiction
  | unary =>
    cases a with
    | atomic => exact .selection derives
    | unary => exact derives
    | _ => contradiction
  | _ => exact binary

end Level

namespace Expr

open Grammar (Derives)

structure Shows (e : Expr) (tree : Tree) : Prop where
  spelled : e.Holds Atom.Spelled
  derives : Derives e.level.phrase e.tokens tree
  level : tree.level? = some e.level

variable {e left right : Expr} {tree first second : Tree}

private theorem level_le {level : Level} (found : tree.level? = some level) : level.rank ≤ 10 := by
  unfold Tree.level? at found
  split at found
  all_goals try split at found
  all_goals first
    | contradiction
    | (injection found with same; rw [← same]; decide)

theorem Shows.derives_loosest (reading : e.Shows tree) : Derives (.binary Grammar.loosest) e.tokens tree := by
  have bound := level_le reading.level
  exact Level.derives_looser (b := .logicalOr) bound reading.derives

theorem Shows.parses (reading : e.Shows tree) : Parses e.code tree := by
  refine .of_derives ?_
  rw [(e.reads reading.spelled).tokens_eq]
  exact reading.derives_loosest

theorem Shows.group (reading : e.Shows tree) (context : Level) :
    Derives context.phrase e.group.tokens tree := by
  have grouped : Derives .primary e.group.tokens tree := .parentheses reading.derives_loosest
  exact Level.derives_looser (a := .atomic) (Nat.zero_le _) grouped.primary

theorem Shows.operand (reading : e.Shows tree) (context : Level) :
    Derives context.phrase (e.operand context).tokens tree := by
  unfold Expr.operand
  split
  · exact reading.group context
  · rename_i tight
    have le : e.level.rank ≤ context.rank := by simpa [Level.looser] using tight
    exact Level.derives_looser le reading.derives

theorem Shows.rightOperand (reading : e.Shows tree) {context : Level} (binary : 2 ≤ context.rank) :
    Derives (.binary (context.grade - 1)) (e.rightOperand context).tokens tree := by
  have tighter : ∀ a ∈ Level.all, ∀ b ∈ Level.all, 2 ≤ b.rank → a.rank < b.rank ∨ a = .atomic →
      a.grade ≤ b.grade - 1 := by decide
  unfold Expr.rightOperand
  split
  · exact (Level.derives_binary (reading.group .atomic)).loosen (Nat.zero_le _)
  · rename_i tight
    refine (Level.derives_binary reading.derives).loosen (tighter _ ?_ _ ?_ binary ?_)
    · cases e.level <;> decide
    · cases context <;> decide
    · by_cases lt : e.level.rank < context.rank
      · exact .inl lt
      · simp only [Level.looser, Bool.and_eq_true, Bool.not_eq_true', decide_eq_false_iff_not,
          bne_iff_ne, not_and, Decidable.not_not] at tight
        exact .inr (tight lt)

theorem shows_number {digits : String} (numeral : isNumeral digits.toList = true) :
    (Expr.number digits).Shows (.numeral digits.toList) := by
  unfold Tree.numeral
  split
  · rename_i rest signed
    have level : (Expr.number digits).level = .unary := by simp [Expr.level, signed]
    refine ⟨numeral, ?_, by rw [level]; rfl⟩
    rw [level, Expr.tokens, signed]
    exact .operator (by decide) (.selection (.primary (.word rest)))
  · rename_i unsigned
    have level : (Expr.number digits).level = .atomic := by
      cases letters : digits.toList with
      | nil => simp [Expr.level, letters]
      | cons first rest =>
        have noSign : first ≠ '-' := fun same => unsigned rest (by rw [letters, same])
        simp [Expr.level, letters, noSign]
    refine ⟨numeral, ?_, by rw [level]; rfl⟩
    rw [level, Expr.tokens, numberTokens]
    · exact .primary (.word digits.toList)
    · exact unsigned

theorem shows_truth (value : Bool) :
    (Expr.truth value).Shows (.word (if value then "true" else "false").toList) := by
  cases value <;> exact ⟨trivial, .primary (.word _), rfl⟩

theorem shows_name {text : String} (identifier : Identifier.isIdentifier text = true) :
    (Expr.name text).Shows (.word text.toList) :=
  ⟨identifier, .primary (.word _), rfl⟩

theorem shows_member {object field : String} (first : Identifier.isIdentifier object = true)
    (second : Identifier.isIdentifier field = true) :
    (Expr.member object field).Shows (.member (.word object.toList) field.toList) :=
  ⟨⟨first, second⟩, .member field.toList (.primary (.word _)), rfl⟩

theorem shows_unary {op : UnaryOp} (value : op ≠ .address) (spelled : e.Holds Atom.Spelled)
    (derives : Derives .unary e.tokens tree) : (Expr.unary op e).Shows (.unary op.symbol.toList tree) := by
  refine ⟨⟨fun address => absurd address value, spelled⟩, .operator ?_ derives, rfl⟩
  cases op <;> decide

theorem shows_binary {op : BinaryOp} (noShift : op ≠ .shiftLeft) (spelledLeft : left.Holds Atom.Spelled)
    (spelledRight : right.Holds Atom.Spelled)
    (derivesLeft : Derives (.binary op.level.grade) left.tokens first)
    (derivesRight : Derives (.binary (op.level.grade - 1)) right.tokens second) :
    (Expr.binary op left right).Shows (.binary op.symbol.toList first second) := by
  refine ⟨⟨spelledLeft, spelledRight⟩, ?_, ?_⟩
  · cases op
    all_goals first
      | contradiction
      | exact Derives.binary rfl derivesLeft derivesRight
  · cases op
    all_goals first
      | contradiction
      | rfl

end Expr

end FlipperBlocks.C
