import FlipperBlocks.Proofs.C.Spelling

/-! Expressions are written on one row. -/
namespace FlipperBlocks.C

/-- A text without a line end in it. -/
def OneRow (text : String) : Prop := '\n' ∉ text.toList

instance (text : String) : Decidable (OneRow text) := inferInstanceAs (Decidable (¬ _))

theorem oneRow_append {a b : String} : OneRow (a ++ b) ↔ OneRow a ∧ OneRow b := by simp [OneRow]

theorem OneRow.append {a b : String} (first : OneRow a) (second : OneRow b) : OneRow (a ++ b) :=
  oneRow_append.2 ⟨first, second⟩

/-- A text without a line end or a carriage return in it. -/
def Unbroken (text : String) : Prop := OneRow text ∧ '\r' ∉ text.toList

instance (text : String) : Decidable (Unbroken text) := inferInstanceAs (Decidable (_ ∧ _))

theorem unbroken_append {a b : String} : Unbroken (a ++ b) ↔ Unbroken a ∧ Unbroken b := by
  simp only [Unbroken, oneRow_append, String.toList_append, List.mem_append, not_or]
  exact and_and_and_comm

theorem not_mem_word {cs : List Char} (word : Scan.isWord cs = true) {c : Char}
    (other : Identifier.isPart c = false ∧ c ≠ '.') : c ∉ cs := by
  cases cs with
  | nil => simp
  | cons first rest =>
    simp only [Scan.isWord, Scan.wordGoesOn, Bool.and_eq_true, List.all_eq_true] at word
    obtain ⟨start, goesOn⟩ := word
    rw [List.mem_cons, not_or]
    refine ⟨?_, fun member => ?_⟩
    · rintro rfl
      simp [other.1] at start
    · have part := goesOn _ member
      simp [other] at part

private theorem unbroken_identifier {text : String} (ok : Identifier.isIdentifier text = true) :
    Unbroken text :=
  ⟨not_mem_word (Identifier.split ok).1 (by decide), not_mem_word (Identifier.split ok).1 (by decide)⟩

private theorem unbroken_numeral {digits : String} (ok : isNumeral digits.toList = true) :
    Unbroken digits := by
  simp only [isNumeral, Bool.and_eq_true] at ok
  have absent {c : Char} (other : Identifier.isPart c = false ∧ c ≠ '.') (sign : c ≠ '-') :
      c ∉ digits.toList := by
    have word := not_mem_word ok.1 other
    unfold unsigned at word
    split at word
    · rename_i rest letters
      rw [letters, List.mem_cons, not_or]
      exact ⟨sign, word⟩
    · exact word
  exact ⟨absent (by decide) (by decide), absent (by decide) (by decide)⟩

private theorem unbroken_type {type : String} (ok : Atom.Spelled (.type type)) : Unbroken type := by
  rcases ok with named | rfl
  · exact unbroken_identifier named
  · decide

private theorem not_mem_escape (c : Char) : '\n' ∉ escape c ∧ '\r' ∉ escape c := by
  have digit : ∀ n < 16, hexDigit n ≠ '\n' ∧ hexDigit n ≠ '\r' := by decide
  unfold escape
  split
  · simp
  split
  · simp
  split
  · simp
  split
  · simp
  split
  · simp
  split
  · have high := digit (c.toNat / 16) (by omega)
    have low := digit (c.toNat % 16) (by omega)
    simp [Ne.symm high.1, Ne.symm low.1, Ne.symm high.2, Ne.symm low.2]
  · rename_i notFeed notReturn _ _
    simpa using ⟨Ne.symm notFeed, Ne.symm notReturn⟩

private theorem unbroken_quoted (contents : String) : Unbroken (quoted contents) := by
  rw [Unbroken, OneRow, quoted, String.toList_ofList]
  simp [not_mem_escape]

namespace Expr

private theorem unbroken_unary (op : UnaryOp) : Unbroken op.symbol := by cases op <;> decide

private theorem unbroken_binary (op : BinaryOp) : Unbroken op.symbol := by cases op <;> decide

private theorem unbroken_assign (op : AssignOp) : Unbroken op.symbol := by cases op <;> decide

mutual

theorem unbroken_code : ∀ e : Expr, e.Holds Atom.Spelled → Unbroken e.code
  | number _, holds => unbroken_numeral holds
  | quoted contents, _ => unbroken_quoted contents
  | truth value, _ => by cases value <;> decide
  | nul, _ => by decide
  | name _, holds => unbroken_identifier holds
  | member _ _, holds => by
    simp only [code, unbroken_append]
    exact ⟨⟨unbroken_identifier holds.1, by decide⟩, unbroken_identifier holds.2⟩
  | unary op operand, holds => by
    simp only [code, unbroken_append]
    exact ⟨unbroken_unary op, unbroken_code operand holds.2⟩
  | binary op left right, holds => by
    simp only [code, unbroken_append]
    exact ⟨⟨⟨⟨unbroken_code left holds.1, by decide⟩, unbroken_binary op⟩, by decide⟩,
      unbroken_code right holds.2⟩
  | conditional test yes no, holds => by
    simp only [code, unbroken_append]
    exact ⟨⟨⟨⟨unbroken_code test holds.1, by decide⟩, unbroken_code yes holds.2.1⟩, by decide⟩,
      unbroken_code no holds.2.2⟩
  | group inner, holds => by
    simp only [code, unbroken_append]
    exact ⟨⟨by decide, unbroken_code inner holds⟩, by decide⟩
  | call _ arguments, holds => by
    simp only [code, unbroken_append]
    exact ⟨⟨⟨unbroken_identifier holds.1, by decide⟩, unbroken_listed arguments holds.2⟩, by decide⟩
  | cast _ operand, holds => by
    simp only [code, unbroken_append]
    exact ⟨⟨⟨by decide, unbroken_type holds.1⟩, by decide⟩, unbroken_code operand holds.2⟩
  | index _ position, holds => by
    simp only [code, unbroken_append]
    exact ⟨⟨⟨unbroken_identifier holds.1, by decide⟩, unbroken_code position holds.2⟩, by decide⟩
  | assign op place value, holds => by
    simp only [code, unbroken_append]
    exact ⟨⟨⟨⟨unbroken_code place holds.1, by decide⟩, unbroken_assign op⟩, by decide⟩,
      unbroken_code value holds.2⟩
  | increment place, holds => by
    simp only [code, unbroken_append]
    exact ⟨unbroken_code place holds.2, by decide⟩
  | sequence first second, holds => by
    simp only [code, unbroken_append]
    exact ⟨⟨unbroken_code first holds.1, by decide⟩, unbroken_code second holds.2⟩
  | declare _ _ value, holds => by
    simp only [code, unbroken_append]
    exact ⟨⟨⟨⟨unbroken_type holds.1, by decide⟩, unbroken_identifier holds.2.1⟩, by decide⟩,
      unbroken_code value holds.2.2⟩
  | steps list, holds => by
    simp only [code, unbroken_append]
    exact ⟨⟨by decide, unbroken_stepped list holds⟩, by decide⟩
  | remark _ inner, holds => by
    simp only [code, unbroken_append]
    exact ⟨⟨⟨by decide, holds.1.2⟩, by decide⟩, unbroken_code inner holds.2⟩
  | verbatim .., holds => holds.elim

private theorem unbroken_listed : ∀ list : List Expr, HoldAll Atom.Spelled list → Unbroken (listed list)
  | [], _ => by decide
  | [last], holds => unbroken_code last holds.1
  | first :: second :: rest, holds => by
    simp only [listed, unbroken_append]
    exact ⟨⟨unbroken_code first holds.1, by decide⟩, unbroken_listed (second :: rest) holds.2⟩

private theorem unbroken_stepped : ∀ list : List Expr, HoldAll Atom.Spelled list → Unbroken (stepped list)
  | [], _ => by decide
  | first :: rest, holds => by
    simp only [stepped, unbroken_append]
    exact ⟨⟨unbroken_code first holds.1, by decide⟩, unbroken_stepped rest holds.2⟩

end

theorem oneRow_code (e : Expr) (holds : e.Holds Atom.Spelled) : OneRow e.code := (unbroken_code e holds).1

end Expr

end FlipperBlocks.C
