import FlipperBlocks.Block.Kind
import Mathlib.Data.String.Basic

/-! The names of inputs, as they stand in the paths to blocks. -/
namespace FlipperBlocks

def namesValue (input : String) : Bool :=
  !(["next", "SETUP", "DRAW", "INPUT", "LOOP", "ELSE", "DO"].contains input) &&
    !BlockKind.isNumbered ['D', 'O'] input && !input.toList.contains '>'

/-- A segment that is not mistaken for the step to the next block, nor for several segments. -/
def NamesInput (segment : String) : Prop := segment ≠ "next" ∧ '>' ∉ segment.toList

theorem isDigit_of_mem_toString {n : Nat} {c : Char} (member : c ∈ (toString n).toList) :
    c.isDigit = true := by
  rw [Nat.toString_eq_ofList_toDigits, String.toList_ofList] at member
  exact Nat.isDigit_of_mem_toDigits (by decide) (by decide) member

theorem toList_toString_ne_nil (n : Nat) : (toString n).toList ≠ [] := by
  rw [Nat.toString_eq_ofList_toDigits, String.toList_ofList]
  exact Nat.toDigits_ne_nil

theorem angle_not_mem_toString (n : Nat) : '>' ∉ (toString n).toList := fun member =>
  absurd (isDigit_of_mem_toString member) (by decide)

namespace BlockKind

theorem isNumbered_iff {stem : List Char} {name : String} : isNumbered stem name = true ↔
    ∃ digits, digits ≠ [] ∧ (∀ c ∈ digits, c.isDigit = true) ∧ name.toList = stem ++ digits := by
  unfold isNumbered
  constructor
  · intro numbered
    split at numbered
    · contradiction
    · rename_i nonempty
      rw [Bool.and_eq_true, beq_iff_eq, List.all_eq_true] at numbered
      refine ⟨_, nonempty, numbered.2, ?_⟩
      calc name.toList
        _ = name.toList.take stem.length ++ name.toList.drop stem.length := (List.take_append_drop _ _).symm
        _ = _ := by rw [numbered.1]
  · rintro ⟨digits, nonempty, decimal, letters⟩
    rw [letters, List.drop_left, List.take_left]
    split
    · contradiction
    · simpa using decimal

theorem takesStatements_body (n : Nat) : takesStatements .conditional ("DO" ++ toString n) = true := by
  have numbered : isNumbered ['D', 'O'] ("DO" ++ toString n) = true :=
    isNumbered_iff.2 ⟨_, toList_toString_ne_nil n, fun _ => isDigit_of_mem_toString,
      String.toList_append⟩
  rw [takesStatements, numbered, Bool.or_true]

theorem namesInput_of_takesStatements {kind : BlockKind} {input : String}
    (takes : kind.takesStatements input = true) : NamesInput input := by
  have listed {names : List String} (member : names.contains input = true)
      (plain : ∀ name ∈ names, name ≠ "next" ∧ '>' ∉ name.toList) : NamesInput input :=
    plain input (by simpa using member)
  have numbered (digits : isNumbered ['D', 'O'] input = true) : NamesInput input := by
    obtain ⟨digits, _, decimal, letters⟩ := isNumbered_iff.1 digits
    refine ⟨fun next => ?_, fun angle => ?_⟩
    · rw [next] at letters
      exact absurd (congrArg (List.take 1) letters) (by simp)
    · rw [letters, List.mem_append] at angle
      rcases angle with early | late
      · exact absurd early (by decide)
      · exact absurd (decimal _ late) (by decide)
  unfold takesStatements at takes
  split at takes
  · exact listed takes (by decide)
  · rw [Bool.or_eq_true, beq_iff_eq] at takes
    rcases takes with rfl | digits
    · exact ⟨by decide, by decide⟩
    · exact numbered digits
  iterate 5
    · rw [beq_iff_eq.1 takes]
      exact ⟨by decide, by decide⟩
  · contradiction

end BlockKind

section

variable {input : String}

private theorem namesValue_iff : namesValue input = true ↔
    (input ≠ "next" ∧ input ≠ "SETUP" ∧ input ≠ "DRAW" ∧ input ≠ "INPUT" ∧ input ≠ "LOOP" ∧
      input ≠ "ELSE" ∧ input ≠ "DO") ∧ BlockKind.isNumbered ['D', 'O'] input = false ∧
      '>' ∉ input.toList := by
  simp [namesValue, and_assoc]

theorem namesInput_of_namesValue (names : namesValue input = true) : NamesInput input :=
  ⟨(namesValue_iff.1 names).1.1, (namesValue_iff.1 names).2.2⟩

theorem takesStatements_of_namesValue (names : namesValue input = true) (kind : BlockKind) :
    kind.takesStatements input = false := by
  have told := namesValue_iff.1 names
  unfold BlockKind.takesStatements
  split <;> simp [told]

theorem namesValue_test (n : Nat) : namesValue ("IF" ++ toString n) = true := by
  have letters : ("IF" ++ toString n).toList = ['I', 'F'] ++ (toString n).toList := String.toList_append
  have other {name : String} (differs : name.toList.take 2 ≠ ['I', 'F']) :
      "IF" ++ toString n ≠ name := by
    rintro rfl
    exact differs (by rw [letters]; rfl)
  refine namesValue_iff.2 ⟨⟨?_, ?_, ?_, ?_, ?_, ?_, ?_⟩, ?_, ?_⟩
  iterate 7 · exact other (by decide)
  · rw [Bool.eq_false_iff]
    intro numbered
    obtain ⟨digits, _, _, same⟩ := BlockKind.isNumbered_iff.1 numbered
    exact absurd (congrArg (List.take 2) (letters.symm.trans same)) (by simp)
  · rw [letters, List.mem_append]
    exact not_or.2 ⟨by decide, angle_not_mem_toString n⟩

end

end FlipperBlocks
