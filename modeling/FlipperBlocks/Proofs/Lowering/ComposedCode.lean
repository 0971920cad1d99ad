import FlipperBlocks.Proofs.Lowering.UnsealedValues
import FlipperBlocks.Proofs.Text.Indentation

/-! Lowered code is composed of whole lines.

No block leaves text behind that would bring its own line ends. The text of code is therefore blank only if
there is no code, and to indent code is to indent its text. -/
namespace FlipperBlocks

open C (Code Expr Line)
open Lowering

namespace C

private theorem Line.Composed.ended {line : Line} (composed : line.Composed) :
    line.ended = line.text ++ "\n" := by
  cases line with
  | verbatim => exact composed.elim
  | _ => rfl

private theorem Line.allBlank_text {line : Line} (composed : line.Composed) :
    Text.allBlank line.text = false := by
  have starts {front back : String} (visible : Text.allBlank front = false) :
      Text.allBlank (front ++ back) = false := by
    rw [Text.allBlank_append, visible, Bool.false_and]
  have ends {front back : String} (visible : Text.allBlank back = false) :
      Text.allBlank (front ++ back) = false := by
    rw [Text.allBlank_append, visible, Bool.and_false]
  have marks : ∀ mark ∈ [";", ") \x7b", "++) \x7b", "// ", " */", "\x7b", "\x7d else \x7b", "\x7d"],
      Text.allBlank mark = false := by
    simp [Text.allBlank, Text.isBlank]
  cases line with
  | run | guarded | reserve => exact ends (marks ";" (by simp))
  | openIf | openBranch | nextBranch | openWhile => exact ends (marks ") \x7b" (by simp))
  | openFor => exact ends (marks "++) \x7b" (by simp))
  | comment => exact starts (marks "// " (by simp))
  | placeholder => exact ends (marks " */" (by simp))
  | openBlock => exact marks "\x7b" (by simp)
  | lastBranch => exact marks "\x7d else \x7b" (by simp)
  | close => exact marks "\x7d" (by simp)
  | verbatim => exact composed.elim

namespace Code

variable {code : Code}

theorem ended_text (placed : PlacedLine) (composed : placed.line.Composed) :
    Text.Ended placed.text.toList := by
  unfold PlacedLine.text
  cases placed.depth with
  | zero =>
    rw [Text.indentBy, composed.ended]
    exact .inr (by simp)
  | succ depth => exact (Text.undashed_indent _).ended

theorem text_indent (composed : code.Composed) : code.indent.text = Text.indent code.text := by
  induction code with
  | nil => rfl
  | cons placed rest ih =>
    obtain ⟨here, later⟩ := List.forall_mem_cons.1 composed
    have moved : text (indent (placed :: rest)) = Text.indent placed.text ++ text (indent rest) := rfl
    rw [moved, ih later, text_cons, Text.indent_append (ended_text placed here)]

theorem allBlank_text (composed : code.Composed) : Text.allBlank code.text = code.isEmpty := by
  cases code with
  | nil => rfl
  | cons placed rest =>
    have line := (List.forall_mem_cons.1 composed).1
    have row : Text.allBlank (Text.margin placed.margin ++ placed.line.ended) = false := by
      rw [line.ended, Text.allBlank_append, Text.allBlank_append,
        Line.allBlank_text line, Bool.false_and, Bool.and_false]
    have deeper (depth : Nat) :
        Text.allBlank (Text.indentBy depth (Text.margin placed.margin ++ placed.line.ended)) = false := by
      induction depth with
      | zero => exact row
      | succ depth ih => rw [Text.indentBy, Text.allBlank_indent, ih]
    rw [text_cons, Text.allBlank_append, PlacedLine.text, deeper]
    rfl

end Code

end C

def Composes (action : Lowering Code) : Prop := Returns action Code.Composed

theorem Block.composes (block : Block) : Composes block.meaning.statement := fun c =>
  (block.lax.statement .detached (.of True) trivial c).composed

theorem Chain.composes (chain : Chain) : Composes chain.lower := fun c =>
  (@Meaning.related_chain _ Returns.accord .detached (.of True) _ _
    (Accord.watchedChain fun block _ => block.lax) trivial c).composed

end FlipperBlocks
