import FlipperBlocks.Proofs.Lowering.ComposedCode
import FlipperBlocks.Proofs.Lowering.Routing
import FlipperBlocks.Proofs.Lowering.SuppliedPrograms

/-! Where lines end in lowered code.

Whatever is to stand on a line with other things has no line break in it: the code of values, the lines that
set up pins and the reads before drawing. Statements are whole lines, so that no two of them share one. -/
namespace FlipperBlocks

open C (Atom Code Expr Line PlacedLine Unbroken)
open Text (Ended rows)

namespace C

theorem unbroken_oneLine (text : String) : Unbroken (Text.oneLine text) := by
  have absent (c : Char) (isBreak : c = '\n' ∨ c = '\r') : c ∉ (Text.oneLine text).toList := by
    rw [Text.oneLine, String.toList_ofList, List.mem_map]
    rintro ⟨d, _, rfl⟩
    split at isBreak <;> simp_all
  exact ⟨absent _ (.inl rfl), absent _ (.inr rfl)⟩

namespace Line

variable {text : String}

theorem unbroken_comment : Unbroken (comment text).text := by
  change Unbroken ("// " ++ Text.oneLine text)
  exact unbroken_append.2 ⟨by decide, unbroken_oneLine text⟩

/-- Line breaks become spaces, so that a comment ends with what its text ends with or with a space. -/
theorem Composed.getLast?_comment (composed : (comment text).Composed) :
    (comment text).text.toList.getLast? ≠ some '\\' := by
  change ("// " ++ Text.oneLine text).toList.getLast? ≠ some '\\'
  rw [String.toList_append, List.getLast?_append, Text.oneLine, String.toList_ofList, List.getLast?_map]
  cases found : text.toList.getLast? with
  | none => decide
  | some c =>
    rw [Option.map_some, Option.some_or, Ne, Option.some.injEq]
    split
    · decide
    · exact fun same => composed (same ▸ found)

end Line

namespace PlacedLine

variable (placed : PlacedLine)

private theorem length_rows : (Text.rows placed.text.toList).length =
    (Text.rows (Text.margin placed.margin ++ placed.line.ended).toList).length := by
  unfold PlacedLine.text
  induction placed.depth with
  | zero => rfl
  | succ depth ih => rw [Text.indentBy, Text.length_rows_indent, ih]

variable {placed}

theorem rows_comment {text : String} (same : placed.line = .comment text) :
    Text.rows placed.text.toList = [placed.text.toList] := by
  let line := (Text.margin placed.margin ++ (Line.comment text).text).toList
  have split : (Text.margin placed.margin ++ placed.line.ended).toList = line ++ ['\n'] := by
    have ended : placed.line.ended = (Line.comment text).text ++ "\n" := by
      rw [same]
      rfl
    rw [ended, ← String.append_assoc, String.toList_append]
    rfl
  have inside : '\n' ∉ line := by
    dsimp only [line]
    rw [String.toList_append, List.mem_append, Text.margin, String.toList_ofList, not_or]
    exact ⟨fun member => absurd (List.eq_of_mem_replicate member) (by decide), Line.unbroken_comment.1⟩
  have row := @Text.rows_flatMap _ [line] (· ++ ['\n']) fun _ member =>
    ⟨line, inside, congrArg (· ++ ['\n']) (List.mem_singleton.1 member)⟩
  have one := placed.length_rows
  rw [split, ← List.flatMap_singleton (· ++ ['\n']) line, row] at one
  obtain ⟨only, found⟩ := List.length_eq_one_iff.1 one
  have whole := Text.flatten_rows placed.text.toList
  rw [found, List.flatten_singleton] at whole
  rw [found, whole]

end PlacedLine

namespace Code.Composed

variable {code : Code} (composed : code.Composed)

include composed

theorem ended : Ended code.text.toList := by
  induction code with
  | nil => exact .inl rfl
  | cons placed rest ih =>
    obtain ⟨here, later⟩ := List.forall_mem_cons.1 composed
    rw [text_cons, String.toList_append]
    exact (ended_text placed here).append (ih later)

theorem rows : Text.rows code.text.toList = code.flatMap fun placed => Text.rows placed.text.toList := by
  induction code with
  | nil => rfl
  | cons placed rest ih =>
    obtain ⟨here, later⟩ := List.forall_mem_cons.1 composed
    rw [text_cons, String.toList_append, Text.rows_append (ended_text placed here), ih later, List.flatMap_cons]

end Code.Composed

end C

/-- Lowers a chain and gives the code of every statement by itself. -/
def Chain.codes : Chain → Lowering (List Code)
  | [] => return []
  | first :: rest => do
    let code ← first.meaning.statement
    return code :: (← chainCodes "next" rest)

namespace Chain

theorem lower_eq_flatten (chain : Chain) : chain.lower = List.flatten <$> chain.codes := by
  cases chain with
  | nil => rfl
  | cons first rest =>
    rw [Chain.lower, chainMeanings_eq_map, List.map_cons, Meaning.chain, following_eq_flatten]
    rfl

private theorem composed_chainCodes (segment : String) (chain : List Block) :
    Returns (chainCodes segment chain) fun codes => ∀ code ∈ codes, code.Composed := by
  induction chain generalizing segment with
  | nil => exact .pure (by simp)
  | cons first rest ih =>
    intro c
    exact List.forall_mem_cons.2 ⟨first.composes _, ih "next" _⟩

theorem composed_codes (chain : Chain) : Returns chain.codes fun codes => ∀ code ∈ codes, code.Composed := by
  cases chain with
  | nil => exact .pure (by simp)
  | cons first rest =>
    intro c
    exact List.forall_mem_cons.2 ⟨first.composes _, composed_chainCodes "next" rest _⟩

theorem rows_lower (chain : Chain) (c : Compilation) : rows (chain.lower c).1.text.toList =
    (chain.codes c).1.flatMap fun code => rows code.text.toList := by
  have codes : (chain.lower c).1 = (chain.codes c).1.flatten := by
    rw [lower_eq_flatten]
    rfl
  rw [(chain.composes c).rows, codes, List.flatten_eq_flatMap, List.flatMap_assoc]
  exact List.flatMap_congr fun code member => (chain.composed_codes c code member).rows.symm

end Chain

/-- What is on record has no line break in it, and neither has the code of a block, lowered as a value. -/
structure Compilation.LineWise (blocks : List Block) (c : Compilation) : Prop where
  setups : ∀ setup ∈ c.draft.setups, Unbroken setup.line.text
  beforeDraw : ∀ line ∈ c.draft.beforeDraw, Unbroken line.text
  value : ∀ block ∈ blocks, ∀ wantsText, Unbroken (block.meaning.value wantsText c).1.expr.code

theorem PinSetup.unbroken_line (setup : PinSetup) : Unbroken setup.line.text := by
  have mode : C.Identifier.isIdentifier setup.mode.symbol = true := by cases setup.mode <;> decide
  have pull : C.Identifier.isIdentifier setup.pull.symbol = true := by cases setup.pull <;> decide
  refine C.unbroken_append.2 ⟨Expr.unbroken_code _ ?_, by decide⟩
  simp +decide [Expr.Holds, Expr.HoldAll, Atom.Spelled, Pin.spelled_symbol, mode, pull]

namespace Program

theorem lineWise {program : Program} {c : Compilation} (supplied : c.draft.Supplied program.givenNames) :
    c.LineWise program.parts where
  setups setup _ := setup.unbroken_line
  beforeDraw line member := by
    obtain ⟨read, slot, rfl, _, _, spelled⟩ := supplied.reads line member
    exact C.unbroken_append.2 ⟨Expr.unbroken_code _ spelled, by decide⟩
  value block among wantsText := by
    have related := Accord.watched (Quiet.still (.supplied program.givenNames)).admits block
      fun _ inner => listed_part (parts_subset among inner)
    have leaves := (related.value wantsText c.phase (.of True)).supplies c rfl supplied trivial
    exact Expr.unbroken_code _ leaves.post.expr.atoms

/-- Wherever lowering a program comes to, neither what is on record nor the code of a value has a line break in
it. Statements and chains are whole lines, a row is of one statement only, and a comment is a row by itself that
no backslash joins to the next one; so a scanner finds the tokens of all lines, one after another. -/
theorem lines_kept_apart (program : Program) :
    (program.Throughout fun _ before after => before.LineWise program.parts ∧ after.LineWise program.parts) ∧
    program.lowered.LineWise program.parts ∧
    (∀ (c : Compilation) (block : Block), Ended (block.meaning.statement c).1.text.toList ∧
      rows (block.meaning.statement c).1.text.toList =
        (block.meaning.statement c).1.flatMap (fun placed => rows placed.text.toList) ∧
      ∀ placed ∈ (block.meaning.statement c).1, ∀ text, placed.line = .comment text →
        rows placed.text.toList = [placed.text.toList] ∧ Unbroken placed.line.text ∧
          placed.line.text.toList.getLast? ≠ some '\\') ∧
    (∀ (c : Compilation) (chain : Chain), Ended (chain.lower c).1.text.toList ∧
      rows (chain.lower c).1.text.toList = (chain.codes c).1.flatMap fun code => rows code.text.toList) ∧
    ∀ code ∈ program.lowered.draft.kept, C.tokens code.text = code.flatMap fun placed => placed.line.tokens := by
  refine ⟨?_, lineWise program.supplied_lowered, fun c block => ?_, fun c chain => ?_, fun code member => ?_⟩
  · exact program.throughout_supplied.imp fun _ _ _ passed => ⟨lineWise passed.1, lineWise passed.2⟩
  · have composed := block.composes c
    refine ⟨composed.ended, composed.rows, fun placed member text same => ?_⟩
    have comment := composed placed member
    rw [same] at comment ⊢
    exact ⟨PlacedLine.rows_comment same, Line.unbroken_comment, comment.getLast?_comment⟩
  · exact ⟨(chain.composes c).ended, chain.rows_lower c⟩
  · exact Application.tokens_of_rows (Code.rows (program.lowered_sound.kept code member).spelled)

def stopUnsupported : Block := .mk { kind := .stopPwm, fields := [("PIN", .text "PB3")] } [] []

theorem lines_kept_apart_comment : (stopUnsupported.meaning.statement counting.lowered).1 =
        Code.comment "PWM stop: unsupported pin PB3 (use PA7 or PA4)" ∧
      (Line.comment "PWM stop: unsupported pin PB3 (use PA7 or PA4)").text.toList.getLast? ≠ some '\\' ∧
      counting.lowered.draft.loop.text = "app->count += 1;\n" ∧ C.tokens counting.lowered.draft.loop.text =
        counting.lowered.draft.loop.flatMap fun placed => placed.line.tokens := by
  have written : (stopUnsupported.meaning.statement counting.lowered).1 =
      Code.comment "PWM stop: unsupported pin PB3 (use PA7 or PA4)" := rfl
  obtain ⟨_, _, statements, _, tokens⟩ := counting.lines_kept_apart
  have comments := (statements counting.lowered stopUnsupported).2.2
  rw [written] at comments
  exact ⟨written, (comments _ (List.mem_singleton_self _) _ rfl).2.2, by decide +kernel,
    tokens _ (by simp [Draft.kept])⟩

end Program

end FlipperBlocks
