import FlipperBlocks.Proofs.Lowering.Watching

/-! Lowering only adds.

Steps are undone, phases change and the way to the current block grows and shrinks while a block is
lowered. Seen from outside, all that was there before is there afterwards, in the same order, and the
compilation stands where it stood. -/
namespace FlipperBlocks

open Lowering

def Draft.sections (draft : Draft) : List C.Code := [draft.setup, draft.draw, draft.input, draft.loop]

/-- All that the first compilation holds and tells, the second one does too, and it stands at the same
place. -/
structure Compilation.Extends (before after : Compilation) : Prop where
  draft : before.draft.Extends after.draft
  answers : before.draft.Settles after.draft
  sections : List.Forall₂ (fun first second => first.text.toList <+: second.text.toList)
    before.draft.sections after.draft.sections
  diagnostics : before.diagnostics <+: after.diagnostics
  phase : after.phase = before.phase
  steps : after.steps = before.steps

variable {α : Type} {names : List String}

private theorem text_grows {a b : C.Code} (grown : a <+: b) : a.text.toList <+: b.text.toList := by
  obtain ⟨added, rfl⟩ := grown
  rw [C.Code.text_append, String.toList_append]
  exact List.prefix_append _ _

theorem Draft.Extends.sections {a b : Draft} (grown : a.Extends b) :
    List.Forall₂ (fun first second => first.text.toList <+: second.text.toList) a.sections b.sections :=
  .cons (text_grows grown.setup) <| .cons (text_grows grown.draw) <|
    .cons (text_grows grown.input) <| .cons (text_grows grown.loop) .nil

namespace Agree

variable {a b : Lowering α}

theorem moves (agree : Agree names a b) {c : Compilation} (reached : Draft.Moves names {} c.draft) :
    Draft.Moves names c.draft (a c).2.draft := by
  obtain ⟨same, moves⟩ := agree.run c reached
  rw [same]
  exact moves

/-- A step that goes by moves and sees the draft and the phase only adds to a compilation. -/
theorem appends (agree : Agree names a b) {c : Compilation}
    (reached : Draft.Moves names {} c.draft) : c.Extends (a c).2 where
  draft := (agree.moves reached).extends
  answers := (agree.moves reached).settles
  sections := (agree.moves reached).extends.sections
  diagnostics := agree.isLocal.diagnostics_grow c
  phase := agree.isLocal.phase_eq c
  steps := agree.isLocal.steps_eq c

end Agree

/-! Blocks and chains, whatever their variables are. -/

def Block.variableNames (block : Block) : List String :=
  block.parts.flatMap fun part => part.head.variableNames

theorem Block.agree_still (block : Block) (listed : block.variableNames ⊆ names) :
    block.meaning.Agree names (block.watched fun _ meaning => meaning) :=
  Accord.watched (Passes.moves.admits (.still _)) block fun part among _ member =>
    listed (List.mem_flatMap.2 ⟨part, among, member⟩)

theorem Chain.agree_lower (chain : Chain)
    (listed : ∀ block ∈ (chain : List Block), block.variableNames ⊆ names) :
    ∃ other, Agree names chain.lower other := by
  exact ⟨_, @Meaning.related_chain _ (Agree.accord names) .detached (.of True) _ _
    (Accord.watchedChain fun block member => block.agree_still (listed block member))⟩

section

variable {c : Compilation} (reached : c.draft.Reached)

include reached

private theorem reached_with (more : List String) : ∃ names, more ⊆ names ∧ Draft.Moves names {} c.draft := by
  obtain ⟨names, moves⟩ := reached
  exact ⟨names ++ more, List.subset_append_right _ _, moves.mono (List.subset_append_left _ _)⟩

theorem Block.extends_statement (block : Block) : c.Extends (block.meaning.statement c).2 := by
  obtain ⟨names, listed, moves⟩ := reached_with reached block.variableNames
  exact ((block.agree_still listed).statement .detached (.of True)).appends moves

theorem Block.extends_value (block : Block) (wantsText : Bool) :
    c.Extends (block.meaning.value wantsText c).2 := by
  obtain ⟨names, listed, moves⟩ := reached_with reached block.variableNames
  exact ((block.agree_still listed).value wantsText .detached (.of True)).appends moves

theorem Chain.extends_lower (chain : Chain) : c.Extends (chain.lower c).2 := by
  obtain ⟨names, listed, moves⟩ := reached_with reached (List.flatMap Block.variableNames chain)
  have each (block) (member : block ∈ (chain : List Block)) : block.variableNames ⊆ names :=
    fun _ among => listed (List.mem_flatMap.2 ⟨block, member, among⟩)
  obtain ⟨other, agree⟩ := chain.agree_lower each
  exact agree.appends moves

end

namespace Program

/-- Every compilation in which lowering a program comes to one of its blocks is reached, and from any
that is reached, a block as a statement or as a value, and a chain of blocks, only add to it. -/
theorem lowering_appends (program : Program) :
    (program.Throughout fun _ before after => before.draft.Reached ∧ after.draft.Reached) ∧
      ∀ c : Compilation, c.draft.Reached → (∀ block : Block, c.Extends (block.meaning.statement c).2 ∧
          ∀ wantsText, c.Extends (block.meaning.value wantsText c).2) ∧
        ∀ chain : Chain, c.Extends (chain.lower c).2 := by
  refine ⟨?_, fun c reached => ⟨fun block => ?_, fun chain => ?_⟩⟩
  · refine program.throughout_moves.imp fun head before after passed => ?_
    exact ⟨⟨_, passed.1⟩, ⟨_, passed.1.trans passed.2⟩⟩
  · exact ⟨block.extends_statement reached, block.extends_value reached⟩
  · exact chain.extends_lower reached

private def countHead (kind : BlockKind) : BlockHead where
  kind := kind
  fields := [("VAR", .text "count")]

def counting : Program := ⟨[[.mk { kind := .app } [] [("LOOP", [.mk (countHead .changeVariable) [] []])]]]⟩

def showCount : Block := .mk { kind := .numberToText } [("NUMBER", [.mk (countHead .getVariable) [] []])] []

theorem lowering_appends_after_counting : (counting.lowered.draft.storage.map Storage.name,
      (showCount.meaning.value true counting.lowered).2.draft.storage.map Storage.name) =
        (["count"], ["count", "num_str_0"]) ∧
      counting.lowered.Extends (showCount.meaning.value true counting.lowered).2 := by
  have reached : counting.lowered.draft.Reached := ⟨_, counting.moves_lowered⟩
  exact ⟨by decide +kernel, ((counting.lowering_appends.2 _ reached).1 showCount).2 true⟩

end Program

end FlipperBlocks
