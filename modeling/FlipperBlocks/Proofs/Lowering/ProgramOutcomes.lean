import FlipperBlocks.Proofs.Lowering.Watching

/-! The outcome of a program.

Blocks are judged in every state, also in those that no program comes to. A watch that lowers blocks only in
drafts that moves lead to changes nothing about a program, and under it the code that is left out is the code
of an input in such a draft. -/
namespace FlipperBlocks

open Lowering

/-- A function is left out by a block if the block has no use for an input that calls it, in a draft that
moves lead to and that leads to the last draft, or if a block in one of its inputs leaves it out. -/
inductive Block.LeavesOut (names : List String) (last : Draft) (function : String) : Phase → Block → Prop
  | idle {phase head values bodies} : Site.LeavesOut ⟨head, inputMeanings values, inputMeanings bodies⟩
      (fun c => c.phase = phase ∧ Draft.Moves names {} c.draft) last function →
        LeavesOut names last function phase (.mk head values bodies)
  | value {phase head values bodies input first rest} : (input, first :: rest) ∈ values →
    LeavesOut names last function phase first → LeavesOut names last function phase (.mk head values bodies)
  | body {phase head values bodies input chain block} : (input, chain) ∈ bodies → block ∈ chain →
    LeavesOut names last function (head.kind.bodyPhase input phase) block →
      LeavesOut names last function phase (.mk head values bodies)

/-- Some block in the block or in its inputs holds another block in an input that it has no use for. -/
def Block.HoldsIdle (block : Block) : Prop :=
  ∃ part ∈ block.parts, ∃ input ∈ part.head.kind.idleInputs, ∃ inner others,
    part.values.get? input = some (inner :: others)

section

variable {names : List String} {outcome : Outcome} {phase : Phase}

theorem Block.LeavesOut.holdsIdle {last : Draft} {function : String} {block : Block}
    (left : block.LeavesOut names last function phase) : block.HoldsIdle := by
  induction left with
  | @idle _ head values bodies left =>
    obtain ⟨input, idle, _, ⟨_, _, found, _⟩, _⟩ := left
    obtain ⟨_ | ⟨inner, others⟩, there, same⟩ :=
      Option.map_eq_some_iff.1 ((Block.get?_values (.mk head values bodies) input).symm.trans found)
    · contradiction
    · exact ⟨_, Block.mem_parts_mk.2 (.inl rfl), input, idle, inner, others, there⟩
  | value member _ ih =>
    obtain ⟨part, inside, holds⟩ := ih
    exact ⟨part, Block.mem_parts_mk.2 (.inr ⟨_, List.mem_append_left _ member, _, List.mem_cons_self, inside⟩), holds⟩
  | body member among _ ih =>
    obtain ⟨part, inside, holds⟩ := ih
    exact ⟨part, Block.mem_parts_mk.2 (.inr ⟨_, List.mem_append_right _ member, _, among, inside⟩), holds⟩

open Classical in
private noncomputable def ifReached (names : List String) (_ : BlockHead) (meaning : Meaning) : Meaning :=
  { meaning with
    value := fun wantsText c =>
      if Draft.Moves names {} c.draft then meaning.value wantsText c else (.number "0", c)
    statement := fun c => if Draft.Moves names {} c.draft then meaning.statement c else ([], c) }

private theorem quiet_ifReached : Quiet (.moves names) (ifReached names) :=
  ⟨fun _ _ => rfl, fun _ _ => rfl, fun _ _ _ _ passed => if_pos passed.1, fun _ _ _ passed => if_pos passed.1⟩

private theorem fits_ifReached {meaning : Meaning} (fits : meaning.Fits outcome phase) (head : BlockHead) :
    (ifReached names head meaning).Fits outcome phase := by
  refine ⟨fun wantsText known owed before inPhase => ?_, fun known owed before inPhase => ?_⟩ <;>
    by_cases reached : Draft.Moves names {} before.draft <;> simp only [ifReached, reached, if_true, if_false]
  · exact fits.value wantsText known owed before inPhase
  · exact lowers_literal (.number (by decide)) known owed before inPhase
  · exact fits.statement known owed before inPhase
  · exact Meaning.lowers_chain [] nofun known owed before inPhase

private theorem value_ifReached (block : Block) (wantsText : Bool) {c : Compilation}
    (unreached : ¬ Draft.Moves names {} c.draft) :
    (block.watched (ifReached names)).value wantsText c = (.number "0", c) := by
  obtain ⟨head, values, bodies⟩ := block
  rw [Block.watched]
  exact if_neg unreached

private theorem exists_of_watched {watch : BlockHead → Meaning → Meaning} {inputs : Entries (List Block)}
    {input : String} {chain : List Meaning} (found : Entries.get? (watchedInputs watch inputs) input = some chain) :
    ∃ blocks, inputs.get? input = some blocks ∧ blocks.map (Block.watched watch) = chain := by
  rw [watchedInputs_eq_map, Entries.get?_map] at found
  exact Option.map_eq_some_iff.1 found

private def Block.Sound (names : List String) (outcome : Outcome) (block : Block) : Prop :=
  (∀ part ∈ block.parts, part.head.variableNames ⊆ names) → ∀ phase,
    (∀ function, block.LeavesOut names outcome.last function phase → outcome.leftOut function) →
      (block.watched (ifReached names)).Fits outcome phase

private theorem sound_mk {head : BlockHead} {values bodies : List (String × List Block)}
    (first : ∀ entry ∈ values, ∀ block ∈ entry.2, block.Sound names outcome)
    (second : ∀ entry ∈ bodies, ∀ block ∈ entry.2, block.Sound names outcome) :
    (Block.mk head values bodies).Sound names outcome := by
  intro listed phase leaves
  have within {entry} (among : entry ∈ values ++ bodies) {inner} (held : inner ∈ entry.2) :
      ∀ part ∈ inner.parts, part.head.variableNames ⊆ names := fun part inside =>
    listed part (Block.mem_parts_mk.2 (.inr ⟨entry, among, inner, held, inside⟩))
  rw [Block.watched]
  refine fits_ifReached (Site.Fits.meaning ⟨?_, ?_, ?_⟩) head
  · intro input meaning rest found
    obtain ⟨_ | ⟨inner, others⟩, there, same⟩ := exists_of_watched found
    · contradiction
    · have member := Entries.mem_of_get? there
      have here : inner ∈ inner :: others := List.mem_cons_self
      rw [← (List.cons.inj same).1]
      exact first _ member inner here (within (List.mem_append_left _ member) here) phase fun function left =>
        leaves function (.value member left)
  · intro input meanings found meaning among
    obtain ⟨chain, there, rfl⟩ := exists_of_watched found
    have member := Entries.mem_of_get? there
    obtain ⟨inner, here, rfl⟩ := List.mem_map.1 among
    exact second _ member inner here (within (List.mem_append_right _ member) here) _ fun function left =>
      leaves function (.body member here left)
  · rintro function ⟨input, idle, value, ⟨meaning, rest, found, c, inPhase, same, leads⟩, called, stream⟩
    obtain ⟨_ | ⟨inner, others⟩, there, equal⟩ := exists_of_watched found
    · contradiction
    rw [← (List.cons.inj equal).1] at same leads
    by_cases reached : Draft.Moves names {} c.draft
    · -- In a draft that is reached the watch changes nothing.
      have related := Accord.watched (Passes.moves.admits quiet_ifReached) inner
        (within (List.mem_append_left _ (Entries.mem_of_get? there)) List.mem_cons_self)
      have agree := ((related.value (head.kind.takesText input) .detached (.of True)).run c reached).1
      have held := Block.get?_values (.mk head values bodies) input
      exact leaves function (.idle ⟨input, idle, value, ⟨inner.meaning, _, held.trans (congrArg _ there), c,
        ⟨inPhase, reached⟩, agree ▸ same, agree ▸ leads⟩, called, stream⟩)
    · have nothing := (@Value.Fits.number outcome.last "0" (by decide)).calls_code
      rw [value_ifReached inner _ reached] at same
      rw [← same, nothing] at called
      exact absurd called List.not_mem_nil

end

namespace Program

def LeavesOut (program : Program) (function : String) : Prop :=
  ∃ root ∈ program.roots, ∃ block ∈ root,
    block.LeavesOut program.variableNames program.lowered.draft function .detached

def outcome (program : Program) : Outcome := ⟨program.lowered.draft, program.LeavesOut⟩

private theorem lowers_watched {outcome : Outcome} {phase : Phase} {watch : BlockHead → Meaning → Meaning} :
    ∀ (index : Nat) (roots : List Chain),
      (∀ root ∈ roots, ∀ block ∈ root, (block.watched watch).Fits outcome .detached) → ∀ known owed,
        Lowers outcome phase known owed (lowerWatched watch index roots) (fun _ => True) fun _ => owed
  | _, [], _, _, _ => .pure (fun _ => trivial) fun _ _ => .inl
  | index, root :: rest, fits, _, _ => by
    have chain : ∀ meaning ∈ watchedChain watch root, meaning.Fits outcome .detached := by
      rw [watchedChain_eq_map]
      exact List.forall_mem_map.2 fun block there => fits root List.mem_cons_self block there
    exact .bind (Meaning.lowers_looseChain index chain _ _) fun _ =>
      lowers_watched (index + 1) rest (fun other member => fits other (List.mem_cons_of_mem _ member)) _ _

theorem lowered_gives (program : Program) :
    Gives program.outcome [] (fun _ : Unit => True) (fun _ => []) {} program.lowered.draft () := by
  have fits : ∀ root ∈ program.roots, ∀ block ∈ root,
      (block.watched (ifReached program.variableNames)).Fits program.outcome .detached := by
    intro root member block there
    refine block.induction (fun _ _ _ => sound_mk) (fun part inside name listed => ?_) _
      fun function left => ⟨root, member, block, there, left⟩
    exact List.mem_flatMap.2 ⟨part, List.mem_flatMap.2 ⟨root, member, mem_chainParts.2 ⟨block, there, inside⟩⟩,
      listed⟩
  have lowers := @lowers_watched program.outcome .detached _ 0 program.roots fits True []
  obtain ⟨_, _, ends⟩ := lowers {} rfl
  rw [program.throughout_moves _ quiet_ifReached] at ends
  exact ends (.refl _) trivial (.empty _)

theorem lowered_sound (program : Program) : program.lowered.draft.Sound program.lowered.draft :=
  program.lowered_gives.sound

theorem lowered_serves (program : Program) : program.outcome.Serves [] program.lowered.draft :=
  program.lowered_gives.serves (.empty _ _)

end Program

end FlipperBlocks
