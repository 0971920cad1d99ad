import FlipperBlocks.Proofs.Lowering.Blocks
import FlipperBlocks.Proofs.Lowering.Twins

/-! Watching the blocks of a program while it is lowered.

Lowering comes to the blocks of a program again and again, and some of what it does is undone. What holds
all the time is told by a watch over every block: one that stays quiet as long as it holds changes
nothing, whatever it would do otherwise. -/
namespace FlipperBlocks

open Lowering

mutual

def Block.parts : Block → List Block
  | .mk head values bodies => .mk head values bodies :: (inputParts values ++ inputParts bodies)

def chainParts : List Block → List Block
  | [] => []
  | block :: rest => block.parts ++ chainParts rest

def inputParts : List (String × List Block) → List Block
  | [] => []
  | (_, chain) :: rest => chainParts chain ++ inputParts rest

end

mutual

def Block.watched (watch : BlockHead → Meaning → Meaning) : Block → Meaning
  | .mk head values bodies =>
    watch head (Site.meaning ⟨head, watchedInputs watch values, watchedInputs watch bodies⟩)

def watchedChain (watch : BlockHead → Meaning → Meaning) : List Block → List Meaning
  | [] => []
  | block :: rest => block.watched watch :: watchedChain watch rest

def watchedInputs (watch : BlockHead → Meaning → Meaning) :
    List (String × List Block) → List (String × List Meaning)
  | [] => []
  | (name, chain) :: rest => (name, watchedChain watch chain) :: watchedInputs watch rest

end

/-- What lowering a block may do: the block, and the compilations before and after. -/
abbrev Passage := BlockHead → Compilation → Compilation → Prop

structure Quiet (passage : Passage) (watch : BlockHead → Meaning → Meaning) : Prop where
  kind : ∀ head meaning, (watch head meaning).kind = meaning.kind
  id : ∀ head meaning, (watch head meaning).id = meaning.id
  value : ∀ head meaning wantsText c, passage head c (meaning.value wantsText c).2 →
    (watch head meaning).value wantsText c = meaning.value wantsText c
  statement : ∀ head meaning c, passage head c (meaning.statement c).2 →
    (watch head meaning).statement c = meaning.statement c

namespace Program

def lowerWatched (watch : BlockHead → Meaning → Meaning) (index : Nat) : List Chain → Lowering Unit
  | [] => return
  | root :: rest => do
    Meaning.looseChain index (watchedChain watch root)
    lowerWatched watch (index + 1) rest

/-- Every time that lowering a program comes to one of its blocks, however deep, and leaves it again,
the passage is as told: a watch that is quiet about such passages has no effect at all. -/
def Throughout (program : Program) (passage : Passage) : Prop :=
  ∀ watch, Quiet passage watch → lowerWatched watch 0 program.roots {} = program.lower {}

def parts (program : Program) : List Block := program.roots.flatMap chainParts

def variableNames (program : Program) : List String :=
  program.parts.flatMap fun block => block.head.variableNames

end Program

variable {names : List String} {passage : Passage} {watch : BlockHead → Meaning → Meaning}

theorem watchedChain_eq_map (chain : List Block) :
    watchedChain watch chain = chain.map (Block.watched watch) := by
  induction chain with
  | nil => rw [watchedChain, List.map_nil]
  | cons block rest ih => rw [watchedChain, ih, List.map_cons]

theorem watchedInputs_eq_map (inputs : List (String × List Block)) : watchedInputs watch inputs =
      inputs.map fun entry => (entry.1, entry.2.map (Block.watched watch)) := by
  induction inputs with
  | nil => rw [watchedInputs, List.map_nil]
  | cons entry rest ih => rw [watchedInputs, ih, watchedChain_eq_map, List.map_cons]

theorem mem_chainParts {chain : List Block} {part : Block} :
    part ∈ chainParts chain ↔ ∃ block ∈ chain, part ∈ block.parts := by
  induction chain with
  | nil => simp [chainParts]
  | cons block rest ih => simp [chainParts, ih]

private theorem mem_inputParts {inputs : List (String × List Block)} {part : Block} :
    part ∈ inputParts inputs ↔ ∃ entry ∈ inputs, ∃ block ∈ entry.2, part ∈ block.parts := by
  induction inputs with
  | nil => simp [inputParts]
  | cons entry rest ih => simp [inputParts, mem_chainParts, ih]

theorem Block.mem_parts_mk {head : BlockHead} {values bodies : List (String × List Block)}
    {part : Block} : part ∈ (Block.mk head values bodies).parts ↔ part = .mk head values bodies ∨
        ∃ entry ∈ values ++ bodies, ∃ block ∈ entry.2, part ∈ block.parts := by
  rw [parts, List.mem_cons, List.mem_append, mem_inputParts, mem_inputParts]
  simp only [List.mem_append, or_and_right, exists_or]

theorem Block.parts_subset {block part : Block} (among : part ∈ block.parts) : part.parts ⊆ block.parts := by
  revert among
  refine @Block.induction (fun block => part ∈ block.parts → part.parts ⊆ block.parts) ?_ block
  intro head values bodies first second among inner member
  rcases mem_parts_mk.1 among with rfl | ⟨entry, there, block, held, inside⟩
  · exact member
  · refine mem_parts_mk.2 (.inr ⟨entry, there, block, held, ?_⟩)
    rcases List.mem_append.1 there with value | body
    · exact first entry value block held inside member
    · exact second entry body block held inside member

theorem Program.parts_subset {program : Program} {part : Block} (among : part ∈ program.parts) :
    part.parts ⊆ program.parts := by
  obtain ⟨root, there, inside⟩ := List.mem_flatMap.1 among
  obtain ⟨block, held, within⟩ := mem_chainParts.1 inside
  exact fun inner member => List.mem_flatMap.2 ⟨root, there, mem_chainParts.2
    ⟨block, held, Block.parts_subset within member⟩⟩

/-! What lowering does under a quiet watch. -/

def Passage.moves (names : List String) : Passage := fun _ before after =>
  Draft.Moves names {} before.draft ∧ Draft.Moves names before.draft after.draft

/-- Whatever the inputs of a block agree with, lowering passes the block as told. -/
structure Passes (names : List String) (passage : Passage) : Prop where
  value : ∀ (twins : Twins names) (c : Compilation) (wantsText : Bool),
    Draft.Moves names {} c.draft → passage twins.head c (twins.second.asValue wantsText c).2
  statement : ∀ (twins : Twins names) (c : Compilation),
    Draft.Moves names {} c.draft → passage twins.head c (twins.second.asStatement c).2

theorem Passes.moves : Passes names (.moves names) where
  value twins c wantsText reached := ⟨reached, ((twins.asValue wantsText).run c reached).2⟩
  statement twins c reached := ⟨reached, (twins.asStatement.run c reached).2⟩

/-- A watch under which blocks still hand a relation on. -/
def Accord.Admits {rules : Rules} (A : Accord rules) (watch : BlockHead → Meaning → Meaning) : Prop :=
  ∀ (head : BlockHead) (values values' bodies bodies' : Entries (List Meaning)), A.Listed head →
    InputsRelated A values values' → InputsRelated A bodies bodies' →
      Meaning.Related A (Site.meaning ⟨head, values, bodies⟩) (watch head (Site.meaning ⟨head, values', bodies'⟩))

namespace Accord

variable {rules : Rules} {A : Accord rules} {phase : Phase} {known : Fact rules}

theorem watchedChain {chain : List Block}
    (each : ∀ block ∈ chain, Meaning.Related A block.meaning (block.watched watch)) :
    List.Forall₂ (Meaning.Related A) (chainMeanings chain) (FlipperBlocks.watchedChain watch chain) := by
  rw [chainMeanings_eq_map, watchedChain_eq_map, List.forall₂_map_left_iff, List.forall₂_map_right_iff,
    List.forall₂_same]
  exact each

private theorem watchedInputs {inputs : List (String × List Block)}
    (each : ∀ entry ∈ inputs, ∀ block ∈ entry.2, Meaning.Related A block.meaning (block.watched watch)) :
    InputsRelated A (inputMeanings inputs) (FlipperBlocks.watchedInputs watch inputs) := by
  induction inputs with
  | nil => exact .nil
  | cons entry rest ih =>
    obtain ⟨here, later⟩ := List.forall_mem_cons.1 each
    exact .cons ⟨rfl, watchedChain here⟩ (ih later)

theorem watched (admits : A.Admits watch) (block : Block) (listed : ∀ part ∈ block.parts, A.Listed part.head) :
    Meaning.Related A block.meaning (block.watched watch) := by
  revert listed
  refine @Block.induction (fun block => (∀ part ∈ block.parts, A.Listed part.head) →
    Meaning.Related A block.meaning (block.watched watch)) ?_ block
  intro head values bodies first second listed
  have inner {inputs} (among : inputs ⊆ values ++ bodies) (ih : ∀ entry ∈ inputs, ∀ block ∈ entry.2,
      (∀ part ∈ block.parts, A.Listed part.head) → Meaning.Related A block.meaning (block.watched watch)) :=
    watchedInputs fun entry member block held => ih entry member block held fun part inside =>
      listed part (Block.mem_parts_mk.2 (.inr ⟨entry, among member, block, held, inside⟩))
  rw [Block.meaning, Block.watched]
  exact admits _ _ _ _ _ (listed _ (Block.mem_parts_mk.2 (.inl rfl))) (inner (List.subset_append_left ..) first)
    (inner (List.subset_append_right ..) second)

theorem lowerWatched (admits : A.Admits watch) (index : Nat) (roots : List Chain)
    (listed : ∀ part ∈ roots.flatMap chainParts, A.Listed part.head) :
    A.holds phase known (fun _ => .of True) (Program.lowerFrom index roots)
      (Program.lowerWatched watch index roots) := by
  induction roots generalizing index known with
  | nil => exact A.pure fun _ _ => trivial
  | cons root rest ih =>
    rw [List.flatMap_cons] at listed
    refine A.bind (Meaning.related_looseChain index (watchedChain fun block member => ?_)) fun _ =>
      ih (index + 1) fun part among => listed part (List.mem_append_right _ among)
    exact watched admits block fun part among =>
      listed part (List.mem_append_left _ (mem_chainParts.2 ⟨block, member, among⟩))

end Accord

theorem Passes.admits (passes : Passes names passage) (quiet : Quiet passage watch) :
    (Agree.accord names).Admits watch := by
  intro head values values' bodies bodies' listed first second
  let twins : Twins names := ⟨head, values, bodies, values', bodies', first, second, listed⟩
  refine ⟨(quiet.kind head twins.second.meaning).symm, (quiet.id head twins.second.meaning).symm,
    fun wantsText _ _ => ?_, fun _ _ => ?_⟩
  · refine ⟨(twins.asValue wantsText).isLocal, fun c reached => ?_⟩
    rw [quiet.value _ _ wantsText c (passes.value twins c wantsText reached)]
    exact (twins.asValue wantsText).run c reached
  · refine ⟨twins.asStatement.isLocal, fun c reached => ?_⟩
    rw [quiet.statement _ _ c (passes.statement twins c reached)]
    exact twins.asStatement.run c reached

theorem Quiet.still (passage : Passage) : Quiet passage fun _ meaning => meaning :=
  ⟨fun _ _ => rfl, fun _ _ => rfl, fun _ _ _ _ _ => rfl, fun _ _ _ _ => rfl⟩

theorem Block.exists_twins (block : Block) (listed : ∀ part ∈ block.parts, part.head.variableNames ⊆ names) :
    ∃ twins : Twins names, twins.first = block.site := by
  obtain ⟨head, values, bodies⟩ := block
  have related {inputs} (among : inputs ⊆ values ++ bodies) :
      InputsRelated (Agree.accord names) (inputMeanings inputs) _ :=
    Accord.watchedInputs fun entry member block held =>
      Accord.watched (Passes.moves.admits (.still _)) block fun part inside =>
        listed part (mem_parts_mk.2 (.inr ⟨entry, among member, block, held, inside⟩))
  exact ⟨⟨head, _, _, _, _, related (List.subset_append_left ..), related (List.subset_append_right ..),
    listed _ (mem_parts_mk.2 (.inl rfl))⟩, rfl⟩

namespace Program

private theorem agree_lower (program : Program) (passes : Passes program.variableNames passage)
    (quiet : Quiet passage watch) :
    Agree program.variableNames program.lower (lowerWatched watch 0 program.roots) :=
  @Accord.lowerWatched watch _ _ .detached (.of True) (passes.admits quiet) 0 program.roots fun _ among _ member =>
    List.mem_flatMap.2 ⟨_, among, member⟩

/-- What every block is passed with holds throughout. -/
theorem throughout_of_passes {program : Program} (passes : Passes program.variableNames passage) :
    program.Throughout passage := fun _ quiet =>
  ((program.agree_lower passes quiet).run {} (.refl _)).1.symm

theorem throughout_moves (program : Program) : program.Throughout (.moves program.variableNames) :=
  throughout_of_passes .moves

theorem Throughout.imp {program : Program} {strong weak : Passage} (all : program.Throughout strong)
    (step : ∀ head before after, strong head before after → weak head before after) :
    program.Throughout weak := fun watch quiet => by
  refine all watch ⟨quiet.kind, quiet.id, ?_, ?_⟩
  · intro head meaning wantsText c passed
    exact quiet.value head meaning wantsText c (step _ _ _ passed)
  · intro head meaning c passed
    exact quiet.statement head meaning c (step _ _ _ passed)

theorem moves_lowered (program : Program) : Draft.Moves program.variableNames {} program.lowered.draft := by
  obtain ⟨same, moves⟩ := (program.agree_lower .moves (.still _)).run {} (.refl _)
  rw [← same] at moves
  exact moves

end Program

end FlipperBlocks
