import FlipperBlocks.Proofs.Lowering.EnteredCode
import FlipperBlocks.Proofs.Lowering.Watching

/-! Programs keep every ledger, also under a watch: what holds of an empty draft without lines holds of the
draft of a program and its lines. -/
namespace FlipperBlocks

open C (Line)
open Lowering

variable {names : List String} {known : Site → Prop} {ledger : Ledger names known} {phase : Phase}
  {loose : Multiset Line} {watch : BlockHead → Meaning → Meaning}

namespace Block

def watchedSite (watch : BlockHead → Meaning → Meaning) (block : Block) : Site :=
  ⟨block.head, watchedInputs watch block.values, watchedInputs watch block.bodies⟩

theorem watched_eq (block : Block) :
    block.watched watch = watch block.head (block.watchedSite watch).meaning := by
  obtain ⟨head, values, bodies⟩ := block
  rw [watched]
  rfl

private theorem watchedInputs_still {inputs : List (String × List Block)}
    (inside : ∀ entry ∈ inputs, ∀ block ∈ entry.2, block.watched (fun _ meaning => meaning) = block.meaning) :
    watchedInputs (fun _ meaning => meaning) inputs = inputMeanings inputs := by
  rw [watchedInputs_eq_map, inputMeanings_eq_map]
  exact List.map_congr_left fun entry member =>
    congrArg (Prod.mk entry.1) (List.map_congr_left (inside entry member))

theorem watched_still (block : Block) : block.watched (fun _ meaning => meaning) = block.meaning := by
  refine @Block.induction (fun block => block.watched (fun _ meaning => meaning) = block.meaning) ?_ block
  intro head values bodies first second
  rw [watched, Block.meaning, watchedInputs_still first, watchedInputs_still second]

theorem watchedSite_still (block : Block) : block.watchedSite (fun _ meaning => meaning) = block.site := by
  rw [watchedSite, watchedInputs_still fun _ _ inner _ => inner.watched_still,
    watchedInputs_still fun _ _ inner _ => inner.watched_still]
  rfl

private theorem exists_of_get?_watchedInputs {inputs : List (String × List Block)} {input : String}
    {meanings : List Meaning} (found : Entries.get? (watchedInputs watch inputs) input = some meanings) :
    ∃ entry ∈ inputs, meanings = entry.2.map (Block.watched watch) := by
  have member := Entries.mem_of_get? found
  rw [watchedInputs_eq_map] at member
  obtain ⟨entry, there, same⟩ := List.mem_map.1 member
  exact ⟨entry, there, (Prod.mk.inj same).2.symm⟩

/-- A block keeps a ledger under a watch wherever each of its parts does if what is in it does. -/
theorem entered_watched (block : Block) (listed : ∀ part ∈ block.parts, part.head.variableNames ⊆ names)
    (keeps : ∀ part ∈ block.parts, (part.watchedSite watch).Entered ledger →
      (part.watched watch).Entered ledger) :
    (block.watchedSite watch).Entered ledger ∧ (block.watched watch).Entered ledger := by
  revert listed keeps
  refine @Block.induction (fun block => (∀ part ∈ block.parts, part.head.variableNames ⊆ names) →
    (∀ part ∈ block.parts, (part.watchedSite watch).Entered ledger → (part.watched watch).Entered ledger) →
      (block.watchedSite watch).Entered ledger ∧ (block.watched watch).Entered ledger) ?_ block
  intro head values bodies first second listed keeps
  have inside (entry) (member : entry ∈ values ++ bodies) (block) (held : block ∈ entry.2) :
      (block.watched watch).Entered ledger := by
    have among {part : Block} (inner : part ∈ block.parts) : part ∈ (Block.mk head values bodies).parts :=
      mem_parts_mk.2 (.inr ⟨entry, member, block, held, inner⟩)
    rcases List.mem_append.1 member with value | body
    · exact (first entry value block held (fun _ inner => listed _ (among inner))
        fun _ inner => keeps _ (among inner)).2
    · exact (second entry body block held (fun _ inner => listed _ (among inner))
        fun _ inner => keeps _ (among inner)).2
  have own : Block.mk head values bodies ∈ (Block.mk head values bodies).parts := mem_parts_mk.2 (.inl rfl)
  have entered : ((Block.mk head values bodies).watchedSite watch).Entered ledger := by
    refine ⟨?_, ?_, listed _ own⟩
    · intro input meaning rest found
      obtain ⟨entry, there, same⟩ := exists_of_get?_watchedInputs found
      have among : meaning ∈ entry.2.map (Block.watched watch) := by
        rw [← same]
        exact List.mem_cons_self
      obtain ⟨block, held, rfl⟩ := List.mem_map.1 among
      exact inside entry (List.mem_append_left _ there) block held
    · intro input meanings found meaning among
      obtain ⟨entry, there, rfl⟩ := exists_of_get?_watchedInputs found
      obtain ⟨block, held, rfl⟩ := List.mem_map.1 among
      exact inside entry (List.mem_append_right _ there) block held
  exact ⟨entered, keeps _ own entered⟩

theorem entered_part {part : Block} (recorded : known part.site)
    (entered : (part.watchedSite fun _ meaning => meaning).Entered ledger) :
    (part.watched fun _ meaning => meaning).Entered ledger := by
  rw [watchedSite_still] at entered
  rw [watched_still, meaning_eq]
  exact entered.meaning recorded

theorem entered_site (block : Block) (listed : ∀ part ∈ block.parts, part.head.variableNames ⊆ names)
    (recorded : ∀ part ∈ block.parts, known part.site) : block.site.Entered ledger := by
  rw [← watchedSite_still]
  exact (block.entered_watched listed fun part among => entered_part (recorded part among)).1

end Block

namespace Meaning

/-- A block at top level is kept only if it has no code, so that it leaves no line behind. -/
theorem Entered.keeps_loose {meaning : Meaning} (entered : meaning.Entered ledger) :
    ledger.Keeps phase loose meaning.loose (fun _ => True) fun _ => loose := by
  have undone : ledger.Keeps phase loose (tentatively do
      let code ← meaning.statement
      return if code.isEmpty then some () else none) (fun _ => True) fun _ => loose := by
    intro c inPhase reached holds
    obtain ⟨leads, kept, _⟩ := entered.statement phase loose c inPhase reached holds
    have run : (do
        let code ← meaning.statement
        return if code.isEmpty then some () else none : Lowering (Option Unit)) c =
          (if (meaning.statement c).1.isEmpty then some () else none, (meaning.statement c).2) := rfl
    rw [tentatively_of_run run]
    -- Code would leave loose lines, but then the step is undone.
    cases empty : (meaning.statement c).1.isEmpty with
    | true =>
      dsimp only at kept
      rw [List.isEmpty_iff.1 empty, C.Code.lines_nil, zero_add] at kept
      exact ⟨leads, kept, trivial⟩
    | false => exact ⟨⟨.refl _, leads.phase, leads.grown⟩, ledger.undo leads.grown holds kept, trivial⟩
  refine .bind undone fun found _ => ?_
  split
  · exact .degrade rfl
  · exact .returns trivial

theorem entered_followingLoose {chain : List Meaning} (entered : ∀ meaning ∈ chain, meaning.Entered ledger) :
    ledger.Keeps phase loose (followingLoose chain) (fun _ => True) fun _ => loose := by
  induction chain with
  | nil => exact .returns trivial
  | cons next rest ih =>
    obtain ⟨here, later⟩ := List.forall_mem_cons.1 entered
    exact .within (.bind here.keeps_loose fun _ _ => ih later) _

theorem entered_looseChain (index : Nat) {chain : List Meaning}
    (entered : ∀ meaning ∈ chain, meaning.Entered ledger) :
    ledger.Keeps phase loose (looseChain index chain) (fun _ => True) fun _ => loose := by
  cases chain with
  | nil => exact .returns trivial
  | cons first rest =>
    obtain ⟨here, later⟩ := List.forall_mem_cons.1 entered
    refine .within ?_ _
    split
    · exact .degrade rfl
    · exact .inPhase (.bind here.keeps_loose fun _ _ => entered_followingLoose later)

end Meaning

namespace Program

private theorem entered_lowerWatched (index : Nat) {roots : List Chain}
    (listed : ∀ part ∈ roots.flatMap chainParts, part.head.variableNames ⊆ names)
    (keeps : ∀ part ∈ roots.flatMap chainParts, (part.watchedSite watch).Entered ledger →
      (part.watched watch).Entered ledger) :
    ledger.Keeps phase loose (lowerWatched watch index roots) (fun _ => True) fun _ => loose := by
  induction roots generalizing index with
  | nil => exact .returns trivial
  | cons root rest ih =>
    rw [List.flatMap_cons, List.forall_mem_append] at listed keeps
    refine .bind (Meaning.entered_looseChain index fun meaning member => ?_) fun _ _ =>
      ih (index + 1) listed.2 keeps.2
    rw [watchedChain_eq_map] at member
    obtain ⟨block, there, rfl⟩ := List.mem_map.1 member
    have among {part : Block} (inner : part ∈ block.parts) : part ∈ chainParts root :=
      mem_chainParts.2 ⟨block, there, inner⟩
    exact (block.entered_watched (fun part inner => listed.1 part (among inner))
      fun part inner => keeps.1 part (among inner)).2

/-- A ledger that can be opened for an empty draft holds of the draft of a program under a watch. -/
theorem holds_lowerWatched (program : Program) (ledger : Ledger program.variableNames known)
    (keeps : ∀ part ∈ program.parts, (part.watchedSite watch).Entered ledger →
      (part.watched watch).Entered ledger) (empty : ledger.holds {} 0) :
    ledger.holds (lowerWatched watch 0 program.roots {}).2
      (lowerWatched watch 0 program.roots {}).2.draft.lines := by
  have kept : ledger.Keeps ({} : Compilation).phase 0 (lowerWatched watch 0 program.roots)
      (fun _ => True) fun _ => 0 :=
    entered_lowerWatched 0 (fun part among _ member => List.mem_flatMap.2 ⟨part, among, member⟩) keeps
  have holds := (kept {} rfl (.refl _) empty).2.1
  rwa [zero_add] at holds

def HasSite (program : Program) (site : Site) : Prop := ∃ block ∈ program.parts, block.site = site

theorem holds_lowered {program : Program} (ledger : Ledger program.variableNames program.HasSite)
    (empty : ledger.holds {} 0) : ledger.holds program.lowered program.lowered.draft.lines := by
  have holds := program.holds_lowerWatched ledger
    (fun part among => Block.entered_part ⟨part, among, rfl⟩) empty
  rwa [program.throughout_moves _ (.still _)] at holds

end Program

end FlipperBlocks
