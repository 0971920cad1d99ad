import FlipperBlocks.Proofs.Lowering.Readiness

/-! Every block, and every program, keeps the draft supplied. -/
namespace FlipperBlocks

variable {names : GivenNames} {watch : BlockHead → Meaning → Meaning}

def Passage.supplied (names : GivenNames) : Passage := fun _ before after =>
  before.draft.Supplied names ∧ after.draft.Supplied names

private theorem SuppliesAlike.exchange {α : Type} {phase : Phase} {known : Fact (.ready names)}
    {post : α → Fact (.ready names)} {a b b' : Lowering α} (alike : SuppliesAlike names phase known post a b)
    (quiet : ∀ c, c.draft.Supplied names ∧ (b c).2.draft.Supplied names → b' c = b c) :
    SuppliesAlike names phase known post a b' := by
  refine ⟨alike.supplies, fun c inPhase supplied facts => ?_⟩
  have same := alike.same c inPhase supplied facts
  have after := (alike.supplies c inPhase supplied facts).supplied
  rw [← same] at after ⊢
  exact quiet c ⟨supplied, after⟩

theorem Quiet.admits (quiet : Quiet (.supplied names) watch) : (Supplies.accord names).Admits watch := by
  intro head values values' bodies bodies' listed first second
  have related := Accord.meaning listed first second
  let other : Meaning := Site.meaning ⟨head, values', bodies'⟩
  refine ⟨(quiet.kind head other).symm, (quiet.id head other).symm, fun wantsText phase known => ?_,
    fun phase known => ?_⟩
  · exact (related.value wantsText phase known).exchange (quiet.value head other wantsText)
  · exact (related.statement phase known).exchange (quiet.statement head other)

namespace Program

def givenNames (program : Program) : GivenNames where
  ofVariables := program.variableNames
  ofSymbols := program.parts.flatMap fun block => block.head.symbolNames

theorem listed_part {program : Program} {part : Block} (among : part ∈ program.parts) :
    part.head.Listed program.givenNames where
  variableNames _ member := List.mem_flatMap.2 ⟨part, among, member⟩
  symbolNames _ member := List.mem_flatMap.2 ⟨part, among, member⟩

private theorem supplies_lower (program : Program) (quiet : Quiet (.supplied program.givenNames) watch) :
    SuppliesAlike program.givenNames .detached (.of True) (fun _ => .of True) program.lower
      (lowerWatched watch 0 program.roots) :=
  Accord.lowerWatched quiet.admits 0 program.roots fun _ => listed_part

/-- All the time while a program is lowered, its draft is supplied. -/
theorem throughout_supplied (program : Program) : program.Throughout (.supplied program.givenNames) :=
  fun _ quiet => (program.supplies_lower quiet).same {} rfl .empty trivial

theorem supplied_lowered (program : Program) : program.lowered.draft.Supplied program.givenNames :=
  ((program.supplies_lower (.still _)).supplies {} rfl .empty trivial).supplied

end Program

end FlipperBlocks
