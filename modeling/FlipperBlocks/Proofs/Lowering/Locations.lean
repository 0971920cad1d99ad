import FlipperBlocks.Proofs.Application.Writing
import FlipperBlocks.Proofs.Lowering.CongruentPrograms

/-! Where diagnostics point.

A path is read back into its segments, and these are followed from the roots of the program from block to
block. The path of a diagnostic leads to the block that the diagnostic is about. -/
namespace FlipperBlocks

open Lowering

namespace Location

def cut : List Char → List Char → List (List Char)
  | word, ' ' :: '>' :: ' ' :: rest => word.reverse :: cut [] rest
  | word, c :: rest => cut (c :: word) rest
  | word, [] => [word.reverse]

def segmentsIn (path : String) : List String := (cut [] path.toList).map String.ofList

private theorem cut_cons {word tail : List Char} {c : Char} (plain : ∀ rest, tail ≠ '>' :: rest) :
    cut word (c :: tail) = cut (c :: word) tail := by
  rw [cut]
  intro rest _ same
  exact plain _ same

private theorem cut_append {segment : List Char} (plain : '>' ∉ segment) (word rest : List Char)
    (apart : ∀ more, rest ≠ '>' :: more) :
    cut word (segment ++ rest) = cut (segment.reverse ++ word) rest := by
  induction segment generalizing word with
  | nil => rfl
  | cons c segment ih =>
    have later : ∀ more, segment ++ rest ≠ '>' :: more := by
      intro more same
      cases segment with
      | nil => exact apart more same
      | cons d segment =>
        injection same with first _
        exact plain (by simp [first])
    rw [List.cons_append, cut_cons later, ih (fun member => plain (List.mem_cons_of_mem _ member))]
    simp

private theorem cut_separator (word rest : List Char) :
    cut word (" > ".toList ++ rest) = word.reverse :: cut [] rest := rfl

private theorem cut_intercalate {segments : List (List Char)} (nonempty : segments ≠ [])
    (plain : ∀ segment ∈ segments, '>' ∉ segment) :
    cut [] (" > ".toList.intercalate segments) = segments := by
  induction segments with
  | nil => contradiction
  | cons segment rest ih =>
    have here := plain segment List.mem_cons_self
    cases rest with
    | nil =>
      have whole := cut_append here [] [] (by simp)
      simpa [cut] using whole
    | cons next rest =>
      have others := ih (by simp) fun other member => plain other (List.mem_cons_of_mem _ member)
      rw [List.intercalate_cons_cons, List.append_assoc, cut_append here _ _ (by simp),
        cut_separator, others, List.append_nil, List.reverse_reverse]

/-- A path is read back into the segments that it was made of. -/
theorem segmentsIn_path {location : Location} (nonempty : location.segments ≠ [])
    (plain : ∀ segment ∈ location.segments, '>' ∉ segment.toList) :
    segmentsIn location.path = location.segments := by
  have letters : cut [] (" > ".toList.intercalate (location.segments.map String.toList)) =
      location.segments.map String.toList :=
    cut_intercalate (by simpa using nonempty) (by simpa using plain)
  rw [segmentsIn, path, String.toList_intercalate, letters, List.map_map]
  simp

end Location

def Place.trail (place : Place) : List String → Option (List Block)
  | [] => some []
  | segment :: rest =>
    match place.onward segment with
    | [] => none
    | inner :: others => ((Place.here inner others).trail rest).map (inner :: ·)

def Program.trail (program : Program) (path : String) : Option (List Block) :=
  (Place.top program.roots).trail (Location.segmentsIn path)

def Place.start : Place → List Block
  | top _ => []
  | here block _ => [block]

/-- Steps that lead from a place to a block, each with the id of the block that it leads to. -/
inductive Place.Reaches : Place → List Step → Block → Prop
  | here (block : Block) (rest : List Block) : Reaches (.here block rest) [] block
  | onward {place : Place} {segment : String} {inner target : Block} {others : List Block}
    {way : List Step} : '>' ∉ segment.toList → place.onward segment = inner :: others →
      Reaches (.here inner others) way target →
        Reaches place (⟨segment, inner.head.id⟩ :: way) target

namespace Place.Reaches

variable {place : Place} {way : List Step} {target : Block}

theorem plain (reaches : place.Reaches way target) :
    ∀ segment ∈ way.map Step.segment, '>' ∉ segment.toList := by
  induction reaches with
  | here => exact List.forall_mem_nil _
  | onward plain _ _ ih => exact List.forall_mem_cons.2 ⟨plain, ih⟩

/-- The way leads through blocks with the ids that its steps tell, and ends at the last of them. -/
theorem trail_eq (reaches : place.Reaches way target) :
    ∃ blocks, place.trail (way.map Step.segment) = some blocks ∧
      way.map Step.block = blocks.map (fun block => block.head.id) ∧
      (place.start ++ blocks).getLast? = some target := by
  induction reaches with
  | here block rest => exact ⟨[], rfl, rfl, rfl⟩
  | @onward place segment inner target others way _ leads _ ih =>
    obtain ⟨blocks, trail, ids, last⟩ := ih
    refine ⟨inner :: blocks, ?_, ?_, ?_⟩
    · rw [List.map_cons, Place.trail, leads]
      dsimp only
      rw [trail, Option.map_some]
    · rw [List.map_cons, List.map_cons, ids]
    · have inside : (inner :: blocks).getLast? = some target := last
      rw [List.getLast?_append, inside, Option.some_or]

end Place.Reaches

/-- A step of lowering that goes back to where it came from, and records degradations of blocks that it
reaches from there. -/
def Lowering.Locates {α : Type} (place : Place) (action : Lowering α) : Prop :=
  ∀ c : Compilation, (action c).2.steps = c.steps ∧ ∃ notes : List Note,
    (action c).2.diagnostics = c.diagnostics ++ notes.map (Note.seenFrom c.steps) ∧
      ∀ note ∈ notes, ∃ target, place.Reaches note.way.reverse target ∧
        note.degradation.Suits target

namespace Lowering.Locates

variable {α β : Type} {place : Place} {action : Lowering α}

theorem of_silent (steps : ∀ c, (action c).2.steps = c.steps)
    (silent : ∀ c, (action c).2.diagnostics = c.diagnostics) : Locates place action := by
  refine fun c => ⟨steps c, [], ?_, List.forall_mem_nil _⟩
  rw [silent, List.map_nil, List.append_nil]

theorem bind {next : α → Lowering β} (first : Locates place action)
    (second : ∀ x, Locates place (next x)) : Locates place (action >>= next) := by
  intro c
  obtain ⟨steps, notes, added, located⟩ := first c
  obtain ⟨stepsOn, more, addedOn, locatedOn⟩ := second (action c).1 (action c).2
  refine ⟨stepsOn.trans steps, notes ++ more, ?_, ?_⟩
  · change (next (action c).1 (action c).2).2.diagnostics = _
    rw [addedOn, added, steps, List.map_append, List.append_assoc]
  · exact List.forall_mem_append.2 ⟨located, locatedOn⟩

theorem degrade {block : Block} {rest : List Block} {degradation : Degradation}
    (suits : degradation.Suits block) : Locates (.here block rest) (Lowering.degrade degradation) := by
  refine fun c => ⟨rfl, [⟨degradation, []⟩], rfl, ?_⟩
  exact List.forall_mem_singleton.2 ⟨block, .here block rest, suits⟩

theorem within {segment : String} {inner : Block} {others : List Block}
    (plain : '>' ∉ segment.toList) (leads : place.onward segment = inner :: others)
    (located : Locates (.here inner others) action) :
    Locates place (Lowering.within ⟨segment, inner.head.id⟩ action) := by
  intro c
  obtain ⟨steps, notes, added, targets⟩ := located { c with steps := ⟨segment, inner.head.id⟩ :: c.steps }
  rw [run_within]
  refine ⟨?_, notes.map fun note => ⟨note.degradation, note.way ++ [⟨segment, inner.head.id⟩]⟩, ?_, ?_⟩
  · dsimp only
    rw [steps, List.tail_cons]
  · dsimp only
    rw [added, List.map_map]
    simp [Note.seenFrom, Function.comp_def]
  · intro note member
    obtain ⟨old, among, rfl⟩ := List.mem_map.1 member
    obtain ⟨target, reaches, suits⟩ := targets old among
    refine ⟨target, ?_, suits⟩
    rw [List.reverse_append, List.reverse_singleton, List.singleton_append]
    exact .onward plain leads reaches

theorem inPhase (phase : Phase) (located : Locates place action) :
    Locates place (Lowering.inPhase phase action) := by
  intro c
  rw [run_inPhase]
  exact located { c with phase := phase }

theorem tentatively {action : Lowering (Option α)}
    (located : Locates place action) : Locates place (Lowering.tentatively action) := by
  intro c
  obtain ⟨steps, notes, added, targets⟩ := located c
  rw [run_tentatively]
  refine ⟨?_, notes, ?_, targets⟩
  · dsimp only
    split <;> exact steps
  · dsimp only
    split <;> exact added

end Lowering.Locates

def Congruence.locates : Congruence where
  holds _ place _ a _ := Locates place a
  given _ := id
  pure _ := .of_silent (fun _ => rfl) fun _ => rfl
  bind := .bind
  getDraft := .of_silent (fun _ => rfl) fun _ => rfl
  phase := .of_silent (fun _ => rfl) fun _ => rfl
  modifyDraft _ := .of_silent (fun _ => rfl) fun _ => rfl
  degrade := .degrade
  within := .within
  inPhase := .inPhase
  tentatively := .tentatively

namespace Program

/-- The path of a diagnostic leads through blocks of the program to the one that the diagnostic is about.
The id that is reported is that of the last block on the path that has one. -/
theorem trail_of_diagnostic (program : Program) :
    ∀ diagnostic ∈ program.compile.diagnostics.entries, ∃ before target,
      program.trail diagnostic.location.path = some (before ++ [target]) ∧
        (∀ kind ∈ diagnostic.degradation.kind?, kind = target.head.kind.name) ∧ diagnostic.location.block =
          (before ++ [target]).reverse.findSome? fun block => block.head.id := by
  intro diagnostic member
  obtain ⟨_, notes, added, located⟩ := Congruence.locates.lower program {}
  rw [diagnostics_compile] at member
  have recorded : program.lowered.diagnostics = notes.map (Note.seenFrom []) := added
  change diagnostic ∈ program.lowered.diagnostics at member
  rw [recorded] at member
  obtain ⟨note, among, rfl⟩ := List.mem_map.1 member
  obtain ⟨target, reaches, suits⟩ := located note among
  obtain ⟨blocks, trail, ids, last⟩ := reaches.trail_eq
  obtain ⟨before, rfl⟩ := List.getLast?_eq_some_iff.1 last
  have segments : (Note.seenFrom [] note).location.segments =
      note.way.reverse.map Step.segment := by
    rw [List.map_reverse]
    simp [Note.seenFrom, Location.ofSteps]
  have nonempty : (Note.seenFrom [] note).location.segments ≠ [] := by
    rw [segments]
    intro empty
    simp [List.map_eq_nil_iff.1 empty] at ids
  refine ⟨before, target, ?_, ?_, ?_⟩
  · rw [Program.trail, Location.segmentsIn_path nonempty (segments ▸ reaches.plain), segments, trail]
  · intro kind told
    rcases suits with silent | named
    · exact absurd told (by simp [Note.seenFrom, silent])
    · exact (Option.some.inj (named.symm.trans told)).symm
  · calc (Note.seenFrom [] note).location.block
      _ = note.way.findSome? Step.block := by simp [Note.seenFrom, Location.ofSteps]
      _ = (note.way.reverse.map Step.block).reverse.findSome? id := by
        rw [← List.map_reverse, List.reverse_reverse, List.findSome?_map]
        rfl
      _ = (before ++ [target]).reverse.findSome? fun block => block.head.id := by
        rw [ids, ← List.map_reverse, List.findSome?_map]
        rfl

def strayed : Program :=
  ⟨[[.mk { kind := .manifest, id := some "m" } [] []], [.mk { kind := .app, id := some "a" } [] [("LOOP",
      [.mk { kind := .redraw } [] [],
        .mk { kind := .sleep } [("MS", [.mk { kind := .unknown "warp" } [] []])] []])]]]⟩

def strayedDiagnostic : Diagnostic := ⟨.unknownKind "warp", ⟨["blocks[1]", "LOOP", "next", "MS"], some "a"⟩⟩

theorem trail_strayed : strayedDiagnostic ∈ strayed.compile.diagnostics.entries ∧ ∃ before target,
      strayed.trail "blocks[1] > LOOP > next > MS" = some (before ++ [target]) ∧
        "warp" = target.head.kind.name ∧
        some "a" = (before ++ [target]).reverse.findSome? fun block => block.head.id := by
  have member : strayedDiagnostic ∈ strayed.compile.diagnostics.entries := by
    rw [diagnostics_compile]
    decide +kernel
  obtain ⟨before, target, trail, kind, id⟩ := strayed.trail_of_diagnostic strayedDiagnostic member
  exact ⟨member, before, target, trail, kind "warp" rfl, id⟩

end Program

end FlipperBlocks
