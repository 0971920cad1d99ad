import FlipperBlocks.Proofs.Lowering.DeferredReads

/-! Buffers that are filled inside other code.

Out of the drawing, a text is made where it is used, so that one line may fill several buffers. A buffer
that belongs to one read is filled in one way throughout the program, and only the buffers that all files
or all numbers share may get different texts in one line. -/
namespace FlipperBlocks

namespace Draft

def fills (draft : Draft) : List (String × String) :=
  draft.kept.flatMap fun code => code.flatMap fun placed => placed.line.fills

namespace Supplied

variable {names : GivenNames} {draft : Draft} (supplied : draft.Supplied names)

include supplied

theorem permits_of_fills {name text : String} (fills : (name, text) ∈ draft.fills) :
    draft.Permits names .detached (.fill name text) := by
  obtain ⟨code, kept, inside⟩ := List.mem_flatMap.1 fills
  obtain ⟨placed, among, filled⟩ := List.mem_flatMap.1 inside
  exact supplied.permitted code kept placed among _ (C.Line.mem_fills.1 filled)

/-- Storage that is no variable's is filled by the reads that have its slot. -/
theorem exists_read_of_fills {name text : String} (fills : (name, text) ∈ draft.fills)
    (own : name ∉ names.ofVariables) : ∃ read : Read, draft.slots.get? read.key = some name ∧
      (∀ e ∈ read.inputs, e.Holds C.Atom.Spelled) ∧ text = (read.action name).code :=
  (supplied.permits_of_fills fills).resolve_left fun ofVariable => own ofVariable.1

theorem isShared_iff_of_told {read : Read} {name : String}
    (told : draft.slots.get? read.key = some name) : read.isShared = true ↔ SharedName name := by
  obtain ⟨known, key, _, named, _⟩ := supplied.slots _ _ told
  rw [named.sharedName_iff, (Read.sort_eq_of_key key).2.1]

/-- Two fills of one buffer are alike, or the buffer is shared and both are by reads of one kind. -/
theorem eq_or_shared_of_fills {name text other : String} (first : (name, text) ∈ draft.fills)
    (second : (name, other) ∈ draft.fills) (own : name ∉ names.ofVariables) :
    text = other ∨ SharedName name ∧ ∃ read again : Read, read.isShared = true ∧
      read.stem = again.stem ∧ text = (read.action name).code ∧ other = (again.action name).code := by
  obtain ⟨read, told, spelled, rfl⟩ := supplied.exists_read_of_fills first own
  obtain ⟨again, toldToo, spelledToo, rfl⟩ := supplied.exists_read_of_fills second own
  obtain ⟨stem, _, alike⟩ := supplied.alike_of_told told toldToo spelled spelledToo
  cases sort : read.isShared with
  | false => exact .inl (alike sort)
  | true => exact .inr ⟨(supplied.isShared_iff_of_told told).1 sort, read, again, sort, stem, rfl, rfl⟩

end Supplied

end Draft

namespace Program

/-- A buffer that is no variable's is filled in one way by all code of a program, unless it is shared.
What a shared buffer is filled by are reads of one kind. -/
theorem buffers_filled_alike (program : Program) {name text other : String}
    (first : (name, text) ∈ program.lowered.draft.fills)
    (second : (name, other) ∈ program.lowered.draft.fills) (own : name ∉ program.variableNames) :
    text = other ∨ SharedName name ∧ ∃ read again : Read, read.isShared = true ∧
      read.stem = again.stem ∧ text = (read.action name).code ∧ other = (again.action name).code :=
  program.supplied_lowered.eq_or_shared_of_fills first second own

private def pinState (pin : String) : Block := .mk { kind := .readPin, fields := [("PIN", .text pin)] } [] []

private def textOf (number : Block) : Block := .mk { kind := .numberToText } [("NUMBER", [number])] []

private def written (path contents : Block) : Block :=
  .mk { kind := .writeFile } [("PATH", [path]), ("DATA", [contents])] []

def fileOfItsName : Program := ofSection "LOOP" [written (textOf (pinState "PA7")) (textOf (pinState "PA7"))]

theorem fileOfItsName_filled_alike : ("num_str_0" ∉ fileOfItsName.variableNames ∧ ¬ SharedName "num_str_0") ∧
      fileOfItsName.lowered.draft.fills.map Prod.fst = ["num_str_0", "num_str_0"] ∧
        ∀ text other, ("num_str_0", text) ∈ fileOfItsName.lowered.draft.fills →
          ("num_str_0", other) ∈ fileOfItsName.lowered.draft.fills → text = other := by
  have own : "num_str_0" ∉ fileOfItsName.variableNames := by decide +kernel
  have unshared : ¬ SharedName "num_str_0" := fun shared => absurd shared.start (by decide)
  refine ⟨⟨own, unshared⟩, by decide +kernel, fun text other first second => ?_⟩
  exact (fileOfItsName.buffers_filled_alike first second own).resolve_right fun both => unshared both.1

def fileByNumber : Program := ofSection "LOOP" [written (pinState "PA7") (pinState "PA6")]

def filesCompared : Program := ofSection "LOOP"
  [.mk { kind := .conditional }
    [("IF0", [.mk { kind := .compare } [("A", [fileBlock "a"]), ("B", [fileBlock "b"])] []])] []]

def variableInBuffer : Program := ofSection "LOOP"
  [.mk { kind := .print } [("TEXT", [textOf (pinState "PA7")])] [],
    .mk { kind := .setVariable, fields := [("VAR", .text "num_str_0")] }
      [("VALUE", [.mk { kind := .textLength } [("STRING", [textOf (pinState "PA7")])] []])] []]

/-- One line fills a buffer that all numbers or all files share in two ways, or one that a variable
has taken. -/
theorem buffers_filled_twice : (∃ placed ∈ fileByNumber.lowered.draft.loop, placed.line.fills =
      [("display_buffer", "snprintf(display_buffer, sizeof(display_buffer), \"%d\", " ++
          "(int)(furi_hal_gpio_read(&gpio_ext_pa7)))"),
        ("display_buffer", "snprintf(display_buffer, sizeof(display_buffer), \"%d\", " ++
          "(int)(furi_hal_gpio_read(&gpio_ext_pa6)))")]) ∧
    (∃ placed ∈ filesCompared.lowered.draft.loop, placed.line.fills =
      [("storage_buffer", "storage_simple_read(storage_buffer, sizeof(storage_buffer), \"a\")"),
        ("storage_buffer", "storage_simple_read(storage_buffer, sizeof(storage_buffer), \"b\")")]) ∧
    ∃ placed ∈ variableInBuffer.lowered.draft.loop, ∃ first ∈ placed.line.fills,
      ∃ second ∈ placed.line.fills, first.1 = "num_str_0" ∧ second.1 = "num_str_0" ∧ first.2 ≠ second.2 := by
  decide +kernel

end Program

end FlipperBlocks
