import FlipperBlocks.Proofs.Lowering.SuppliedPrograms
import Mathlib.Data.List.Induction

/-! Reads that are put off until drawing.

They are made one after another before every drawing, each into its own storage, but all files are read
into one buffer. What one read takes from another is there when it is made, and what the drawing takes
from them is there when it starts. -/
namespace FlipperBlocks

open C (Line)

def C.Line.readsFile : Line → Bool
  | .run (.call function _) => function == "storage_simple_read"
  | _ => false

def lastFill (actions : List Line) (name : String) : Option String :=
  actions.foldl (fun filled line => if line.destination? = some name then some line.text else filled)
    none

private theorem lastFill_append (actions : List Line) (line : Line) (name : String) :
    lastFill (actions ++ [line]) name =
      if line.destination? = some name then some line.text else lastFill actions name := by
  rw [lastFill, List.foldl_append]
  rfl

theorem lastFill_eq {actions : List Line} {line : Line} {name : String} (member : line ∈ actions)
    (fills : line.destination? = some name)
    (alone : ∀ other ∈ actions, other.destination? = some name → other.text = line.text) :
    lastFill actions name = some line.text := by
  -- The last action fills the storage, in the way that is asked for, or does not count.
  induction actions using List.reverseRecOn with
  | nil => contradiction
  | append_singleton before last ih =>
    rw [lastFill_append]
    split
    · rename_i fillsToo
      rw [alone last (List.mem_append_right _ (List.mem_singleton_self _)) fillsToo]
    · rename_i other
      rcases List.mem_append.1 member with earlier | same
      · exact ih earlier fun line there => alone line (List.mem_append_left _ there)
      · rw [List.mem_singleton.1 same] at fills
        exact absurd fills other

namespace Read

theorem readsFile_action {read : Read} (deferred : read.isDeferred = true) (slot : String) :
    (Line.run (read.action slot)).readsFile = read.isShared := by
  cases read with
  | shown => contradiction
  | register width => cases width <;> rfl
  | _ => rfl

/-- The reads that are put off and share their storage are those of files, under one key. -/
theorem key_eq_of_shared {a b : Read} (first : a.isDeferred = true) (second : b.isDeferred = true)
    (shared : a.isShared = true) (sharedToo : b.isShared = true) : a.key = b.key := by
  cases a with
  | file =>
    cases b with
    | file => rfl
    | _ => contradiction
  | _ => contradiction

end Read

namespace Draft

variable {names : GivenNames} {draft : Draft}

private theorem nodup_move {names : List String} {a b : Draft} (move : Move names a b)
    (distinct : (a.beforeDraw.map Line.text).Nodup) : (b.beforeDraw.map Line.text).Nodup := by
  cases move with
  | hoist read =>
    unfold Draft.hoist
    split
    · exact distinct
    · rename_i absent
      rw [List.map_append, List.map_singleton, ← List.concat_eq_append, List.nodup_concat]
      refine ⟨fun there => absent ?_, distinct⟩
      obtain ⟨other, member, same⟩ := List.mem_map.1 there
      exact List.any_eq_true.2 ⟨other, member, beq_iff_eq.2 same⟩
  | resolve | array | state =>
    rw [(Keeps.declare _ _).beforeDraw]
    exact distinct
  | slot =>
    change ((Draft.declare _ a).beforeDraw.map Line.text).Nodup
    rw [(Keeps.declare _ _).beforeDraw]
    exact distinct
  | usePwm output =>
    unfold Draft.usePwm
    split <;> exact distinct
  | append phase code => cases phase <;> exact distinct
  | _ => exact distinct

theorem Moves.nodup_beforeDraw {names : List String} (moves : Moves names {} draft) :
    (draft.beforeDraw.map Line.text).Nodup := by
  induction moves with
  | refl => exact List.nodup_nil
  | tail _ move distinct => exact nodup_move move distinct

namespace Supplied

variable (supplied : draft.Supplied names)

include supplied

theorem destination?_eq_iff {a b : Line} (first : a ∈ draft.beforeDraw)
    (second : b ∈ draft.beforeDraw) : a.destination? = b.destination? ↔
      a.text = b.text ∨ (a.readsFile = true ∧ b.readsFile = true) := by
  obtain ⟨read, slot, rfl, deferred, told, whole⟩ := supplied.reads a first
  obtain ⟨other, place, rfl, deferredToo, toldToo, wholeToo⟩ := supplied.reads b second
  have text : (Line.run (read.action slot)).text = (Line.run (other.action place)).text ↔
      (read.action slot).code = (other.action place).code := String.append_left_inj _
  have fills : (Line.run (read.action slot)).destination? =
      (Line.run (other.action place)).destination? ↔ slot = place := by
    simp [Line.destination?]
  rw [fills, text, Read.readsFile_action deferred, Read.readsFile_action deferredToo]
  constructor
  · rintro rfl
    obtain ⟨_, shared, alike⟩ := supplied.alike_of_told told toldToo
      (Read.spelled_action_iff.1 whole).2 (Read.spelled_action_iff.1 wholeToo).2
    cases sort : read.isShared with
    | true => exact .inr ⟨rfl, shared ▸ sort⟩
    | false => exact .inl (alike sort)
  · rintro (code | ⟨shared, sharedToo⟩)
    · exact Read.slot_eq_of_code whole wholeToo code
    · have keys := Read.key_eq_of_shared deferred deferredToo shared sharedToo
      rw [keys, toldToo] at told
      exact (Option.some.inj told).symm

end Supplied

/-- What becomes of the reads that are put off until drawing. -/
structure ReadsApart (names : GivenNames) (draft : Draft) : Prop where
  /-- Of two actions before drawing, both fill the same storage just where both read files. -/
  apart : draft.beforeDraw.Pairwise fun a b =>
    a.destination? = b.destination? ↔ a.readsFile = true ∧ b.readsFile = true
  /-- When drawing starts, storage holds what the action for it found, files apart. -/
  held : ∀ line ∈ draft.beforeDraw, ∃ name, line.destination? = some name ∧
    (line.readsFile = false → lastFill draft.beforeDraw name = some line.text)
  /-- The slots that the drawing itself reads are among them, but for names that the program gives. -/
  drawn : ∀ placed ∈ draft.draw, ∀ name ∈ placed.line.reads, SlotName name →
    name ∉ names.ofVariables → name ∉ names.ofSymbols →
      ∃ line ∈ draft.beforeDraw, line.destination? = some name

theorem Supplied.readsApart (supplied : draft.Supplied names) : draft.ReadsApart names where
  apart := by
    refine (List.pairwise_map.1 supplied.reached.nodup_beforeDraw).imp_of_mem ?_
    intro a b first second distinct
    rw [supplied.destination?_eq_iff first second]
    exact or_iff_right distinct
  held := by
    intro line member
    obtain ⟨read, slot, rfl, _⟩ := supplied.reads line member
    have fills : (Line.run (read.action slot)).destination? = some slot := read.destination?_action slot
    refine ⟨slot, fills, fun other => lastFill_eq member fills fun line there fillsToo => ?_⟩
    have same := (supplied.destination?_eq_iff there member).1 (fillsToo.trans fills.symm)
    refine same.resolve_right fun both => ?_
    rw [other] at both
    exact Bool.false_ne_true both.2
  drawn := by
    intro placed among name reads slot own unwritten
    rcases supplied.drawn placed among _ (Line.mem_reads.1 reads) with permitted | ⟨_, listed, same⟩
    · exact (permitted rfl slot).resolve_left own
    · injection same with same
      exact absurd (same ▸ listed) unwritten

end Draft

namespace Program

/-- Reads that are put off until drawing leave each other's storage alone, but for those of files. -/
theorem deferred_reads_apart (program : Program) : program.lowered.draft.ReadsApart program.givenNames :=
  program.supplied_lowered.readsApart

def ofSection (label : String) (chain : Chain) : Program := ⟨[[.mk { kind := .app } [] [(label, chain)]]]⟩

def fileBlock (path : String) : Block :=
  .mk { kind := .readFile }
    [("PATH", [.mk { kind := .text, fields := [("TEXT", .text path)] } [] []])] []

private def shownBlock (value : Block) : Block := .mk { kind := .drawText } [("TEXT", [value])] []

def climateScreen : Program := ofSection "DRAW"
  [shownBlock (.mk { kind := .temperature } [] []), shownBlock (.mk { kind := .humidity } [] [])]

theorem climateScreen_reads_apart : climateScreen.lowered.draft.beforeDraw.map Line.destination? =
        [some "dht11_temp_0", some "dht11_hum_0"] ∧
      climateScreen.lowered.draft.ReadsApart climateScreen.givenNames :=
  ⟨by decide +kernel, climateScreen.deferred_reads_apart⟩

def twoFiles : Program := ofSection "DRAW" [shownBlock (fileBlock "a"), shownBlock (fileBlock "b")]

/-- The first of two files is lost when the second one is read, before any of them is shown. -/
theorem file_reads_overwrite :
    twoFiles.lowered.draft.beforeDraw.map (fun line => (line.text, line.destination?)) =
        [("storage_simple_read(storage_buffer, sizeof(storage_buffer), \"a\");", some "storage_buffer"),
          ("storage_simple_read(storage_buffer, sizeof(storage_buffer), \"b\");", some "storage_buffer")] ∧
      lastFill twoFiles.lowered.draft.beforeDraw "storage_buffer" =
        some "storage_simple_read(storage_buffer, sizeof(storage_buffer), \"b\");" := by
  decide +kernel

/-- The slots that a read takes something from are filled by reads before it. -/
theorem deferred_reads_in_order (program : Program) {j : Nat} {line : Line}
    (stands : program.lowered.draft.beforeDraw[j]? = some line) {name : String}
    (reads : name ∈ line.reads) (slot : SlotName name) (own : name ∉ program.variableNames) :
    ∃ i earlier, i < j ∧ program.lowered.draft.beforeDraw[i]? = some earlier ∧
      earlier.destination? = some name := by
  obtain ⟨bound, rfl⟩ := List.getElem?_eq_some_iff.1 stands
  have split := (List.take_append_drop j program.lowered.draft.beforeDraw).symm
  rw [List.drop_eq_getElem_cons bound] at split
  have filled := program.supplied_lowered.ordered _ _ _ split name (Line.mem_reads.1 reads) slot
  obtain ⟨earlier, member, fills⟩ := filled.resolve_left own
  obtain ⟨i, found⟩ := List.mem_iff_getElem?.1 member
  rw [List.getElem?_take] at found
  split at found
  · rename_i before
    exact ⟨i, earlier, before, found, fills⟩
  · contradiction

def nestedRegisters : Program := ofSection "DRAW"
  [shownBlock (.mk { kind := .readRegister8 } [("REG", [.mk { kind := .readRegister8 } [] []])] [])]

theorem nestedRegisters_in_order : ("i2c_reg8_0" ∉ nestedRegisters.variableNames ∧ SlotName "i2c_reg8_0") ∧
      ∃ line, nestedRegisters.lowered.draft.beforeDraw[1]? = some line ∧
        "i2c_reg8_0" ∈ line.reads ∧ ∃ i earlier, i < 1 ∧
          nestedRegisters.lowered.draft.beforeDraw[i]? = some earlier ∧
            earlier.destination? = some "i2c_reg8_0" := by
  have slot : SlotName "i2c_reg8_0" := @SlotName.numbered "i2c_reg8" (by decide) 0
  have own : "i2c_reg8_0" ∉ nestedRegisters.variableNames := by decide +kernel
  have present : (nestedRegisters.lowered.draft.beforeDraw[1]?).isSome = true := by decide +kernel
  have reads : ∀ line ∈ nestedRegisters.lowered.draft.beforeDraw[1]?,
      "i2c_reg8_0" ∈ line.reads := by
    decide +kernel
  obtain ⟨line, stands⟩ := Option.isSome_iff_exists.1 present
  exact ⟨⟨own, slot⟩, line, stands, reads line stands,
    nestedRegisters.deferred_reads_in_order stands (reads line stands) slot own⟩

end Program

end FlipperBlocks
