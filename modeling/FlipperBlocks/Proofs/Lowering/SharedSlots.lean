import FlipperBlocks.Proofs.Lowering.DeferredReads
import FlipperBlocks.Proofs.Lowering.EnteredPrograms

/-! Blocks that share a slot.

A block that reads asks for its slot by the texts of what its inputs give. Two such blocks come to one
slot just where all of these texts are the same. -/
namespace FlipperBlocks

open C (Atom Expr)
open Lowering

/-- The storage that a value is in; the read that fills it may stand before it. -/
def Value.slot? (value : Value) : Option String :=
  match value.expr with
  | .group (.sequence _ result) => result.storage?
  | place => place.storage?

namespace Site

def registerRead (site : Site) (width : RegisterWidth) : Lowering (Option Read) := do
  let transfer ← Transfer.ofSite site
  let register ← site.numeric "REG" "0x00"
  return some (.register width transfer register.expr)

/-- The read that a block makes as a value, if it makes one. A number is made a text by a read unless
it is a literal, and what is a text already needs none. -/
def read? (site : Site) : Lowering (Option Read) :=
  match site.kind with
  | .numberToText => do
    let value ← site.number "NUMBER" "0"
    return if value.kind = .text ∨ value.isLiteral = true then none else some (.number value.expr)
  | .readFile => do
    enable [.files, .fileRead]
    let path ← filePath site
    return some (.file path.expr)
  | .temperature => return some (.climate temperature (by simp) (pinOf site))
  | .humidity => return some (.climate humidity (by simp) (pinOf site))
  | .readRegister8 => site.registerRead .eight
  | .readRegister16 => site.registerRead .sixteen
  | .readBytes => do
    let transfer ← Transfer.ofSite site
    let memory ← site.numeric "MEM" "0x00"
    let length := blockLength (← site.number "LEN" "1")
    return some (.block transfer memory.expr length)
  | _ => return none

end Site

namespace Lowering

variable (read : Expr) (result : Value) (c : Compilation)

theorem slots_deferred : (deferred read result c).2.draft.slots = c.draft.slots := by
  change ((if c.phase = .draw then hoist (.run read) >>= fun _ => pure result else _ :
    Lowering Value) c).2.draft.slots = c.draft.slots
  split
  · change (c.draft.hoist (.run read)).slots = c.draft.slots
    unfold Draft.hoist
    split <;> rfl
  · rfl

variable {result} in
theorem slot?_deferred {slot : String} (place : result.expr.storage? = some slot) :
    (deferred read result c).1.slot? = some slot := by
  change ((if c.phase = .draw then hoist (.run read) >>= fun _ => pure result else _ :
    Lowering Value) c).1.slot? = some slot
  split
  · change result.slot? = some slot
    unfold Value.slot?
    split
    · rename_i same
      rw [same] at place
      contradiction
    · exact place
  · exact place

end Lowering

/-- If the first step tells a read, the second one gives a value in the slot for that read. -/
def Makes (reading : Lowering (Option Read)) (action : Lowering Value) : Prop :=
  ∀ (c : Compilation) (read : Read), (reading c).1 = some read → ∃ slot,
    (action c).1.slot? = some slot ∧ (action c).2.draft.slots.get? read.key = some slot

namespace Makes

variable {α : Type}

theorem none (action : Lowering Value) : Makes (return .none) action := nofun

variable {next : α → Lowering Value} {read : Read} {stem : String} {type : StorageType}

theorem bind (action : Lowering α) {reading : α → Lowering (Option Read)} (makes : ∀ a, Makes (reading a) (next a)) :
    Makes (action >>= reading) (action >>= next) :=
  fun c read found => makes (action c).1 (action c).2 read found

theorem after (action : Lowering α) {found : Option Read}
    (makes : ∀ a, Makes (return found) (next a)) : Makes (return found) (action >>= next) :=
  fun c read same => makes (action c).1 (action c).2 read same

theorem deferred {action : Lowering α} {read : Read} {name : α → String} {act : α → Expr}
    {result : α → Value} (place : ∀ a, (result a).expr.storage? = some (name a))
    (told : ∀ c, (action c).2.draft.slots.get? read.key = some (name (action c).1)) :
    Makes (return some read) (action >>= fun a => Lowering.deferred (act a) (result a)) := by
  intro c other same
  obtain rfl := Option.some.inj same
  refine ⟨name (action c).1, slot?_deferred _ _ (place _), ?_⟩
  change (Lowering.deferred _ _ (action c).2).2.draft.slots.get? read.key = _
  rw [slots_deferred]
  exact told c

theorem readSlot {act : Storage → Expr} :
    Makes (return some read) (Lowering.readSlot read.key stem type >>= fun storage =>
      Lowering.deferred (act storage) ⟨storage.place, .number, .none⟩) :=
  deferred Storage.storage?_place (told_readSlot read.key stem type)

theorem namedSlot {act : String → Expr}
    {result : String → Value} (place : ∀ slot, (result slot).expr = .name slot) :
    Makes (return some read) (Lowering.namedSlot read.key stem type >>= fun slot =>
      Lowering.deferred (act slot) (result slot)) :=
  deferred (fun slot => congrArg Expr.storage? (place slot)) (told_namedSlot read.key stem type)

end Makes

namespace Site

theorem makes_readRegister (site : Site) (width : RegisterWidth) :
    Makes (site.registerRead width) (readRegister width site) :=
  .bind _ fun transfer => .bind _ fun register => .after _ fun _ =>
    @Makes.readSlot (.register width transfer register.expr) _ _ _

theorem makes_numberToText (site : Site) : Makes (do
    let value ← site.number "NUMBER" "0"
    return if value.kind = .text ∨ value.isLiteral = true then none else some (.number value.expr))
      (numberToText site) := by
  refine .bind _ fun value => ?_
  by_cases text : value.kind = .text
  · rw [if_pos (.inl text)]
    exact .none _
  · rw [if_neg text]
    by_cases literal : value.isLiteral = true
    · rw [if_pos (.inr literal)]
      exact .none _
    · rw [if_neg (not_or.2 ⟨text, literal⟩), if_neg literal]
      exact @Makes.namedSlot (.number value.expr) _ _ _ _ fun _ => rfl

/-- A block gives the value in the slot for its read. -/
theorem makes_asValue (site : Site) (wantsText : Bool) : Makes site.read? (site.asValue wantsText) := by
  unfold read? asValue
  cases site.kind with
  | numberToText => exact site.makes_numberToText
  | readFile =>
    exact .bind _ fun _ => .bind _ fun path =>
      @Makes.deferred _ _ (.file path.expr) id _ _ (fun _ => rfl) (told_sharedBuffer "storage_buffer" 1024)
  | temperature => exact .after _ fun _ => @Makes.readSlot (.climate temperature (by simp) (pinOf site)) _ _ _
  | humidity => exact .after _ fun _ => @Makes.readSlot (.climate humidity (by simp) (pinOf site)) _ _ _
  | readRegister8 | readRegister16 => exact site.makes_readRegister _
  | readBytes =>
    exact .bind _ fun transfer => .bind _ fun memory => .bind _ fun length => .after _ fun _ =>
      @Makes.namedSlot (.block transfer memory.expr (blockLength length)) _ _ _ _ fun _ => rfl
  | _ => exact .none _

end Site

def blankLedger (names : List String) : DraftLedger names fun _ => True where
  holds _ _ := True
  quiet _ _ := trivial
  inert _ _ := trivial
  start _ _ _ _ := trivial
  loop _ _ := trivial
  register _ _ _ _ := trivial

namespace Site.Entered

variable {names : List String} {known : Site → Prop} {ledger : Ledger names known} {phase : Phase}
  {loose : Multiset C.Line} {site : Site} (entered : site.Entered ledger)

private theorem returns_some {read : Read} (proper : read.Proper) :
    ledger.Keeps phase loose (return some read) (fun found => ∀ read ∈ found, read.Proper) fun _ => loose :=
  .returns fun _ same => Option.some.inj same ▸ proper

include entered

private theorem registerRead (width : RegisterWidth) :
    ledger.Keeps phase loose (site.registerRead width) (fun found => ∀ read ∈ found, read.Proper)
      fun _ => loose := by
  refine .bind entered.transfer fun transfer plain => .bind (entered.numeric "REG" (by decide) _ _)
    fun register index => returns_some (.of_spelled ?_ ?_)
  · simpa [Read.inputs] using ⟨plain.1.spelled, index.expr.spelled, plain.2.spelled⟩
  · cases width <;> simp [Read.type, RegisterWidth.storageType]

theorem read? : ledger.Keeps phase loose site.read? (fun found => ∀ read ∈ found, read.Proper)
    fun _ => loose := by
  unfold Site.read?
  cases site.kind with
  | numberToText =>
    refine .bind (entered.number "NUMBER" (by decide) _ _) fun value plain => ?_
    split
    · exact .returns (by simp)
    · exact returns_some
        (.of_spelled (List.forall_mem_singleton.2 plain.expr.spelled) (by simp [Read.type]))
  | readFile =>
    exact .bind (.enable _) fun _ _ => .bind (entered.filePath _ _) fun path plain =>
      returns_some (.of_spelled (List.forall_mem_singleton.2 plain.expr.spelled) (by simp [Read.type]))
  | temperature | humidity => exact returns_some (.of_spelled (by simp [Read.inputs]) (by simp [Read.type]))
  | readRegister8 | readRegister16 => exact entered.registerRead _
  | readBytes =>
    refine .bind entered.transfer fun transfer plain => .bind (entered.numeric "MEM" (by decide) _ _)
      fun memory index => .bind (entered.number "LEN" (by decide) _ _) fun length _ =>
        returns_some ⟨?_, fun other same => ?_⟩
    · simpa [Read.inputs] using ⟨plain.1.spelled, index.expr.spelled, plain.2.spelled⟩
    · injection same with same
      exact same ▸ Counterparts.blockLength_bounds length
  | _ => exact .returns (by simp)

end Site.Entered

theorem Block.proper_read {block : Block} {c : Compilation} (reached : c.draft.Reached) {read : Read}
    (found : (block.site.read? c).1 = some read) : read.Proper := by
  obtain ⟨names, moves⟩ := reached
  have more := moves.mono (List.subset_append_left names block.variableNames)
  have entered : block.site.Entered (blankLedger (names ++ block.variableNames)).ledger :=
    block.entered_site (fun part member _ named =>
      List.mem_append_right _ (List.mem_flatMap.2 ⟨part, member, named⟩)) fun _ _ => trivial
  exact (@Site.Entered.read? _ _ _ _ 0 _ entered c rfl more trivial).2.2 read found

theorem Draft.Settles.of_eq {a b : Draft} (storage : a.storage = b.storage) (places : a.places = b.places)
    (pins : a.pins = b.pins) (slots : a.slots = b.slots) (counters : a.counters = b.counters) : a.Settles b where
  declared name _ found := by
    rw [Draft.lookup?, storage, places] at found
    exact found
  pins pin _ found := by
    rw [Draft.mode?, pins] at found
    exact found
  slots _ _ found := slots ▸ found
  counters _ number found := ⟨number, counters ▸ found, Nat.le_refl _⟩

namespace Program

/-- Wherever lowering a program comes to two blocks that read, and what they do is kept, they are given
the same slot just where their reads are written alike. -/
theorem slots_shared_by_reads_alike (program : Program) :
    (program.Throughout fun _ before after => before.draft.Reached ∧ after.draft.Reached) ∧
      ∀ (first second : Block) (asText asTextToo : Bool) (c d : Compilation) (read other : Read),
        c.draft.Reached → d.draft.Reached →
        (first.site.read? c).1 = some read → (second.site.read? d).1 = some other →
        (first.meaning.value asText c).2.draft.Settles program.lowered.draft →
        (second.meaning.value asTextToo d).2.draft.Settles program.lowered.draft →
        ∃ slot place, (first.meaning.value asText c).1.slot? = some slot ∧
          (second.meaning.value asTextToo d).1.slot? = some place ∧ (slot = place ↔ read.Alike other) := by
  refine ⟨?_, ?_⟩
  · exact program.throughout_moves.imp fun head before after passed =>
      ⟨⟨_, passed.1⟩, ⟨_, passed.1.trans passed.2⟩⟩
  intro first second asText asTextToo c d read other reached reachedToo found foundToo kept keptToo
  rw [first.meaning_eq] at kept ⊢
  rw [second.meaning_eq] at keptToo ⊢
  obtain ⟨slot, given, told⟩ := first.site.makes_asValue asText c read found
  obtain ⟨place, givenToo, toldToo⟩ := second.site.makes_asValue asTextToo d other foundToo
  refine ⟨slot, place, given, givenToo, ?_⟩
  have told := kept.slots _ _ told
  have toldToo := keptToo.slots _ _ toldToo
  constructor
  · rintro rfl
    exact Read.alike_of_key (Block.proper_read reached found).spelled
      (Block.proper_read reachedToo foundToo).spelled
      (program.moves_lowered.key_eq_of_told told toldToo)
  · intro alike
    rw [alike.key_eq, toldToo] at told
    exact (Option.some.inj told).symm

private def registerBlock (kind : BlockKind) (index : String) : Block :=
  .mk { kind := kind } [("REG", [.mk { kind := .hexNumber, fields := [("HEX", .text index)] } [] []])] []

private def waiting (milliseconds : Block) : Block := .mk { kind := .sleep } [("MS", [milliseconds])] []

private def registers : List Block :=
  [registerBlock .readRegister8 "0x01", registerBlock .readRegister8 "0x02",
    registerBlock .readRegister16 "0x01"]

def registersWaited : Program := ofSection "LOOP" (registers.map waiting)

theorem registersWaited_slots_shared :
    (registers.map fun block => (block.meaning.value false registersWaited.lowered).1.slot?) =
        [some "i2c_reg8_0", some "i2c_reg8_1", some "i2c_reg16_0"] ∧
      ∀ first ∈ registers, ∀ second ∈ registers, ∃ read other : Read,
        (first.site.read? registersWaited.lowered).1 = some read ∧
          (second.site.read? registersWaited.lowered).1 = some other ∧
            (read.Alike other ↔ (first.meaning.value false registersWaited.lowered).1.slot? =
              (second.meaning.value false registersWaited.lowered).1.slot?) := by
  have reached : registersWaited.lowered.draft.Reached := ⟨_, registersWaited.moves_lowered⟩
  have reads : ∀ block ∈ registers, (block.site.read? registersWaited.lowered).1.isSome = true := by
    decide +kernel
  have same : ∀ block ∈ registers,
      let after := (block.meaning.value false registersWaited.lowered).2.draft
      let before := registersWaited.lowered.draft
      after.storage = before.storage ∧ after.places = before.places ∧ after.pins = before.pins ∧
        after.slots = before.slots ∧ after.counters = before.counters := by
    decide +kernel
  have kept (block) (member : block ∈ registers) :
      (block.meaning.value false registersWaited.lowered).2.draft.Settles
        registersWaited.lowered.draft := by
    obtain ⟨storage, places, pins, slots, counters⟩ := same block member
    exact .of_eq storage places pins slots counters
  refine ⟨by decide +kernel, fun first member second memberToo => ?_⟩
  obtain ⟨read, found⟩ := Option.isSome_iff_exists.1 (reads first member)
  obtain ⟨other, foundToo⟩ := Option.isSome_iff_exists.1 (reads second memberToo)
  obtain ⟨slot, place, given, givenToo, shared⟩ := registersWaited.slots_shared_by_reads_alike.2
    first second false false _ _ read other reached reached found foundToo (kept first member)
      (kept second memberToo)
  refine ⟨read, other, found, foundToo, ?_⟩
  rw [given, givenToo, ← shared, Option.some.injEq]

end Program

end FlipperBlocks
