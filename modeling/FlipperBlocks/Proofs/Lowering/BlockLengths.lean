import FlipperBlocks.Proofs.Lowering.Arrays
import FlipperBlocks.Proofs.Number.WholeLiterals

/-! Lengths of blocks of memory.

The length of a block of memory is read back from the text of a value. A literal in decimal gives its number, brought
into the range of lengths, as long as 64 bits hold it; one in hexadecimal is no decimal text, and gives one byte. -/
namespace FlipperBlocks

open C (Expr)
open Lowering

/-- The integer that a literal block is written with; it is zero where the block holds no number. -/
def Block.integer? (literal : Block) : Option Int :=
  match literal.head.kind with
  | .number => (literal.head.numberField? "NUM").elim (some 0) Binary64.integer?
  | .hexNumber =>
    let text := (Text.trim (literal.head.fieldOr "HEX" "0x0")).toList
    if isHexLiteral text then (hexNumber? (dropHexMark text)).map Int.ofNat else none
  | _ => none

/-- The length that a literal block of an integer asks for. -/
def Block.lengthOf (literal : Block) (v : Int) : Nat :=
  if literal.head.kind = .number ∧ v < twoTo 63 then (max 1 (min 64 v)).toNat else 1

def Lowering.FilledBy (call : Expr) (array : String) (result : Value × Compilation) : Prop :=
  result.1.expr = doing call (.name array) ∨
    result.1.expr = .name array ∧ ∃ line ∈ result.2.draft.beforeDraw, line.text = (C.Line.run call).text

namespace Lowering

variable {site : Site} {v : Int}

private theorem integerOfText_hex {digits : List Char} (hex : isHexLiteral digits = true) :
    Value.integerOfText digits = none := by
  unfold isHexLiteral at hex
  split at hex
  · rfl
  · rfl
  · contradiction

theorem blockLength_hexLiteral (site : Site) : blockLength (hexLiteral site) = 1 := by
  have none : (hexLiteral site).integer? = none := by
    unfold hexLiteral
    dsimp only
    split
    · rename_i hex
      exact integerOfText_hex hex
    · rfl
  rw [blockLength, none]
  rfl

theorem blockLength_numberLiteral
    (spelled : (site.head.numberField? "NUM").elim (some 0) Binary64.integer? = some v) :
    blockLength (numberLiteral site) = if v < twoTo 63 then (max 1 (min 64 v)).toNat else 1 := by
  unfold numberLiteral
  cases held : site.head.numberField? "NUM" with
  | none =>
    rw [held] at spelled
    obtain rfl := Option.some.inj spelled
    rfl
  | some x =>
    rw [held] at spelled
    change (max 1 (min 64 ((Value.integerOfText x.literal.toList).getD 1))).toNat = _
    rw [Binary64.clamped_literal spelled]
    split <;> rfl

theorem filledBy_deferred (call : Expr) (array : String) (c : Compilation) :
    FilledBy call array (deferred call (.bytes array) c) := by
  change FilledBy call array ((if c.phase = .draw then hoist (.run call) >>= fun _ => pure (.bytes array) else _ :
    Lowering Value) c)
  split
  · refine .inr ⟨rfl, ?_⟩
    change ∃ line ∈ (c.draft.hoist (.run call)).beforeDraw, _
    unfold Draft.hoist
    split
    · rename_i there
      obtain ⟨line, member, same⟩ := List.any_eq_true.1 there
      exact ⟨line, member, eq_of_beq same⟩
    · exact ⟨_, List.mem_append_right _ (List.mem_singleton_self _), rfl⟩
  · exact .inl rfl

end Lowering

/-- A block that reads memory fills the array for its read. -/
theorem Site.exists_filledBy {site : Site} (reads : site.kind = .readBytes) (asText : Bool) (c : Compilation) :
    ∃ transfer memory d array, let length := blockLength (site.number "LEN" "1" d).1
      (site.read? c).1 = some (.block transfer memory length) ∧
        FilledBy ((Read.block transfer memory length).action array) array (site.asValue asText c) ∧
          (site.asValue asText c).2.draft.slots.get? (Read.block transfer memory length).key = some array := by
  let transfer := Transfer.ofSite site c
  let memory := site.numeric "MEM" "0x00" transfer.2
  let length := site.number "LEN" "1" memory.2
  let read := Read.block transfer.1 memory.1.expr (blockLength length.1)
  let slot := namedSlot read.key "i2c_read_bytes" read.type (enable [.bus, .busReadBytes] length.2).2
  have run : site.asValue asText c = deferred (read.action slot.1) (.bytes slot.1) slot.2 := by
    rw [asValue, reads]
    rfl
  refine ⟨transfer.1, memory.1.expr, memory.2, slot.1, ?_, ?_⟩
  · rw [read?, reads]
    rfl
  · rw [run, slots_deferred]
    exact ⟨filledBy_deferred _ _ _, told_namedSlot _ _ _ _⟩

namespace Block

variable {block literal : Block} {rest : List Block} {v : Int}

theorem value_literal {input : String} {default : Value} (given : block.values.get? input = some (literal :: rest))
    {value : Value} (lowered : ∀ asText, literal.site.asValue asText = return value) (c : Compilation) :
    (block.site.value input default c).1 = value := by
  have held : block.site.values.get? input = some (literal.meaning :: rest.map meaning) := by
    rw [block.get?_values, given]
    rfl
  rw [Site.value, held]
  change (literal.meaning.value _ _).1 = value
  rw [literal.meaning_eq]
  exact congrArg (fun action : Lowering Value => (action _).1) (lowered _)

theorem blockLength_literal (given : block.values.get? "LEN" = some (literal :: rest))
    (spelled : literal.integer? = some v) (c : Compilation) :
    blockLength (block.site.number "LEN" "1" c).1 = literal.lengthOf v := by
  unfold integer? at spelled
  unfold lengthOf
  split at spelled
  · rename_i kind
    have lowered (asText : Bool) : literal.site.asValue asText = return numberLiteral literal.site := by
      rw [Site.asValue, show literal.site.kind = .number from kind]
    rw [Site.number, value_literal given lowered, blockLength_numberLiteral spelled, kind]
    simp only [true_and]
  · rename_i kind
    have lowered (asText : Bool) : literal.site.asValue asText = return hexLiteral literal.site := by
      rw [Site.asValue, show literal.site.kind = .hexNumber from kind]
    rw [Site.number, value_literal given lowered, blockLength_hexLiteral, kind, if_neg (by simp)]
  · contradiction

/-- The length is the integer, brought into the range of lengths, where that is one byte anyway and for decimal
literals that fit 64 bits. -/
theorem lengthOf_eq_iff : literal.lengthOf v = (max 1 (min 64 v)).toNat ↔
    v ≤ 1 ∨ literal.head.kind = .number ∧ v < twoTo 63 := by
  unfold lengthOf
  by_cases fits : literal.head.kind = .number ∧ v < twoTo 63
  · exact ⟨fun _ => .inr fits, fun _ => if_pos fits⟩
  · rw [if_neg fits]
    constructor
    · exact fun same => .inl (by omega)
    · exact fun either => either.elim (fun small => by omega) (absurd · fits)

end Block

namespace Program

/-- Wherever lowering a program comes to a block that reads memory, its length an integer literal, and what it does is
kept, both the array and the call that fills it are of the length that the literal gives. -/
theorem block_lengths (program : Program) :
    (program.Throughout fun _ before after => before.draft.Reached ∧ after.draft.Reached) ∧
      ∀ (block literal : Block) (rest : List Block) (v : Int) (asText : Bool) (c : Compilation),
        block.head.kind = .readBytes → block.values.get? "LEN" = some (literal :: rest) →
        literal.integer? = some v → c.draft.Reached →
        (block.meaning.value asText c).2.draft.Settles program.lowered.draft →
        (∃ (transfer : Transfer) (memory : Expr) (array : String),
          FilledBy (transfer.call "kb_i2c_read_mem_bytes"
            [byteArgument memory, .name array, .ofNat (literal.lengthOf v)]) array (block.meaning.value asText c) ∧
          program.lowered.draft.lookup? array = some ⟨array, .bytes (literal.lengthOf v) none⟩) ∧
        (literal.lengthOf v = (max 1 (min 64 v)).toNat ↔
          v ≤ 1 ∨ literal.head.kind = .number ∧ v < twoTo 63) := by
  refine ⟨program.throughout_moves.imp fun head before after passed =>
    ⟨⟨_, passed.1⟩, ⟨_, passed.1.trans passed.2⟩⟩, ?_⟩
  intro block literal rest v asText c reads given spelled reached kept
  refine ⟨?_, Block.lengthOf_eq_iff⟩
  rw [block.meaning_eq] at kept ⊢
  obtain ⟨transfer, memory, d, array, found, filled, told⟩ := block.site.exists_filledBy reads asText c
  rw [Block.blockLength_literal given spelled] at found filled told
  exact ⟨transfer, memory, array, filled, (program.supplied_lowered.lookup?_of_block (kept.slots _ _ told)
    (Block.proper_read reached found).spelled).1⟩

private def fetching (literal : Block) : Block := .mk { kind := .readBytes } [("LEN", [literal])] []

private def memoryFetched (literals : List Block) : Program :=
  ofSection "LOOP" (literals.map fun literal => .mk { kind := .writeBytes } [("DATA", [fetching literal])] [])

private def decimal (digits : String) : Block := .mk { kind := .number, fields := [("NUM", .text digits)] } [] []

private def hexadecimal (digits : String) : Block :=
  .mk { kind := .hexNumber, fields := [("HEX", .text digits)] } [] []

theorem memoryFetched_block_lengths :
    (decimal "200").integer? = some 200 ∧ ∃ (transfer : Transfer) (memory : Expr) (array : String),
      FilledBy (transfer.call "kb_i2c_read_mem_bytes" [byteArgument memory, .name array, .ofNat 64]) array
          ((fetching (decimal "200")).meaning.value false (memoryFetched [decimal "200"]).lowered) ∧
        (memoryFetched [decimal "200"]).lowered.draft.lookup? array = some ⟨array, .bytes 64 none⟩ := by
  let program := memoryFetched [decimal "200"]
  have same : let after := ((fetching (decimal "200")).meaning.value false program.lowered).2.draft
      let before := program.lowered.draft
      after.storage = before.storage ∧ after.places = before.places ∧ after.pins = before.pins ∧
        after.slots = before.slots ∧ after.counters = before.counters := by
    decide +kernel
  obtain ⟨storage, places, pins, slots, counters⟩ := same
  have spelled : (decimal "200").integer? = some 200 := by decide +kernel
  exact ⟨spelled, (program.block_lengths.2 (fetching (decimal "200")) (decimal "200") [] 200 false program.lowered rfl
    rfl spelled ⟨_, program.moves_lowered⟩ (.of_eq storage places pins slots counters)).1⟩

/-- A literal in hexadecimal, and one that 64 bits do not hold, are taken for one byte. -/
theorem large_literals_fetch_one_byte :
    (hexadecimal "0x10").integer? = some 16 ∧ (decimal "1e19").integer? = some 10000000000000000000 ∧
      (memoryFetched [hexadecimal "0x10", decimal "1e19"]).lowered.draft.storage =
        [⟨"i2c_read_bytes_0", .bytes 1 none⟩] := by
  decide +kernel

end Program

end FlipperBlocks
