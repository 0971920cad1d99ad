import FlipperBlocks.Proofs.Lowering.Tags

/-! Byte arrays are declared as such.

The name of an array goes from block to block along with a value, and is asked for its size far from where
the array is declared. Wherever it comes from, the last draft declares it. -/
namespace FlipperBlocks

open C (Expr)
open Lowering

/-- The arrays and other storage that code asks the size of, other than in order to fill it. -/
def Draft.sizes (draft : Draft) : List String :=
  draft.kept.flatMap fun code => code.flatMap fun placed => placed.line.sizes

namespace Draft.Supplied

variable {names : GivenNames} {draft : Draft} (supplied : draft.Supplied names)

include supplied

theorem fetched_into_array {name text : String} (fills : (name, text) ∈ draft.fills)
    (fetches : fetchesBlock text = true) : ∃ transfer memory length,
      text = ((Read.block transfer memory length).action name).code ∧
        draft.lookup? name = some ⟨name, .bytes length none⟩ ∧ 1 ≤ length ∧ length ≤ 64 := by
  rcases supplied.permits_of_fills fills with ⟨_, other⟩ | ⟨read, told, spelled, rfl⟩
  · rw [fetches] at other
    contradiction
  · obtain ⟨transfer, memory, length, rfl⟩ := Read.fetchesBlock_action fetches
    exact ⟨transfer, memory, length, rfl, supplied.lookup?_of_block told spelled⟩

theorem lookup?_of_sizes {name : String} (sized : name ∈ draft.sizes) :
    ∃ length initial, draft.lookup? name = some ⟨name, .bytes length initial⟩ := by
  obtain ⟨code, kept, inside⟩ := List.mem_flatMap.1 sized
  obtain ⟨placed, among, asked⟩ := List.mem_flatMap.1 inside
  exact supplied.permitted code kept placed among _ (C.Line.mem_sizes asked)

end Draft.Supplied

/-! Bytes are taken from streams, and streams are written, within the sizes of their arrays. -/

private theorem mem_uses_of_not {e : Expr} {use : C.Use} (used : ¬ e.Uses (· ≠ use)) : use ∈ e.uses := by
  simpa [Expr.Uses] using used

theorem Lowering.size_mem_uses_byteAt (stream : Stream) (position : Value) :
    .size stream.array ∈ (byteAt stream position).uses := by
  have bounded (spot : Expr) : ¬ (inBounds stream.array spot).Uses (· ≠ .size stream.array) := by
    simp [inBounds, arraySize, Expr.storage?]
  refine mem_uses_of_not ?_
  unfold byteAt
  dsimp only
  split
  · cases stream.read <;> simp [bounded]
  · intro uses
    have last := Expr.uses_steps.1 uses _ (List.mem_append_right _ (.tail _ (.head _)))
    simp [bounded] at last

theorem Lowering.size_mem_uses_write (transfer : Transfer) (memory : Expr) (array : String) : .size array ∈
    (transfer.call "kb_i2c_write_mem_bytes" [byteArgument memory, .name array, .sizeOf (.name array)]).uses := by
  refine mem_uses_of_not fun uses => ?_
  have sized := (Expr.uses_call_of_plain (by decide)).1 uses (.sizeOf (.name array)) (by simp)
  simp [Expr.storage?] at sized

structure Program.ArraysFit (program : Program) : Prop where
  /-- A call that fetches a block of memory names an array of the length that it fetches. -/
  fetched : ∀ name text, (name, text) ∈ program.lowered.draft.fills → fetchesBlock text = true →
    ∃ (transfer : Transfer) (memory : Expr) (length : Nat),
      text = (transfer.call "kb_i2c_read_mem_bytes" [byteArgument memory, .name name, .ofNat length]).code ∧
      program.lowered.draft.lookup? name = some ⟨name, .bytes length none⟩ ∧
        1 ≤ length ∧ length ≤ 64
  /-- So does every block that fetches one, wherever it is lowered, if what it does is kept. -/
  read : ∀ (block : Block) (asText : Bool) (c : Compilation) (transfer : Transfer) (memory : Expr)
    (length : Nat), c.draft.Reached → (block.site.read? c).1 = some (.block transfer memory length) →
      (block.meaning.value asText c).2.draft.Settles program.lowered.draft →
        ∃ array, (block.meaning.value asText c).1.slot? = some array ∧
          program.lowered.draft.lookup? array = some ⟨array, .bytes length none⟩ ∧
            1 ≤ length ∧ length ≤ 64
  /-- What code asks the size of, other than in order to fill it, is an array of bytes. -/
  measured : ∀ name ∈ program.lowered.draft.sizes,
    ∃ length initial, program.lowered.draft.lookup? name = some ⟨name, .bytes length initial⟩
  /-- Taking a byte of a stream and writing a stream ask for the size of its array. -/
  bounded : (∀ (stream : Stream) (position : Value), .size stream.array ∈ (byteAt stream position).uses) ∧
    ∀ (transfer : Transfer) (memory : Expr) (array : String), .size array ∈ (transfer.call "kb_i2c_write_mem_bytes"
      [byteArgument memory, .name array, .sizeOf (.name array)]).uses

theorem Program.arrays_fit (program : Program) : program.ArraysFit where
  fetched _ _ fills fetches := program.supplied_lowered.fetched_into_array fills fetches
  read block asText c transfer memory length reached found kept := by
    rw [block.meaning_eq] at kept ⊢
    obtain ⟨array, given, told⟩ := block.site.makes_asValue asText c _ found
    refine ⟨array, given, ?_⟩
    exact program.supplied_lowered.lookup?_of_block (kept.slots _ _ told)
      (Block.proper_read reached found).spelled
  measured _ sized := program.supplied_lowered.lookup?_of_sizes sized
  bounded := ⟨size_mem_uses_byteAt, size_mem_uses_write⟩

namespace Program

private def copying : Block := .mk { kind := .writeBytes }
  [("DATA", [.mk { kind := .readBytes } [("LEN", [.mk { kind := .canvasWidth } [] []])] []])] []

private def pausing : Block := .mk { kind := .sleep }
  [("MS", [.mk { kind := .streamByte }
    [("STREAM", [.mk { kind := .byteStream, fields := [("BYTES", .text "0x10 0x20")] } [] []])] []])] []

def memoryCopied : Program := ofSection "LOOP" [copying, pausing]

theorem memoryCopied_arrays_fit :
    memoryCopied.lowered.draft.fills = [("i2c_read_bytes_0", "kb_i2c_read_mem_bytes(1, " ++
        "(uint8_t)(0x00), (uint8_t)(0x00), i2c_read_bytes_0, 64, (uint32_t)(50))")] ∧
      memoryCopied.lowered.draft.sizes = ["i2c_read_bytes_0", "byte_stream_0"] ∧
        memoryCopied.lowered.draft.storage =
          [⟨"i2c_read_bytes_0", .bytes 64 none⟩, ⟨"byte_stream_0", .bytes 2 (some [0x10, 0x20])⟩] ∧
          memoryCopied.ArraysFit := by
  exact ⟨by decide +kernel, by decide +kernel, by decide +kernel, memoryCopied.arrays_fit⟩

end Program

end FlipperBlocks
