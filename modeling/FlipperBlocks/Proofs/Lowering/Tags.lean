import FlipperBlocks.Proofs.Lowering.Buffers
import FlipperBlocks.Proofs.Lowering.SharedSlots

/-! Values are what their kinds say.

A value goes from block to block with its kind and the name of its array, and what is made of it goes by these
alone. Wherever it comes from, a text is a literal or a buffer for text, and bytes are in an array. -/
namespace FlipperBlocks

open C (Expr)
open Lowering

namespace Draft

/-- Bytes are declared under the name, or it is told for a block of memory that is read. -/
def HasArray (draft : Draft) (array : String) : Prop :=
  (∃ length initial, draft.lookup? array = some ⟨array, .bytes length initial⟩) ∨
    ∃ transfer memory length, draft.slots.get? (Read.block transfer memory length).key = some array

/-- A text is declared under the name, or it is told for a read that leaves a text. -/
def HasText (draft : Draft) (buffer : String) : Prop :=
  (∃ size, draft.lookup? buffer = some ⟨buffer, .text size⟩) ∨
    ∃ (read : Read) (size : Nat), read.type = .text size ∧ draft.slots.get? read.key = some buffer

variable {a b : Draft} {name : String}

theorem Settles.hasArray (settles : a.Settles b) (has : a.HasArray name) : b.HasArray name := by
  rcases has with ⟨length, initial, declared⟩ | ⟨transfer, memory, length, told⟩
  · exact .inl ⟨length, initial, settles.declared _ _ declared⟩
  · exact .inr ⟨transfer, memory, length, settles.slots _ _ told⟩

theorem Settles.hasText (settles : a.Settles b) (has : a.HasText name) : b.HasText name := by
  rcases has with ⟨size, declared⟩ | ⟨read, size, isText, told⟩
  · exact .inl ⟨size, settles.declared _ _ declared⟩
  · exact .inr ⟨read, size, isText, settles.slots _ _ told⟩

namespace Supplied

variable {names : GivenNames} {draft : Draft} (supplied : draft.Supplied names)

include supplied

theorem lookup?_of_hasArray {array : String} (has : draft.HasArray array) :
    ∃ length initial, draft.lookup? array = some ⟨array, .bytes length initial⟩ := by
  rcases has with declared | ⟨transfer, memory, length, told⟩
  · exact declared
  · obtain ⟨known, key, _, _, declared⟩ := supplied.slots _ _ told
    obtain ⟨_, _, size, rfl⟩ := Read.exists_block_of_key key
    exact ⟨size, none, declared⟩

theorem lookup?_of_hasText {buffer : String} (has : draft.HasText buffer) :
    ∃ size, draft.lookup? buffer = some ⟨buffer, .text size⟩ := by
  rcases has with declared | ⟨read, size, isText, told⟩
  · exact declared
  · obtain ⟨known, key, _, _, declared⟩ := supplied.slots _ _ told
    have global : (Storage.mk buffer known.type).place = .name buffer := by
      rw [(Read.sort_eq_of_key key).2.2, isText]
      rfl
    cases known with
    | number | shown | file => exact ⟨_, declared⟩
    | climate => exact absurd global (by simp [Storage.place, Storage.scope, Read.type])
    | register width =>
      cases width <;>
        exact absurd global (by simp [Storage.place, Storage.scope, Read.type, RegisterWidth.storageType])
    | block =>
      obtain ⟨_, _, _, rfl⟩ := Read.exists_block_of_key key.symm
      contradiction

end Supplied

end Draft

namespace Value

/-- A value that is an array, which may be filled right before. -/
def Denotes (value : Value) (array : String) : Prop :=
  value.expr = .name array ∨ ∃ read, value.expr = doing read (.name array)

/-- A value that is what its kind says, with an array that the draft has if it stands for one. -/
structure Tagged (draft : Draft) (value : Value) : Prop where
  array : ∀ array, value.array = some array → draft.HasArray array
  bytes : value.kind = .bytes → ∃ array, value.array = some array ∧ value.Denotes array
  text : value.kind = .text → (∃ contents, value.expr = .quoted contents) ∨
    ∃ buffer, value.Denotes buffer ∧ draft.HasText buffer

private theorem Denotes.doing {value : Value} {array slot : String} (denotes : value.Denotes array)
    (place : value.expr = .name slot) (action : Expr) :
    Denotes { value with expr := Lowering.doing action value.expr } array := by
  rcases denotes with same | ⟨read, same⟩
  · exact .inr ⟨action, congrArg (Lowering.doing action) same⟩
  · rw [place] at same
    contradiction

namespace Tagged

variable {draft : Draft}

theorem doing {value : Value} {slot : String} (tagged : value.Tagged draft)
    (place : value.expr = .name slot) (action : Expr) :
    Tagged draft { value with expr := Lowering.doing action value.expr } where
  array := tagged.array
  bytes isBytes := by
    obtain ⟨array, same, denotes⟩ := tagged.bytes isBytes
    exact ⟨array, same, denotes.doing place action⟩
  text isText := by
    rcases tagged.text isText with ⟨contents, same⟩ | ⟨buffer, denotes, has⟩
    · rw [place] at same
      contradiction
    · exact .inr ⟨buffer, denotes.doing place action, has⟩

theorem of_text {read : Read} {size : Nat} {slot : String} (isText : read.type = .text size)
    (told : draft.slots.get? read.key = some slot) : Tagged draft ⟨.name slot, .text, none⟩ :=
  ⟨nofun, nofun, fun _ => .inr ⟨slot, .inl rfl, .inr ⟨read, size, isText, told⟩⟩⟩

end Tagged

end Value

theorem Storage.tagged_value {draft : Draft} {storage : Storage}
    (declared : draft.lookup? storage.name = some storage) : storage.value.Tagged draft := by
  obtain ⟨name, type⟩ := storage
  cases type with
  | text size => exact ⟨nofun, nofun, fun _ => .inr ⟨name, .inl rfl, .inl ⟨size, declared⟩⟩⟩
  | bytes length initial =>
    refine ⟨fun array same => ?_, fun _ => ⟨name, rfl, .inl rfl⟩, nofun⟩
    obtain rfl : name = array := Option.some.inj same
    exact .inl ⟨length, initial, declared⟩
  | _ => exact ⟨nofun, nofun, nofun⟩

def Tags (action : Lowering Value) : Prop := ∀ c : Compilation, (action c).1.Tagged (action c).2.draft

namespace Tags

variable {α : Type}

theorem number (expr : Expr) : Tags (Pure.pure ⟨expr, .number, none⟩) := fun _ => ⟨nofun, nofun, nofun⟩

theorem truth (expr : Expr) : Tags (Pure.pure ⟨expr, .truth, none⟩) := fun _ => ⟨nofun, nofun, nofun⟩

theorem text (contents : String) : Tags (Pure.pure (.text contents)) :=
  fun _ => ⟨nofun, nofun, fun _ => .inl ⟨contents, rfl⟩⟩

/-- The last part of a step tells what its value stands for. -/
theorem bind {action : Lowering α} {next : α → Lowering Value} (later : ∀ a, Tags (next a)) :
    Tags (action >>= next) :=
  fun c => later (action c).1 (action c).2

theorem within {action : Lowering Value} (tags : Tags action) (step : Step) :
    Tags (Lowering.within step action) :=
  fun c => tags { c with steps := step :: c.steps }

/-- A value goes on as it is, or is made into another one. -/
theorem passing {action : Lowering Value} {next : Value → Lowering Value} (tags : Tags action)
    (later : ∀ value, next value = Pure.pure value ∨ Tags (next value)) : Tags (action >>= next) := by
  intro c
  change (next (action c).1 (action c).2).1.Tagged (next (action c).1 (action c).2).2.draft
  rcases later (action c).1 with same | other
  · rw [same]
    exact tags c
  · exact other _

theorem toNumber {action : Lowering Value} (tags : Tags action) : Tags (action >>= Lowering.toNumber) := by
  refine tags.passing fun value => ?_
  unfold Lowering.toNumber
  split
  · exact .inr (.bind fun _ => .number _)
  · exact .inl rfl

theorem deferred (read place : Expr) : Tags (Lowering.deferred read ⟨place, .number, none⟩) := by
  refine .bind fun phase => ?_
  split
  · exact .bind fun _ => .number _
  · exact .number _

theorem analog (site : Site) (result : Pin → Expr) : Tags (Lowering.analog site result) := by
  unfold Lowering.analog
  dsimp only
  split
  · exact .bind fun _ => .bind fun _ => .number _
  · exact .bind fun _ => .number _

/-! Blocks that bring in buffers and arrays. -/

/-- A value that is in the storage told for a read, which is filled right before or before the drawing. -/
theorem slotted {named : Lowering String} {read : Read}
    (told : ∀ c, (named c).2.draft.slots.get? read.key = some (named c).1) (act : String → Expr)
    {result : String → Value} (place : ∀ slot, (result slot).expr = .name slot)
    (tagged : ∀ slot (draft : Draft), draft.slots.get? read.key = some slot → (result slot).Tagged draft) :
    Tags (named >>= fun slot => Lowering.deferred (act slot) (result slot)) := by
  intro c
  let slot := (named c).1
  have kept := slots_deferred (act slot) (result slot) (named c).2
  have tagged := tagged slot (Lowering.deferred (act slot) (result slot) (named c).2).2.draft
    (kept.symm ▸ told c)
  have run : Lowering.deferred (act slot) (result slot) (named c).2 =
      (if (named c).2.phase = .draw then hoist (.run (act slot)) >>= fun _ => Pure.pure (result slot)
        else Pure.pure { result slot with expr := doing (act slot) (result slot).expr } :
          Lowering Value) (named c).2 := rfl
  change (Lowering.deferred (act slot) (result slot) (named c).2).1.Tagged
    (Lowering.deferred (act slot) (result slot) (named c).2).2.draft
  rw [run] at tagged ⊢
  by_cases drawing : (named c).2.phase = .draw
  · rw [if_pos drawing] at tagged ⊢
    exact tagged
  · rw [if_neg drawing] at tagged ⊢
    exact tagged.doing (place slot) (act slot)

theorem numberToText (site : Site) (tags : Tags (site.number "NUMBER" "0")) :
    Tags (Lowering.numberToText site) := by
  refine tags.passing fun value => ?_
  split
  · exact .inl rfl
  · split
    · exact .inr (.text _)
    · refine .inr (@slotted _ (.number value.expr) (told_namedSlot _ _ _) _ _ (fun _ => rfl) ?_)
      exact fun slot draft told => .of_text rfl told

theorem readFile (site : Site) : Tags (Lowering.readFile site) := by
  refine .bind fun _ => .bind fun path =>
    @slotted _ (.file path.expr) (told_sharedBuffer "storage_buffer" 1024) _ _ (fun _ => rfl) ?_
  exact fun slot draft told => .of_text rfl told

theorem getVariable (site : Site) (asText : Bool) : Tags (Lowering.getVariable site asText) := by
  intro c
  let storage : Storage := ⟨variableName site, if asText then .text 256 else .int⟩
  have found : ((c.draft.declare storage).lookup? storage.name).isSome = true := by
    rw [Draft.lookup?_declare, if_pos rfl]
    cases c.draft.lookup? storage.name <;> rfl
  obtain ⟨other, declared⟩ := Option.isSome_iff_exists.1 found
  change (((c.draft.declare storage).lookup? storage.name).getD storage).value.Tagged
    (c.draft.declare storage)
  rw [declared]
  exact Storage.tagged_value ((Draft.name_of_lookup? declared).symm ▸ declared)

theorem byteStream (site : Site) : Tags (Lowering.byteStream site) := by
  intro c
  let bytes := bytesOfText (site.head.rawField "BYTES")
  let array := Draft.numbered "byte_stream" (c.draft.freshNumber "byte_stream")
  let counted := c.draft.advance "byte_stream" (c.draft.freshNumber "byte_stream")
  have free : counted.lookup? array = none := c.draft.lookup?_freshNumber "byte_stream"
  refine @Storage.tagged_value _ ⟨array, .bytes bytes.length (some bytes)⟩ ?_
  change (counted.declare ⟨array, .bytes bytes.length (some bytes)⟩).lookup? array = _
  rw [Draft.lookup?_declare, free, if_pos rfl, Option.none_or]

theorem readBytes (site : Site) : Tags (Lowering.readBytes site) := by
  refine .bind fun transfer => .bind fun memory => .bind fun length => .bind fun _ =>
    @slotted _ (.block transfer memory.expr (blockLength length)) (told_namedSlot _ _ _) _ _
      (fun _ => rfl) ?_
  intro slot draft told
  refine ⟨fun array same => ?_, fun _ => ⟨slot, rfl, .inl rfl⟩, nofun⟩
  obtain rfl : slot = array := Option.some.inj same
  exact .inr ⟨transfer, memory.expr, blockLength length, told⟩

end Tags

namespace Site

def InputsTag (site : Site) : Prop :=
  ∀ input first rest, site.values.get? input = some (first :: rest) →
    ∀ wantsText, Tags (first.value wantsText)

variable {site : Site}

theorem InputsTag.value (inputs : site.InputsTag) (input : String) {default : Value}
    (tags : Tags (return default)) : Tags (site.value input default) := by
  unfold Site.value
  split
  · rename_i first rest found
    exact (inputs input first rest found _).within _
  · exact tags

theorem InputsTag.asValue (inputs : site.InputsTag) (wantsText : Bool) : Tags (site.asValue wantsText) := by
  unfold Site.asValue
  cases site.kind with
  | canvasWidth | canvasHeight | number | hexNumber => exact .number _
  | truth => exact .truth _
  | text => exact .text _
  | compare =>
    refine .bind fun a => .bind fun b => ?_
    split
    · exact .truth _
    · exact .bind fun _ => .bind fun _ => .truth _
  | arithmetic =>
    refine .bind fun a => .bind fun b => ?_
    dsimp only
    split
    · exact .bind fun _ => .number _
    · exact .number _
  | logical => exact .bind fun _ => .bind fun _ => .truth _
  | bitAnd | bitOr | bitXor => exact .bind fun _ => .bind fun _ => .number _
  | negate => exact .bind fun _ => .truth _
  | bitNot | textLength => exact .bind fun _ => .number _
  | getVariable => exact .getVariable site wantsText
  | textToNumber => exact (inputs.value "STRING" (.text "")).toNumber
  | numberToText => exact .numberToText site (inputs.value "NUMBER" (.number _))
  | randomNumber => exact .bind fun _ => .bind fun _ => .bind fun _ => .number _
  | readFile => exact .readFile site
  | fileExists => exact .bind fun _ => .bind fun _ => .truth _
  | readPin => exact .bind fun _ => .truth _
  | distance => exact .bind fun _ => .number _
  | readAnalog | potentiometer => exact .analog site _
  | readPwm =>
    refine .bind fun found => ?_
    cases found with
    | some output => exact .bind fun _ => .number _
    | none => exact .number _
  | motion => exact .bind fun _ => .bind fun _ => .number _
  | temperature | humidity => exact .bind fun _ => .bind fun _ => .deferred _ _
  | deviceReady => exact .bind fun _ => .bind fun _ => .truth _
  | readRegister8 | readRegister16 =>
    exact .bind fun _ => .bind fun _ => .bind fun _ => .bind fun _ => .deferred _ _
  | readBytes => exact .readBytes site
  | byteStream => exact .byteStream site
  | streamLength =>
    refine .bind fun found => ?_
    cases found <;> exact .number _
  | streamByte =>
    refine .bind fun found => ?_
    cases found with
    | some stream => exact .bind fun _ => .number _
    | none => exact .number _
  | _ =>
    -- A statement or an unknown kind has no value of its own.
    exact .bind fun _ => .number _

end Site

theorem Block.inputsTag (block : Block) : block.site.InputsTag := by
  refine @Block.induction (fun block => block.site.InputsTag) ?_ block
  intro head values bodies inside _ input meaning rest found wantsText
  obtain ⟨inner, others, member, rfl⟩ := exists_of_get?_values found
  rw [meaning_eq]
  exact (inside _ member inner List.mem_cons_self).asValue wantsText

end FlipperBlocks
