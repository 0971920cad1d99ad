import FlipperBlocks.Compile
import FlipperBlocks.Proofs.Draft.Table
import FlipperBlocks.Proofs.Lowering.Devices

/-! Every block, and every program, is lowered into fit code. -/
namespace FlipperBlocks

open C (Code)
open Lowering

namespace Site.Fits

variable {outcome : Outcome} {phase : Phase} {site : Site}

private theorem lowers_degradedValue (degradation : Degradation) :
    LowersValue outcome phase (degradedValue degradation) := fun _ _ =>
  .bind (.degrade _) fun _ => lowers_literal (.number (by decide)) _ _

private theorem lowers_degradedStatement (degradation : Degradation) {line : C.Line}
    (fits : (Code.line line).Fits outcome.last) :
    LowersCode outcome phase (degradedStatement degradation line) := fun _ _ =>
  .bind (.degrade _) fun _ => lowers_code fits _ _

private theorem lowers_addManifest (site : Site) : LowersCode outcome phase (addManifest site) :=
  fun _ _ => .bind (.addManifest _) fun _ => .pure (fun _ => .nil) fun _ _ => .inl

theorem asValue (fits : site.Fits outcome phase) (wantsText : Bool) :
    LowersValue outcome phase (site.asValue wantsText) := by
  unfold Site.asValue
  split
  · exact lowers_literal (.number (by decide))
  · exact lowers_literal (.number (by decide))
  · exact lowers_literal (.truth _)
  · exact lowers_literal (fits_numberLiteral site)
  · exact lowers_literal (fits_hexLiteral site)
  · exact lowers_literal (.text _)
  · exact lowers_comparison fits
  · exact lowers_logical fits
  · exact lowers_negation fits
  · exact lowers_arithmetic fits
  · exact lowers_bitwise fits .bitAnd
  · exact lowers_bitwise fits .bitOr
  · exact lowers_bitwise fits .bitXor
  · exact lowers_complement fits
  · exact lowers_getVariable site wantsText
  · exact lowers_textToNumber fits
  · exact lowers_numberToText fits
  · exact lowers_textLength fits
  · exact lowers_randomNumber fits
  · exact lowers_readFile fits
  · exact lowers_fileExists fits
  · exact lowers_readPin site
  · exact lowers_readAnalog site
  · exact lowers_potentiometer site
  · exact lowers_readPwm site
  · exact lowers_distance site
  · exact lowers_motion site
  · exact lowers_temperature site
  · exact lowers_humidity site
  · exact lowers_deviceReady fits
  · exact lowers_readRegister fits .eight
  · exact lowers_readRegister fits .sixteen
  · exact lowers_readBytes fits ‹_›
  · exact lowers_byteStream site
  · exact lowers_streamLength fits ‹_›
  · exact lowers_streamByte fits
  · exact lowers_degradedValue _
  · exact lowers_degradedValue _

theorem asStatement (fits : site.Fits outcome phase) : LowersCode outcome phase site.asStatement := by
  unfold Site.asStatement
  split
  · exact lowers_application fits ‹_›
  · exact lowers_addManifest site
  iterate 5 · exact lowers_code .nil
  iterate 12 · exact lowers_drawing fits
  · exact lowers_button fits ‹_›
  · exact lowers_onKey fits ‹_›
  · exact lowers_code fits_redraw
  · exact lowers_notify site
  · exact lowers_sleep fits
  · exact lowers_log fits
  · exact lowers_print fits
  · exact lowers_timer fits ‹_›
  · exact lowers_conditional fits ‹_›
  · exact lowers_repeated fits ‹_›
  · exact lowers_whileUntil fits ‹_›
  · exact lowers_setVariable fits
  · exact lowers_changeVariable fits
  · exact lowers_writeFile fits
  · exact lowers_createFile fits
  · exact lowers_deleteFile fits
  · exact lowers_setupPin site
  · exact lowers_writePin site
  · exact lowers_startPwm fits _
  · exact lowers_startPwm fits _
  · exact lowers_stopPwm site
  · exact lowers_servo fits
  · exact lowers_unlockServo site
  · exact lowers_writeRegister fits .eight
  · exact lowers_writeRegister fits .sixteen
  · exact lowers_writeBytes fits
  · exact lowers_updateBits fits
  iterate 2 · exact lowers_degradedStatement _ (.line rfl trivial)

theorem meaning (fits : site.Fits outcome phase) : site.meaning.Fits outcome phase :=
  ⟨fits.asValue, fits.asStatement⟩

end Site.Fits

theorem chainMeanings_eq_map (chain : List Block) : chainMeanings chain = chain.map Block.meaning := by
  induction chain with
  | nil => rw [chainMeanings, List.map_nil]
  | cons block rest ih => rw [chainMeanings, ih, List.map_cons]

theorem inputMeanings_eq_map (inputs : List (String × List Block)) :
    inputMeanings inputs = inputs.map fun entry => (entry.1, entry.2.map Block.meaning) := by
  induction inputs with
  | nil => rw [inputMeanings, List.map_nil]
  | cons entry rest ih => rw [inputMeanings, ih, chainMeanings_eq_map, List.map_cons]

private theorem get?_inputMeanings (inputs : Entries (List Block)) (input : String) :
    Entries.get? (inputMeanings inputs) input = (inputs.get? input).map (List.map Block.meaning) := by
  rw [inputMeanings_eq_map, Entries.get?_map]

namespace Block

theorem induction {property : Block → Prop} (step : ∀ head values bodies,
    (∀ entry ∈ values, ∀ block ∈ entry.2, property block) →
      (∀ entry ∈ bodies, ∀ block ∈ entry.2, property block) → property (.mk head values bodies))
    (block : Block) : property block :=
  @Block.rec property (fun inputs => ∀ entry ∈ inputs, ∀ block ∈ entry.2, property block)
    (fun entry => ∀ block ∈ entry.2, property block) (fun chain => ∀ block ∈ chain, property block) step
    nofun (fun _ _ first rest => List.forall_mem_cons.2 ⟨first, rest⟩) (fun _ _ held => held)
    nofun (fun _ _ first rest => List.forall_mem_cons.2 ⟨first, rest⟩) block

def site (block : Block) : Site := ⟨block.head, inputMeanings block.values, inputMeanings block.bodies⟩

theorem meaning_eq (block : Block) : block.meaning = block.site.meaning := by
  obtain ⟨head, values, bodies⟩ := block
  rw [Block.meaning]
  rfl

theorem kind_meaning (block : Block) : block.meaning.kind = block.head.kind := by
  rw [meaning_eq]
  rfl

theorem id_meaning (block : Block) : block.meaning.id = block.head.id := by
  rw [meaning_eq]
  rfl

theorem statement_eq (block : Block) : block.meaning.statement = block.site.asStatement := by
  rw [meaning_eq]
  rfl

theorem get?_values (block : Block) (input : String) :
    block.site.values.get? input = (block.values.get? input).map (List.map Block.meaning) :=
  get?_inputMeanings block.values input

theorem exists_of_get?_values {block : Block} {input : String} {meaning : Meaning}
    {rest : List Meaning} (found : block.site.values.get? input = some (meaning :: rest)) :
    ∃ inner others, (input, inner :: others) ∈ block.values ∧ inner.meaning = meaning := by
  rw [get?_values, Option.map_eq_some_iff] at found
  obtain ⟨chain, there, same⟩ := found
  cases chain with
  | nil => contradiction
  | cons inner others =>
    injection same with same _
    exact ⟨inner, others, Entries.mem_of_get? there, same⟩

theorem get?_bodies (block : Block) (input : String) :
    block.site.bodies.get? input = (block.bodies.get? input).map (List.map Block.meaning) :=
  get?_inputMeanings block.bodies input

end Block

section

variable {outcome : Outcome}

/-- Blocks are fit in every phase if nothing is asked of the code that they leave out. -/
theorem Block.site_fits (any : ∀ function, outcome.leftOut function) (block : Block) :
    ∀ phase, block.site.Fits outcome phase := by
  refine @Block.induction (fun block => ∀ phase, block.site.Fits outcome phase) ?_ block
  refine fun head values bodies first second phase => ⟨?_, ?_, fun function _ => any function⟩
  · intro input meaning rest found
    obtain ⟨inner, others, member, rfl⟩ := Block.exists_of_get?_values found
    exact inner.meaning_eq ▸ (first _ member inner List.mem_cons_self phase).meaning
  · intro input meanings found meaning among
    rw [Block.get?_bodies, Option.map_eq_some_iff] at found
    obtain ⟨chain, there, rfl⟩ := found
    obtain ⟨inner, within, rfl⟩ := List.mem_map.1 among
    exact inner.meaning_eq ▸ (second _ (Entries.mem_of_get? there) inner within _).meaning

namespace Meaning

variable {phase : Phase}

theorem lowers_loose {meaning : Meaning} (fits : meaning.Fits outcome phase) (known : Prop)
    (owed : List String) : Lowers outcome phase known owed meaning.loose (fun _ => True) fun _ => owed := by
  have undone : Lowers outcome phase known owed (tentatively do
      let code ← meaning.statement
      return if code.isEmpty then some () else none) (fun _ => True) fun _ => owed := by
    refine .tentatively (fits.statement known owed) (fun code _ passed _ _ => ⟨trivial, ?_⟩)
      fun _ => ⟨trivial, fun _ => .inl⟩
    split at passed
    · rename_i empty
      rw [List.isEmpty_iff.1 empty]
      exact fun _ => .inl
    · contradiction
  refine .bind undone fun kept => ?_
  split
  · exact .degrade _
  · exact .pure (fun _ => trivial) fun _ _ => .inl

theorem lowers_followingLoose : ∀ (chain : List Meaning),
    (∀ meaning ∈ chain, meaning.Fits outcome phase) → ∀ known owed,
      Lowers outcome phase known owed (followingLoose chain) (fun _ => True) fun _ => owed
  | [], _, _, _ => .pure (fun _ => trivial) fun _ _ => .inl
  | next :: rest, fits, _, _ =>
    .within _ (.bind (lowers_loose (fits next List.mem_cons_self) _ _) fun _ =>
      lowers_followingLoose rest (fun meaning member => fits meaning (List.mem_cons_of_mem _ member)) _ _)

theorem lowers_looseChain (index : Nat) {chain : List Meaning}
    (fits : ∀ meaning ∈ chain, meaning.Fits outcome .detached) (known : Prop) (owed : List String) :
    Lowers outcome phase known owed (looseChain index chain) (fun _ => True) fun _ => owed := by
  cases chain with
  | nil => exact .pure (fun _ => trivial) fun _ _ => .inl
  | cons first rest =>
    refine .within _ ?_
    split
    · exact .degrade _
    · exact .inPhase (.bind (lowers_loose (fits first List.mem_cons_self) _ _) fun _ =>
        lowers_followingLoose rest (fun meaning member => fits meaning (List.mem_cons_of_mem _ member)) _ _)

end Meaning

end

end FlipperBlocks
