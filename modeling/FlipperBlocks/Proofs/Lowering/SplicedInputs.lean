import FlipperBlocks.Proofs.Lowering.SplicedCode
import FlipperBlocks.Proofs.Lowering.UnsealedValues

/-! How often a block splices what it gets from an input.

What counts of an input is the code that a block gets from it in the state that the block is lowered in.
The block is compared with one that gets code it takes in every state. -/
namespace FlipperBlocks

open C (Code Expr)
open Lowering

namespace Site

/-- All that a block gets from an input when it is lowered in this state fits: what is done to other
values makes no difference to what comes of the block. -/
def Gets (site : Site) (input : String) (fits : Value → Prop) (c : Compilation) : Prop :=
  ∀ change change' : Value → Value, (∀ value, fits value → change value = change' value) →
    (site.changing input change).asStatement c = (site.changing input change').asStatement c ∧
      ∀ wantsText, (site.changing input change).asValue wantsText c =
        (site.changing input change').asValue wantsText c

/-- A value that every block takes from every input. -/
private def standIn : Value := ⟨.group (.name ""), .number, some ""⟩

open Classical in
private noncomputable def granted (kind : BlockKind) (input : String) (value : Value) : Value :=
  if kind.Takes input value then value else standIn

section

variable (kind : BlockKind) (input : String) (value : Value)

private theorem granted_eq : granted kind input value = value ∨ granted kind input value = standIn := by
  unfold granted
  split
  · exact .inl rfl
  · exact .inr rfl

private theorem takes_granted : kind.Takes input (granted kind input value) := by
  unfold granted
  split
  · assumption
  · exact ⟨rfl, fun _ => nofun, fun _ => by decide⟩

private theorem seals_granted (unsealed : value.expr.seals = 0) : (granted kind input value).expr.seals = 0 := by
  rcases granted_eq kind input value with same | same <;> rw [same]
  · exact unsealed
  · rfl

end

private noncomputable abbrev granting (site : Site) (input : String) : Site :=
  site.changing input (granted site.kind input)

variable {site : Site} {input : String} {first : Meaning} {rest : List Meaning}
  (held : site.values.get? input = some (first :: rest)) {c : Compilation} {reason : Degradation}

include held

private theorem holding_granting (unsealed : ∀ wantsText c, (first.value wantsText c).1.expr.seals = 0) :
    (site.granting input).Holding input (first.passing (pure ∘ granted site.kind input))
      (rest.map (Meaning.passing (pure ∘ granted site.kind input))) :=
  ⟨get?_passing_of_held held, fun _ => takes_granted .., fun c => seals_granted _ _ _ (unsealed _ c)⟩

private theorem value_granting (name : String) (default : Value) (c : Compilation) :
    ((site.granting input).value name default c).1 = (site.value name default c).1 ∨
      ((site.granting input).value name default c).1 = standIn := by
  unfold granting changing
  by_cases same : name = input
  · rw [same, value_passing_of_held (fun _ _ _ => rfl) held]
    exact granted_eq ..
  · rw [value_passing_of_ne same]
    exact .inl rfl

private theorem rejected_of_granting (rejected : (site.granting input).RejectedAsStatement c reason) :
    site.RejectedAsStatement c reason := by
  cases rejected with
  | unknown kind => exact .unknown kind
  | value produces => exact .value produces
  | key kind elsewhere => exact .key kind elsewhere
  | pin kind unfit => exact .pin kind unfit
  | text kind declared other => exact .text kind declared other
  | stream kind other =>
    rcases value_granting held "DATA" (.number "0") c with same | same
    · exact .stream kind (same ▸ other)
    · cases (congrArg Value.array same).symm.trans other
  | bytes kind stored =>
    rcases value_granting held "VALUE" (.number "0") c with same | same
    · exact .bytes kind (same ▸ stored)
    · cases (congrArg Value.kind same).symm.trans stored

private theorem rejectedValue_of_granting (rejected : (site.granting input).RejectedAsValue c reason) :
    site.RejectedAsValue c reason := by
  cases rejected with
  | unknown kind => exact .unknown kind
  | statement known produces => exact .statement known produces
  | analog kind unfit => exact .analog kind unfit
  | pin kind unfit => exact .pin kind unfit
  | stream kind other =>
    rcases value_granting held "STREAM" (.number "0") c with same | same
    · exact .stream kind (same ▸ other)
    · cases (congrArg Value.array same).symm.trans other

end Site

/-- What a block makes of an input when the expression in it is sealed: the same text, with a seal for
every copy of the expression. -/
structure Block.SplicesInput (block : Block) (input : String) (c : Compilation) : Prop where
  statement : (∀ reason, ¬ block.site.RejectedAsStatement c reason) →
    Alongside (Code.Spliced input block.site.spliced) (block.site.asStatement c)
      ((block.site.sealing input).asStatement c)
  value : (∀ reason, ¬ block.site.RejectedAsValue c reason) → ∀ wantsText,
    Emits input block.site.spliced (block.site.asValue wantsText c)
      ((block.site.sealing input).asValue wantsText c)
  /-- No input is listed twice. -/
  once : block.site.kind ≠ .updateBits → block.site.spliced.Nodup
  /-- To replace bits, the device and the register are named to read and once more to write. -/
  twice : block.site.kind = .updateBits → block.site.spliced =
    ["ADDR", "REG", "TIMEOUT"] ++ ["MASK", "VALUE"] ++ ["ADDR", "REG", "TIMEOUT"]

/-- A block that gets code which it takes from an input splices the code as often as the input is listed,
which is once, and twice for the device and the register whose bits are replaced. -/
theorem Block.inputs_spliced_as_listed (block inner : Block) {input : String} {rest : List Meaning}
    (held : block.site.values.get? input = some (inner.meaning :: rest)) {c : Compilation}
    (gets : block.site.Gets input (block.site.kind.Takes input) c) : block.SplicesInput input c := by
  have holding := Site.holding_granting held (block.unsealed input inner.meaning rest held)
  have names : (block.site.granting input).spliced = block.site.spliced := by
    unfold Site.spliced
    rw [Site.Holding.branchCount_changing]
    rfl
  -- Values that are not taken make no difference, neither as they are nor sealed.
  obtain ⟨statement, value⟩ := gets (Site.granted block.site.kind input) id fun _ takes => if_pos takes
  obtain ⟨sealedStatement, sealedValue⟩ := gets (Value.sealed ∘ Site.granted block.site.kind input)
    Value.sealed fun _ takes => congrArg Value.sealed (if_pos takes)
  have plain : block.site.changing input id = block.site := Site.passing_pure
  have sealing : (block.site.granting input).sealing input =
      block.site.changing input (Value.sealed ∘ Site.granted block.site.kind input) :=
    Site.passing_passing _
  refine ⟨fun kept => ?_, fun kept wantsText => ?_, block.site.nodup_spliced, fun kind => ?_⟩
  · have along := holding.asStatement c fun reason => kept reason ∘ Site.rejected_of_granting held
    rw [names, sealing, statement, sealedStatement, plain] at along
    exact along
  · have emits := holding.asValue c (fun reason => kept reason ∘ Site.rejectedValue_of_granting held) wantsText
    rw [names, sealing, value, sealedValue, plain] at emits
    exact emits
  · unfold Site.spliced
    rw [kind]
    rfl

/-- Bytes are read before anything else, in the state that the block is lowered in. -/
theorem Site.gets_stream {site : Site} {first : Meaning} {rest : List Meaning} {c : Compilation}
    (kind : site.kind = .streamByte) (held : site.values.get? "STREAM" = some (first :: rest))
    (takes : site.kind.Takes "STREAM" (site.number "STREAM" "0" c).1) :
    site.Gets "STREAM" (site.kind.Takes "STREAM") c := by
  intro change change' same
  have kept (change : Value → Value) : (site.changing "STREAM" change).kind = .streamByte := kind
  have index (change : Value → Value) :
      (site.changing "STREAM" change).numeric "INDEX" "0" = site.numeric "INDEX" "0" := by
    unfold numeric number changing
    rw [value_passing_of_ne (by decide)]
  have read (change : Value → Value) : (site.changing "STREAM" change).number "STREAM" "0" c =
      (change (site.number "STREAM" "0" c).1, (site.number "STREAM" "0" c).2) := by
    unfold number changing
    rw [value_passing_of_held (fun _ _ _ => rfl) held]
    rfl
  have stream : streamIn? (site.changing "STREAM" change) "STREAM" c =
      streamIn? (site.changing "STREAM" change') "STREAM" c :=
    streamIn?_congr (by rw [read, read, same _ takes])
  unfold asStatement asValue
  rw [kept, kept]
  refine ⟨rfl, fun _ => ?_⟩
  dsimp only
  unfold streamByte
  rw [index, index]
  exact bind_of_run stream

namespace Block

private def anyNumber : Block := .mk { kind := .randomNumber } [] []

private def anyBytes : Block := .mk { kind := .readBytes } [] []

def byteAtRandom : Block := .mk { kind := .streamByte } [("STREAM", [anyBytes]), ("INDEX", [anyNumber])] []

/-- A read of bytes and the place of a byte in them are each spliced once. -/
theorem byteAtRandom_inputs_once : (∀ reason, ¬ byteAtRandom.site.RejectedAsValue {} reason) ∧
      (byteAtRandom.site.Gets "STREAM" (byteAtRandom.site.kind.Takes "STREAM") {} ∧
        Emits "STREAM" ["STREAM", "INDEX"] (byteAtRandom.site.asValue false {})
          ((byteAtRandom.site.sealing "STREAM").asValue false {})) ∧
      byteAtRandom.site.Gets "INDEX" (byteAtRandom.site.kind.Takes "INDEX") {} ∧
        Emits "INDEX" ["STREAM", "INDEX"] (byteAtRandom.site.asValue false {})
          ((byteAtRandom.site.sealing "INDEX").asValue false {}) := by
  have kept : ∀ reason, ¬ byteAtRandom.site.RejectedAsValue {} reason := by
    intro reason rejected
    cases rejected with
    | unknown kind => cases kind
    | statement _ produces => cases produces
    | analog kind _ => exact absurd kind (by decide)
    | pin kind _ => cases kind
    | stream _ other => cases other
  have read := @Site.gets_stream byteAtRandom.site _ _ {} rfl rfl
    ⟨rfl, fun listed => absurd listed (by decide), fun _ => by decide +kernel⟩
  have index : byteAtRandom.site.Gets "INDEX" (byteAtRandom.site.kind.Takes "INDEX") {} := by
    have run (change : Value → Value) (wantsText : Bool) :
        (byteAtRandom.site.changing "INDEX" change).asValue wantsText {} = (byteAtRandom.site.changing "INDEX"
          fun _ => change (anyNumber.meaning.value false {}).1).asValue wantsText {} := rfl
    refine fun change change' same => ⟨rfl, fun wantsText => ?_⟩
    rw [run change, run change', same _ ⟨rfl, fun listed => absurd listed (by decide),
      fun listed => absurd listed (by decide)⟩]
  exact ⟨kept, ⟨read, (byteAtRandom.inputs_spliced_as_listed anyBytes rfl read).value kept false⟩, index,
    (byteAtRandom.inputs_spliced_as_listed anyNumber rfl index).value kept false⟩

end Block

namespace Program

def randomDevice : Program := ofSection "LOOP"
  [.mk { kind := .updateBits } [("ADDR", [.mk { kind := .randomNumber } [] []]),
    ("MASK", [.mk { kind := .hexNumber, fields := [("HEX", .text "0x01")] } [] []])] []]

def randomTimes : Program := ofSection "LOOP"
  [.mk { kind := .repeated } [("TIMES", [.mk { kind := .randomNumber } [] []])] []]

/-- Bits are read from one random device and written to another, and a loop asks for a new number of
times whenever it has run. -/
theorem random_inputs_evaluated_again :
    (∃ read ∈ randomDevice.lowered.draft.loop, ∃ write ∈ randomDevice.lowered.draft.loop,
      read.line.text = "if(kb_i2c_read_reg8(1, (uint8_t)(random_range(0, 100)), (uint8_t)(0x00), " ++
        "&_tmp, (uint32_t)(50))) \x7b" ∧
      write.line.text = "kb_i2c_write_reg8(1, (uint8_t)(random_range(0, 100)), (uint8_t)(0x00), " ++
        "_tmp, (uint32_t)(50));") ∧ ∃ head ∈ randomTimes.lowered.draft.loop,
      head.line.text = "for(int i_0 = 0; i_0 < random_range(0, 100); i_0++) \x7b" := by
  decide +kernel

end Program

end FlipperBlocks
