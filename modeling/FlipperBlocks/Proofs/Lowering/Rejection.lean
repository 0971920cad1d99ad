import FlipperBlocks.Proofs.Lowering.Appending

/-! Blocks that are rejected.

A block in the wrong place, on a pin that is unfit for it, or with an input that it can make nothing of,
is recorded and left out. By then its inputs may have been lowered, with all that this brings about. -/
namespace FlipperBlocks

open C (Code)
open Lowering
open Program (counting)

def C.Code.IsRemark (code : Code) : Prop :=
  ∃ text, code = Code.line (.comment text) ∨ code = Code.line (.placeholder text)

structure Value.IsZero (value : Value) : Prop where
  kind : value.kind = .number
  array : value.array = none
  code : value.code ∈ ["0", "(/* no ADC channel */ 0)"]

namespace Compilation

def noting (c : Compilation) (noted : List Diagnostic) : Compilation :=
  { c with diagnostics := c.diagnostics ++ noted }

/-- A degradation at the current block is on record, after whatever is about its inputs, and nothing
else has changed. -/
def Reports (before : Compilation) (degradation : Degradation) (after : Compilation) : Prop :=
  ∃ noted, after = before.noting (noted ++ [⟨degradation, before.location⟩])

variable (c : Compilation)

theorem noting_noting (first second : List Diagnostic) :
    (c.noting first).noting second = c.noting (first ++ second) := by
  unfold noting
  rw [List.append_assoc]

theorem reports_noting (degradation : Degradation) :
    c.Reports degradation (c.noting [⟨degradation, c.location⟩]) :=
  ⟨[], rfl⟩

end Compilation

theorem Lowering.tentatively_of_none {α : Type} {action : Lowering (Option α)}
    (isLocal : Local action) {c : Compilation} (failed : (action c).1 = none) :
    ∃ noted, tentatively action c = (none, c.noting noted) := by
  obtain ⟨result, after, notes, runs⟩ := isLocal c.draft c.phase
  have run : action c = (result, ⟨after, c.phase, c.steps, _⟩) := runs c.steps c.diagnostics
  obtain rfl : result = none := by rw [← failed, run]
  exact ⟨notes.map (Note.seenFrom c.steps), tentatively_of_run run⟩

/-! Why a block is rejected. -/

def outputPurposes : List (BlockKind × String) :=
  [(.startPwm, "hardware PWM"), (.setPwm, "hardware PWM"), (.stopPwm, "hardware PWM"),
    (.servo, "servo control"), (.unlockServo, "servo control")]

namespace Site

/-- A block that is rejected as a statement, with the degradation that is recorded of it. -/
inductive RejectedAsStatement (site : Site) (c : Compilation) : Degradation → Prop
  | unknown {name : String} (kind : site.kind = .unknown name) :
      RejectedAsStatement site c (.unknownKind name)
  | value (produces : site.kind.producesValue = true) :
      RejectedAsStatement site c (.valueAsStatement site.kind.name)
  | key (kind : site.kind = .onKey) (elsewhere : c.phase ≠ .input) :
      RejectedAsStatement site c (.wrongPhase site.kind.name Phase.input.describe)
  | pin {purpose : String} (kind : (site.kind, purpose) ∈ outputPurposes)
      (unfit : (pinOf site).pwm? = none) :
      RejectedAsStatement site c (.unsupportedPin (pinOf site).name purpose)
  | stream (kind : site.kind = .writeBytes) (other : (site.number "DATA" "0" c).1.array = none) :
      RejectedAsStatement site c (.expectedBytes "DATA")
  | bytes (kind : site.kind = .setVariable) (stored : (site.number "VALUE" "0" c).1.kind = .bytes) :
      RejectedAsStatement site c (.bytesAsValue (variableName site))
  | text {storage : Storage} (kind : site.kind = .changeVariable)
      (declared : c.draft.lookup? (variableName site) = some storage)
      (other : storage.kind ≠ .number) :
      RejectedAsStatement site c (.textArithmetic (variableName site))

/-- A block that is rejected as a value, with the degradation that is recorded of it. -/
inductive RejectedAsValue (site : Site) (c : Compilation) : Degradation → Prop
  | unknown {name : String} (kind : site.kind = .unknown name) :
      RejectedAsValue site c (.unknownKind name)
  | statement (known : site.kind.isKnown = true) (produces : site.kind.producesValue = false) :
      RejectedAsValue site c (.statementAsValue site.kind.name)
  | analog (kind : site.kind ∈ [.readAnalog, .potentiometer])
      (unfit : (pinOf site).isAnalog = false) :
      RejectedAsValue site c (.unsupportedPin (pinOf site).name "analog input")
  | pin (kind : site.kind = .readPwm) (unfit : (pinOf site).pwm? = none) :
      RejectedAsValue site c (.unsupportedPin (pinOf site).name "hardware PWM")
  | stream (kind : site.kind ∈ [.streamLength, .streamByte])
      (other : (site.number "STREAM" "0" c).1.array = none) :
      RejectedAsValue site c (.expectedBytes "STREAM")

variable {site : Site} {c : Compilation}

/-! The inputs of a rejected block. -/

theorem scalar?_of_bytes {input : String} {default : Value} (isLocal : Local (site.value input default))
    (bytes : (site.value input default c).1.kind = .bytes) :
    ∃ noted, site.scalar? input default c = (none, c.noting noted) := by
  refine tentatively_of_none (.bind isLocal fun value => .pure _) ?_
  exact if_pos bytes

theorem streamIn?_of_other {input : String} (isLocal : Local (site.number input "0"))
    (other : (site.number input "0" c).1.array = none) : ∃ noted, streamIn? site input c =
      (none, c.noting (noted ++ [⟨.expectedBytes input, c.location⟩])) := by
  have failed : Stream.ofValue? (site.number input "0" c).1 = none := congrArg (Option.map _) other
  obtain ⟨noted, undone⟩ := tentatively_of_none
    (.bind isLocal fun value => .pure (Stream.ofValue? value)) failed
  refine ⟨noted, (bind_of_run undone).trans ?_⟩
  exact congrArg (Prod.mk none) (c.noting_noting noted _)

theorem pwmOutput?_of_unfit (purpose : String) (unfit : (pinOf site).pwm? = none) :
    pwmOutput? site purpose c =
      (none, c.noting [⟨.unsupportedPin (pinOf site).name purpose, c.location⟩]) := by
  unfold pwmOutput?
  rw [unfit]
  rfl

private theorem declare_of_declared {wanted storage : Storage}
    (declared : c.draft.lookup? wanted.name = some storage) : declare wanted c = (storage, c) := by
  have kept : modifyDraft (Draft.declare wanted) c = ((), c) := by
    change ((), { c with draft := c.draft.declare wanted }) = ((), c)
    rw [Draft.declare_of_declared declared]
  refine (bind_of_run kept).trans ?_
  refine (bind_of_run (rfl : getDraft c = (c.draft, c))).trans ?_
  rw [declared]
  rfl

theorem resolve_of_declared {storage : Storage}
    (declared : c.draft.lookup? (variableName site) = some storage) (asText : Bool) :
    resolve site asText c = (storage, c) := by
  unfold resolve
  generalize variableName site = name at declared
  exact @declare_of_declared _ ⟨name, _⟩ _ declared

/-! What becomes of a rejected block. -/

theorem asStatement_of_value (produces : site.kind.producesValue = true) :
    site.asStatement = degradedStatement (.valueAsStatement site.kind.name)
      (.comment ("value block " ++ site.kind.name ++ " ignored")) := by
  unfold asStatement
  generalize site.kind = kind at produces
  cases kind <;> simp only [BlockKind.producesValue, reduceCtorEq] at produces
  all_goals rfl

theorem asValue_of_statement (known : site.kind.isKnown = true)
    (produces : site.kind.producesValue = false) (wantsText : Bool) :
    site.asValue wantsText = degradedValue (.statementAsValue site.kind.name) := by
  unfold asValue
  generalize site.kind = kind at known produces
  cases kind <;> simp only [BlockKind.producesValue, BlockKind.isKnown, reduceCtorEq] at known produces
  all_goals rfl

theorem onKey_of_elsewhere (elsewhere : c.phase ≠ .input) :
    onKey site c = (Code.line (.comment (site.kind.name ++ " ignored outside the input section")),
      c.noting [⟨.wrongPhase site.kind.name Phase.input.describe, c.location⟩]) := by
  refine (bind_of_run (rfl : phase c = (c.phase, c))).trans ?_
  rw [if_neg elsewhere]
  rfl

/-- A block that drives an output makes a remark if its pin has none. -/
private theorem drives_of_unfit {purpose : String} (kind : (site.kind, purpose) ∈ outputPurposes)
    (unfit : (pinOf site).pwm? = none) : ∃ text, site.asStatement c = (Code.line (.comment text),
      c.noting [⟨.unsupportedPin (pinOf site).name purpose, c.location⟩]) := by
  unfold asStatement
  simp only [outputPurposes, List.mem_cons, Prod.mk.injEq, List.not_mem_nil, or_false] at kind
  rcases kind with ⟨kind, rfl⟩ | ⟨kind, rfl⟩ | ⟨kind, rfl⟩ | ⟨kind, rfl⟩ | ⟨kind, rfl⟩
  all_goals
    rw [kind]
    exact ⟨_, bind_of_run (pwmOutput?_of_unfit _ unfit)⟩

private theorem writeBytes_of_other (isLocal : Local (site.number "DATA" "0"))
    (other : (site.number "DATA" "0" c).1.array = none) : ∃ noted, writeBytes site c =
      (Code.line (.comment "I2C write bytes: DATA is not a byte stream"),
        c.noting (noted ++ [⟨.expectedBytes "DATA", c.location⟩])) := by
  obtain ⟨noted, failed⟩ := streamIn?_of_other isLocal other
  exact ⟨noted, bind_of_run failed⟩

private theorem setVariable_of_bytes (isLocal : Local (site.number "VALUE" "0"))
    (stored : (site.number "VALUE" "0" c).1.kind = .bytes) : ∃ noted, setVariable site c =
      (Code.line (.comment ("cannot assign a byte stream to " ++ variableName site)),
        c.noting (noted ++ [⟨.bytesAsValue (variableName site), c.location⟩])) := by
  obtain ⟨noted, failed⟩ := scalar?_of_bytes isLocal stored
  refine ⟨noted, (bind_of_run failed).trans ?_⟩
  exact congrArg (Prod.mk _) (c.noting_noting noted _)

private theorem changeVariable_of_other {storage : Storage}
    (declared : c.draft.lookup? (variableName site) = some storage) (other : storage.kind ≠ .number) :
    changeVariable site c = (Code.line (.comment ("cannot add a number to " ++ variableName site)),
        c.noting [⟨.textArithmetic (variableName site), c.location⟩]) := by
  have named : storage.name = variableName site := Draft.name_of_lookup? declared
  refine (bind_of_run (resolve_of_declared declared false)).trans ?_
  rw [if_neg other, named]
  rfl

variable {degradation : Degradation}

theorem RejectedAsStatement.run (rejected : site.RejectedAsStatement c degradation)
    (isLocal : ∀ input default, Local (site.value input default)) :
    (site.asStatement c).1.IsRemark ∧ c.Reports degradation (site.asStatement c).2 := by
  cases rejected with
  | unknown kind =>
    unfold asStatement
    rw [kind]
    exact ⟨⟨_, .inr rfl⟩, c.reports_noting _⟩
  | value produces =>
    rw [asStatement_of_value produces]
    exact ⟨⟨_, .inl rfl⟩, c.reports_noting _⟩
  | key kind elsewhere =>
    have start : site.asStatement = onKey site := by
      unfold asStatement
      rw [kind]
    rw [start, onKey_of_elsewhere elsewhere]
    exact ⟨⟨_, .inl rfl⟩, c.reports_noting _⟩
  | pin kind unfit =>
    obtain ⟨text, run⟩ := drives_of_unfit (c := c) kind unfit
    rw [run]
    exact ⟨⟨text, .inl rfl⟩, c.reports_noting _⟩
  | stream kind other =>
    have start : site.asStatement = writeBytes site := by
      unfold asStatement
      rw [kind]
    obtain ⟨noted, run⟩ := writeBytes_of_other (isLocal _ _) other
    rw [start, run]
    exact ⟨⟨_, .inl rfl⟩, noted, rfl⟩
  | bytes kind stored =>
    have start : site.asStatement = setVariable site := by
      unfold asStatement
      rw [kind]
    obtain ⟨noted, run⟩ := setVariable_of_bytes (isLocal _ _) stored
    rw [start, run]
    exact ⟨⟨_, .inl rfl⟩, noted, rfl⟩
  | text kind declared other =>
    have start : site.asStatement = changeVariable site := by
      unfold asStatement
      rw [kind]
    rw [start, changeVariable_of_other declared other]
    exact ⟨⟨_, .inl rfl⟩, c.reports_noting _⟩

private theorem analog_of_unfit (result : Pin → C.Expr) (unfit : (pinOf site).isAnalog = false) :
    analog site result c = (⟨.group (.remark "no ADC channel" (.number "0")), .number, none⟩,
      c.noting [⟨.unsupportedPin (pinOf site).name "analog input", c.location⟩]) := by
  unfold analog
  rw [unfit]
  rfl

theorem RejectedAsValue.run (rejected : site.RejectedAsValue c degradation)
    (isLocal : ∀ input default, Local (site.value input default)) (wantsText : Bool) :
    (site.asValue wantsText c).1.IsZero ∧ c.Reports degradation (site.asValue wantsText c).2 := by
  have zero : (Value.number "0").IsZero := ⟨rfl, rfl, by decide⟩
  have unmeasured : Value.IsZero ⟨.group (.remark "no ADC channel" (.number "0")), .number, none⟩ :=
    ⟨rfl, rfl, by decide⟩
  cases rejected with
  | unknown kind =>
    unfold asValue
    rw [kind]
    exact ⟨zero, c.reports_noting _⟩
  | statement known produces =>
    rw [asValue_of_statement known produces]
    exact ⟨zero, c.reports_noting _⟩
  | analog kind unfit =>
    have run : ∃ result, site.asValue wantsText = Lowering.analog site result := by
      unfold asValue
      rcases List.mem_pair.1 kind with kind | kind
      all_goals
        rw [kind]
        exact ⟨_, rfl⟩
    obtain ⟨result, start⟩ := run
    rw [start, analog_of_unfit result unfit]
    exact ⟨unmeasured, c.reports_noting _⟩
  | pin kind unfit =>
    have start : site.asValue wantsText = readPwm site := by
      unfold asValue
      rw [kind]
    have run : readPwm site c = _ := bind_of_run (pwmOutput?_of_unfit "hardware PWM" unfit)
    rw [start, run]
    exact ⟨zero, c.reports_noting _⟩
  | stream kind other =>
    obtain ⟨noted, failed⟩ := streamIn?_of_other (isLocal _ _) other
    have run : site.asValue wantsText c =
        (.number "0", c.noting (noted ++ [⟨.expectedBytes "STREAM", c.location⟩])) := by
      unfold asValue
      rcases List.mem_pair.1 kind with kind | kind
      all_goals
        rw [kind]
        exact bind_of_run failed
    rw [run]
    exact ⟨zero, noted, rfl⟩

theorem shown_of_bytes {input default : String} (isLocal : Local (site.text input default))
    (bytes : (site.text input default c).1.kind = .bytes) : ∃ noted, site.shown input default c =
      (.text "", c.noting (noted ++ [⟨.bytesAsValue input, c.location⟩])) := by
  obtain ⟨noted, failed⟩ := scalar?_of_bytes isLocal bytes
  refine ⟨noted, (bind_of_run failed).trans ?_⟩
  exact congrArg (Prod.mk _) (c.noting_noting noted _)

end Site

theorem C.Code.IsRemark.closes {code : Code} (remark : code.IsRemark) : C.Closes code.text [.comment] := by
  obtain ⟨text, rfl | rfl⟩ := remark
  · rw [Code.text_line]
    exact Line.closes trivial
  · rw [Code.text_line]
    exact Line.closes trivial

namespace Block

theorem local_value (block : Block) (input : String) (default : Value) :
    Local (block.site.value input default) := by
  have listed (part) (among : part ∈ block.parts) :
      part.head.variableNames ⊆ block.variableNames := fun _ member =>
    List.mem_flatMap.2 ⟨part, among, member⟩
  obtain ⟨twins, same⟩ := block.exists_twins listed
  rw [← same]
  exact (twins.value input default).isLocal

/-- A rejected block leaves nothing but what is recorded of it, however much it holds: as a statement
it is a comment, and as a value it is zero. An array that is to be shown leaves as little, and shows
nothing. -/
theorem rejection_leaves_no_trace (block : Block) (c : Compilation) :
    (∀ degradation, block.site.RejectedAsStatement c degradation →
      c.Reports degradation (block.meaning.statement c).2 ∧ (block.meaning.statement c).1.IsRemark ∧
          C.Closes (block.meaning.statement c).1.text [.comment]) ∧
    (∀ degradation wantsText, block.site.RejectedAsValue c degradation →
      c.Reports degradation (block.meaning.value wantsText c).2 ∧
        (block.meaning.value wantsText c).1.IsZero) ∧
    ∀ input default, (block.site.text input default c).1.kind = .bytes →
      c.Reports (.bytesAsValue input) (block.site.shown input default c).2 ∧
        (block.site.shown input default c).1 = .text "" := by
  rw [block.meaning_eq]
  refine ⟨fun degradation rejected => ?_, fun degradation wantsText rejected => ?_,
    fun input default bytes => ?_⟩
  · obtain ⟨remark, reports⟩ := rejected.run block.local_value
    exact ⟨reports, remark, remark.closes⟩
  · obtain ⟨zero, reports⟩ := rejected.run block.local_value wantsText
    exact ⟨reports, zero⟩
  · obtain ⟨noted, run⟩ := Site.shown_of_bytes (block.local_value input _) bytes
    rw [run]
    exact ⟨⟨noted, rfl⟩, rfl⟩

private def arrayInput (input : String) : List (String × List Block) :=
  [(input, [.mk { kind := .byteStream } [] []])]

def storeArray : Block :=
  .mk { kind := .setVariable, fields := [("VAR", .text "data")] } (arrayInput "VALUE") []

def variableLength : Block :=
  .mk { kind := .streamLength }
    [("STREAM", [.mk { kind := .getVariable, fields := [("VAR", .text "data")] } [] []])] []

def printArray : Block := .mk { kind := .print } (arrayInput "TEXT") []

theorem rejection_leaves_no_trace_of_arrays :
    (storeArray.site.number "VALUE" "0" counting.lowered).2.draft.storage.map Storage.name =
        ["count", "byte_stream_0"] ∧ counting.lowered.Reports (.bytesAsValue "data")
        (storeArray.meaning.statement counting.lowered).2 ∧ counting.lowered.Reports (.expectedBytes "STREAM")
        (variableLength.meaning.value false counting.lowered).2 ∧
      counting.lowered.Reports (.bytesAsValue "TEXT")
        (printArray.site.shown "TEXT" "" counting.lowered).2 := by
  have stored := (storeArray.rejection_leaves_no_trace counting.lowered).1 (.bytesAsValue "data")
    (.bytes rfl (by decide +kernel))
  have measured := (variableLength.rejection_leaves_no_trace counting.lowered).2.1
    (.expectedBytes "STREAM") false (.stream (by decide) (by decide +kernel))
  have printed := (printArray.rejection_leaves_no_trace counting.lowered).2.2 "TEXT" "" (by decide +kernel)
  exact ⟨by decide +kernel, stored.1, measured.1, printed.1⟩

end Block

end FlipperBlocks
