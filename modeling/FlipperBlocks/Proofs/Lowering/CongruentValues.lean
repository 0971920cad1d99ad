import FlipperBlocks.Proofs.Block.InputNames
import FlipperBlocks.Proofs.Lowering.Concord

/-! Blocks as values, under a relation that is handed on. -/
namespace FlipperBlocks

open C (Expr)
open C.Identifier (isIdentifier)
open Lowering

variable {rules : Rules} {head : BlockHead} {R : Concord rules head}

structure Counterparts (R : Concord rules head) where
  id : Option String
  values : Entries (List Meaning)
  bodies : Entries (List Meaning)
  values' : Entries (List Meaning)
  bodies' : Entries (List Meaning)
  listed : ∀ name ∈ head.variableNames, rules.isVariable name
  value {phase known} {input : String} {default : Value} : namesValue input = true →
    (∀ draft, known.holds draft → default.Meets (rules.value phase draft)) → R.holds phase known (Fact.value phase)
      (Site.value ⟨head, values, bodies⟩ input default)
      (Site.value ⟨{ head with id := id }, values', bodies'⟩ input default)

namespace Counterparts

abbrev first (pair : Counterparts R) : Site := ⟨head, pair.values, pair.bodies⟩

abbrev second (pair : Counterparts R) : Site := ⟨{ head with id := pair.id }, pair.values', pair.bodies'⟩

abbrev Gives (pair : Counterparts R) (phase : Phase) (known : Fact rules) (handler : Site → Lowering Value) : Prop :=
  R.holds phase known (Fact.value phase) (handler pair.first) (handler pair.second)

variable (pair : Counterparts R) {phase : Phase} {known : Fact rules}

theorem field?_second (name : String) : pair.second.head.field? name = pair.first.head.field? name := rfl

theorem pinOf_second : pinOf pair.second = pinOf pair.first := rfl

/-! What the inputs hold. -/

theorem number {input default : String} (names : namesValue input = true)
    (numeral : C.isNumeral default.toList = true) :
    pair.Gives phase known fun site => site.number input default :=
  pair.value names fun _ _ => .number numeral

theorem text {input : String} (default : String) (names : namesValue input = true) :
    pair.Gives phase known fun site => site.text input default :=
  pair.value names fun _ _ => .text default

theorem truth {input : String} (default : Bool) (names : namesValue input = true) :
    pair.Gives phase known fun site => site.truth input default :=
  pair.value names fun _ _ => .truth default

variable {input : String} {draft : Draft}

theorem numeric {default : String} (names : namesValue input = true)
    (numeral : C.isNumeral default.toList = true) :
    pair.Gives phase known fun site => site.numeric input default :=
  R.bind (pair.number names numeral) fun _ => R.toNumber fun _ => And.right

theorem scalar? {default : Value} (names : namesValue input = true)
    (meets : ∀ draft, default.Meets (rules.value phase draft)) :
    R.holds phase known (Fact.ofSome (Fact.value phase)) (pair.first.scalar? input default)
      (pair.second.scalar? input default) := by
  refine R.tentatively (R.bind (pair.value names fun draft _ => meets draft) fun value => ?_)
  split
  · exact R.pure fun _ _ => trivial
  · exact R.pure fun _ => And.right

theorem shown (default : String) (names : namesValue input = true) :
    pair.Gives phase known fun site => site.shown input default := by
  refine R.bind (pair.scalar? names fun _ => .text default) fun found => ?_
  cases found with
  | some value => exact R.toText fun _ => And.right
  | none => exact R.next (R.degrade rfl (.inl rfl)) fun _ => R.pure fun _ _ => .text _

theorem streamIn? (names : namesValue input = true) :
    R.holds phase known (Fact.found (Fact.stream phase)) (Lowering.streamIn? pair.first input)
      (Lowering.streamIn? pair.second input) := by
  have undone : R.holds phase known (Fact.ofSome (Fact.stream phase))
      (tentatively do return Stream.ofValue? (← pair.first.number input "0"))
      (tentatively do return Stream.ofValue? (← pair.second.number input "0")) := by
    refine R.tentatively (R.bind (pair.number names (by decide)) fun value => R.pure fun draft facts => ?_)
    cases found : Stream.ofValue? value with
    | none => trivial
    | some stream => exact .ofValue? facts.2 found
  refine R.bind undone fun found => ?_
  cases found with
  | none => exact R.bind (R.degrade rfl (.inl rfl)) fun _ => R.pure fun _ => And.right
  | some stream => exact R.pure fun _ => And.right

/-! Operators and conversions. -/

theorem comparison : pair.Gives phase known Lowering.comparison := by
  refine R.bind (pair.number rfl (by decide)) fun a => R.bind (pair.number rfl (by decide)) fun b => ?_
  split
  · exact R.pure fun draft facts => .of_expr (by simp +decide [facts.1.2.expr, facts.2.expr])
  · exact R.bind (R.toNumber fun _ facts => facts.1.2) fun _ => R.bind (R.toNumber fun _ facts => facts.1.2) fun _ =>
      R.pure fun draft facts => .of_expr (by simp [facts.1.2.expr, facts.2.expr])

theorem logical : pair.Gives phase known Lowering.logical :=
  R.bind (pair.truth false rfl) fun _ => R.bind (pair.truth false rfl) fun _ =>
    R.pure fun draft facts => .of_expr (by simp [facts.1.2.expr, facts.2.expr])

theorem negation : pair.Gives phase known Lowering.negation :=
  R.bind (pair.truth false rfl) fun _ => R.pure fun draft facts => .of_expr (by simp [facts.2.expr])

theorem arithmetic : pair.Gives phase known Lowering.arithmetic := by
  refine R.bind (pair.numeric rfl (by decide)) fun a => R.bind (pair.numeric rfl (by decide)) fun b => ?_
  rw [pair.field?_second]
  dsimp only
  split
  · exact R.next (R.enable _) fun _ => R.pure fun draft facts =>
      .of_expr (by simp +decide [facts.1.2.expr, facts.2.expr])
  · exact R.pure fun draft facts => .of_expr (by simp [facts.1.2.expr, facts.2.expr])

theorem bitwise (op : C.BinaryOp) : pair.Gives phase known (Lowering.bitwise op) :=
  R.bind (pair.numeric rfl (by decide)) fun _ => R.bind (pair.numeric rfl (by decide)) fun _ =>
    R.pure fun draft facts => .of_expr (by simp [facts.1.2.expr, facts.2.expr])

theorem complement : pair.Gives phase known Lowering.complement :=
  R.bind (pair.numeric rfl (by decide)) fun _ => R.pure fun draft facts => .of_expr (by simp [facts.2.expr])

theorem textToNumber : pair.Gives phase known Lowering.textToNumber :=
  R.bind (pair.text "" rfl) fun _ => R.toNumber fun _ => And.right

theorem numberToText : pair.Gives phase known Lowering.numberToText := by
  refine R.bind (pair.number rfl (by decide)) fun value => ?_
  split
  · exact R.pure fun _ => And.right
  · split
    · exact R.pure fun _ _ => .text _
    · exact R.fetch (.number value.expr) (fun _ facts => List.forall_mem_singleton.2 facts.2.expr) nofun

theorem textLength : pair.Gives phase known Lowering.textLength :=
  R.bind (pair.shown "" rfl) fun _ => R.pure fun draft facts => .of_expr (by simp +decide [facts.2.expr])

theorem randomNumber : pair.Gives phase known Lowering.randomNumber :=
  R.bind (pair.numeric rfl (by decide)) fun _ => R.bind (pair.numeric rfl (by decide)) fun _ =>
    R.next (R.enable _) fun _ => R.pure fun draft facts =>
      .of_expr (by simp +decide [facts.1.2.expr, facts.2.expr])

/-! Files and variables. -/

theorem filePath : pair.Gives phase known Lowering.filePath := pair.shown _ rfl

theorem readFile : pair.Gives phase known Lowering.readFile :=
  R.next (R.enable _) fun _ => R.bind pair.filePath fun path =>
    R.fetch (.file path.expr) (fun _ facts => List.forall_mem_singleton.2 facts.2.expr) nofun

theorem fileExists : pair.Gives phase known Lowering.fileExists :=
  R.next (R.enable _) fun _ => R.bind pair.filePath fun _ =>
    R.pure fun draft facts => .of_expr (by simp +decide [facts.2.expr])

theorem resolve (kind : head.kind ∈ [.getVariable, .setVariable, .changeVariable]) (asText : Bool) :
    R.holds phase known (fun storage => (Fact.of (rules.isVariable storage.name ∧
        isIdentifier storage.name = true)).and (.sized phase storage.value.array))
      (Lowering.resolve pair.first asText) (Lowering.resolve pair.second asText) := by
  have listed := BlockHead.mem_variableNames kind
  have usable := C.Identifier.usable_sanitize (head.fieldOr "VAR" C.Identifier.fallback)
  refine R.imp (R.resolve usable listed asText) fun storage draft _ facts => ⟨?_, facts.2⟩
  obtain ⟨same, _⟩ := facts
  dsimp only at same ⊢
  rw [same]
  exact ⟨pair.listed _ listed, usable.1⟩

theorem getVariable (kind : head.kind = .getVariable) (wantsText : Bool) :
    pair.Gives phase known fun site => Lowering.getVariable site wantsText :=
  R.bind (pair.resolve (by simp [kind]) wantsText) fun storage => R.pure fun _ facts =>
    storage.meets_value (rules.named facts.2.1.1 facts.2.1.2) (rules.reads (.inr facts.2.1.1)) (facts.2.2 _)

/-! Pins, sensors and outputs. -/

theorem readPin : pair.Gives phase known Lowering.readPin :=
  R.next (R.enable _) fun _ => R.pure fun draft _ => .of_expr (by simp +decide [pinLevel])

theorem analog {result : Pin → Expr} (asks : (pinOf pair.first).isAnalog = true →
      head.setup? = some { pin := pinOf pair.first, mode := .analog })
    (meets : ∀ draft pin, (result pin).Meets (rules.value phase draft)) :
    pair.Gives phase known fun site => Lowering.analog site result := by
  unfold Gives Lowering.analog
  dsimp only
  rw [pair.pinOf_second]
  split
  · rename_i able
    exact R.next (R.enable _) fun _ => R.next (R.configurePin (asks able) rfl) fun _ =>
      R.pure fun draft _ => .of_expr (meets draft _)
  · refine R.bind (R.degrade rfl (.inl rfl)) fun _ => R.pure fun draft facts => .of_expr ?_
    have unclear : ¬ rules.clear := facts.2
    simp +decide [unclear]

private theorem meets_measurement (pin : Pin) {sampling : String}
    (listed : sampling ∈ ["FuriHalAdcSamplingtime24_5", "FuriHalAdcSamplingtime92_5",
      "FuriHalAdcSamplingtime247_5"]) : (measurement pin sampling).Meets (rules.value phase draft) := by
  simp only [List.mem_cons, List.not_mem_nil, or_false] at listed
  rcases listed with rfl | rfl | rfl <;> simp +decide [measurement, analogScale]

private theorem meets_millivolts {raw : Expr} (meets : raw.Meets (rules.value phase draft)) :
    (millivolts raw).Meets (rules.value phase draft) := by
  simp +decide [millivolts, analogScale, meets]

private theorem asks_analog (kind : head.kind ∈ [.readAnalog, .potentiometer])
    (able : (pinOf pair.first).isAnalog = true) :
    head.setup? = some { pin := pinOf pair.first, mode := .analog } := by
  unfold BlockHead.setup?
  rcases List.mem_pair.1 kind with kind | kind <;> rw [kind] <;> exact if_pos able

theorem readAnalog (kind : head.kind = .readAnalog) : pair.Gives phase known Lowering.readAnalog := by
  refine pair.analog (pair.asks_analog (by simp [kind])) fun draft pin => ?_
  have raw : (measurement pin "FuriHalAdcSamplingtime92_5").Meets (rules.value phase draft) :=
    meets_measurement pin (by simp)
  dsimp only
  split
  · exact meets_millivolts raw
  · exact Expr.meets_group.2 raw

private theorem sampling_listed (ohms : Float) : sampling ohms ∈
    ["FuriHalAdcSamplingtime24_5", "FuriHalAdcSamplingtime92_5", "FuriHalAdcSamplingtime247_5"] := by
  unfold sampling
  split
  · simp
  · split <;> simp

theorem potentiometer (kind : head.kind = .potentiometer) : pair.Gives phase known Lowering.potentiometer := by
  refine pair.analog (pair.asks_analog (by simp [kind])) fun draft pin => ?_
  have raw : (measurement pin (sampling (resistance pair.first))).Meets (rules.value phase draft) :=
    meets_measurement pin (sampling_listed _)
  dsimp only
  split
  · exact meets_millivolts raw
  · simp +decide [percent, raw]
  · exact Expr.meets_group.2 raw

theorem distance : pair.Gives phase known Lowering.distance :=
  R.next (R.enable _) fun _ => R.pure fun draft _ => .of_expr (by simp +decide)

theorem motion (kind : head.kind = .motion) : pair.Gives phase known Lowering.motion := by
  have asks : head.setup? = some { pin := pinOf pair.first, mode := .input } := by
    rw [BlockHead.setup?, kind]
    rfl
  exact R.next (R.enable _) fun _ => R.next (R.configurePin asks rfl) fun _ =>
    R.pure fun draft _ => .of_expr (by simp +decide [pinLevel])

theorem readClimate {quantity : Climate} (measured : quantity ∈ [temperature, humidity]) :
    pair.Gives phase known (Lowering.readClimate quantity) :=
  R.next (R.enable _) fun _ => R.fetch (.climate quantity measured (pinOf pair.first))
    (fun _ _ => List.forall_mem_nil _) nofun

theorem pwmOutput? (purpose : String) :
    R.holds phase known (Fact.found fun _ => .of True) (Lowering.pwmOutput? pair.first purpose)
      (Lowering.pwmOutput? pair.second purpose) := by
  unfold Lowering.pwmOutput?
  rw [pair.pinOf_second]
  dsimp only
  split
  · exact R.pure fun _ _ => trivial
  · exact R.bind (R.degrade rfl (.inl rfl)) fun _ => R.pure fun _ => And.right

theorem pwmState (output : PwmOutput) :
    R.holds phase known (fun state => (Fact.expr phase state.1).and (.expr phase state.2))
      (Lowering.pwmState output) (Lowering.pwmState output) := by
  have meets (draft : Draft) {storage found : Storage} (listed : storage ∈ output.states)
      (same : found.name = storage.name) : found.place.Meets (rules.value phase draft) := by
    have other : ∀ storage ∈ output.states, storage.name.toList.take 2 ∉ slotStarts := by
      cases output <;> decide
    have free := PwmOutput.free_state listed
    rw [← same] at free
    exact Storage.meets_place (rules.named_of_free free) (Rules.use_read (same ▸ other storage listed))
  exact R.bind (R.state List.mem_cons_self) fun _ =>
    R.bind (R.state (List.mem_cons_of_mem _ List.mem_cons_self)) fun _ =>
      R.pure fun draft facts => ⟨meets draft List.mem_cons_self facts.1.2,
        meets draft (List.mem_cons_of_mem _ List.mem_cons_self) facts.2⟩

theorem readPwm : pair.Gives phase known Lowering.readPwm := by
  refine R.bind (pair.pwmOutput? _) fun output => ?_
  cases output with
  | none => exact R.pure fun _ _ => .number (by decide)
  | some output =>
    refine R.bind (pwmState output) fun state => R.pure fun draft facts => .of_expr ?_
    split
    · exact facts.2.1
    · exact facts.2.2

/-! Byte streams and devices. -/

theorem byteStream : pair.Gives phase known Lowering.byteStream := by
  refine R.imp (R.byteStream pair.first) fun value draft _ made => ?_
  obtain ⟨⟨number, rfl⟩, sized⟩ := made
  refine .bytes (Expr.meets_name.2 ⟨Rules.atom_name (Draft.free_numbered (by decide) (by decide) _), ?_⟩)
    (sized _ rfl)
  refine Rules.use_read ?_
  rw [Draft.take_numbered (by decide)]
  decide

theorem streamLength : pair.Gives phase known Lowering.streamLength := by
  refine R.bind (pair.streamIn? rfl) fun found => ?_
  cases found with
  | none => exact R.pure fun _ _ => .number (by decide)
  | some stream =>
    refine R.pure fun draft facts => .of_expr ?_
    simp +decide [arraySize, (Expr.meets_name.1 facts.2.array.1).1, facts.2.array.2]

private theorem meets_byteAt {stream : Stream} {position : Value}
    (meets : stream.Meets (rules.value phase draft)) (indexed : position.Meets (rules.value phase draft)) :
    (byteAt stream position).Meets (rules.value phase draft) := by
  obtain ⟨named, permitted⟩ := Expr.meets_name.1 meets.array.1
  have sized := meets.array.2
  have discards (read : Expr) (member : read ∈ stream.read) : (discarded read).Meets (rules.value phase draft) :=
    Expr.meets_cast.2 ⟨Rules.atom_type (by decide), meets.read read member⟩
  unfold byteAt
  dsimp only
  split
  · rename_i n _
    have digits : C.isNumeral n.repr.toList = true := C.isNumeral_integer n
    split
    · rename_i read present
      simp +decide [discards read present, inBounds, arraySize, named, permitted, sized, digits]
    · simp +decide [inBounds, arraySize, named, permitted, sized, digits]
  · simp only [Expr.meets_steps, List.forall_mem_append, List.forall_mem_map, Option.mem_toList,
      List.forall_mem_cons]
    exact ⟨discards, by simp +decide [indexed.expr], by simp +decide [inBounds, arraySize, named, permitted, sized],
      List.forall_mem_nil _⟩

theorem streamByte : pair.Gives phase known Lowering.streamByte := by
  refine R.bind (pair.streamIn? rfl) fun found => ?_
  cases found with
  | none => exact R.pure fun _ _ => .number (by decide)
  | some stream =>
    exact R.bind (pair.numeric rfl (by decide)) fun _ => R.pure fun draft facts =>
      .of_expr (meets_byteAt facts.1.2 facts.2)

theorem transfer :
    R.holds phase known (fun transfer => (Fact.expr phase transfer.address).and (.expr phase transfer.timeout))
      (Transfer.ofSite pair.first) (Transfer.ofSite pair.second) :=
  R.bind (pair.numeric rfl (by decide)) fun _ => R.bind (pair.numeric rfl (by decide)) fun _ =>
    R.pure fun _ facts => ⟨facts.1.2.expr, facts.2.expr⟩

theorem deviceReady : pair.Gives phase known Lowering.deviceReady := by
  refine R.bind pair.transfer fun transfer => R.next (R.enable _) fun _ => R.pure fun draft facts => .of_expr ?_
  simpa +decide [Transfer.call, Transfer.device, Transfer.busNumber, Transfer.patience] using facts.2

theorem readRegister (width : RegisterWidth) : pair.Gives phase known (Lowering.readRegister width) := by
  refine R.bind pair.transfer fun transfer => R.bind (pair.numeric rfl (by decide)) fun register =>
    R.next (R.enable _) fun _ => R.fetch (.register width transfer register.expr) (fun draft facts => ?_)
      (by cases width <;> simp [Read.type, RegisterWidth.storageType])
  simpa [Read.inputs] using ⟨facts.1.2.1, facts.2.expr, facts.1.2.2⟩

theorem blockLength_bounds (value : Value) : 1 ≤ blockLength value ∧ blockLength value ≤ 64 := by
  unfold blockLength
  omega

theorem readBytes : pair.Gives phase known Lowering.readBytes := by
  refine R.bind pair.transfer fun transfer => R.bind (pair.numeric rfl (by decide)) fun memory =>
    R.bind (pair.number rfl (by decide)) fun length => R.next (R.enable _) fun _ =>
      R.fetch (.block transfer memory.expr (blockLength length)) (fun draft facts => ?_) fun _ same => ?_
  · simpa [Read.inputs] using ⟨facts.1.1.2.1, facts.1.2.expr, facts.1.1.2.2⟩
  · injection same with same
    exact same ▸ blockLength_bounds length

/-! All values. -/

theorem degradedValue {degradation : Degradation} (other : degradation.isPinConflict = false)
    (suits : degradation.kind? = none ∨ degradation.kind? = some head.kind.name) :
    pair.Gives phase known fun _ => Lowering.degradedValue degradation :=
  R.next (R.degrade other suits) fun _ => R.pure fun _ _ => .number (by decide)

private theorem isNumeral_numberLiteral (site : Site) :
    C.isNumeral (((site.head.numberField? "NUM").map Binary64.literal).getD "0").toList = true := by
  cases site.head.numberField? "NUM" with
  | none => decide
  | some x => exact C.isNumeral_literal x

private theorem meets_hexLiteral (site : Site) : (hexLiteral site).Meets (rules.value phase draft) := by
  refine .number ?_
  split
  · exact C.isNumeral_hex ‹_›
  · decide

theorem asValue (wantsText : Bool) : pair.Gives phase known fun site => site.asValue wantsText := by
  unfold Gives Site.asValue
  dsimp only [Site.kind]
  split
  iterate 2 · exact R.pure fun _ _ => .number (by decide)
  · exact R.pure fun _ _ => .truth _
  · exact R.pure fun _ _ => .number (isNumeral_numberLiteral pair.first)
  · exact R.pure fun _ _ => meets_hexLiteral pair.first
  · exact R.pure fun _ _ => .text _
  · exact pair.comparison
  · exact pair.logical
  · exact pair.negation
  · exact pair.arithmetic
  iterate 3 · exact pair.bitwise _
  · exact pair.complement
  · exact pair.getVariable ‹_› wantsText
  · exact pair.textToNumber
  · exact pair.numberToText
  · exact pair.textLength
  · exact pair.randomNumber
  · exact pair.readFile
  · exact pair.fileExists
  · exact pair.readPin
  · exact pair.readAnalog ‹_›
  · exact pair.potentiometer ‹_›
  · exact pair.readPwm
  · exact pair.distance
  · exact pair.motion ‹_›
  iterate 2 · exact pair.readClimate (by simp)
  · exact pair.deviceReady
  iterate 2 · exact pair.readRegister _
  · exact pair.readBytes
  · exact pair.byteStream
  · exact pair.streamLength
  · exact pair.streamByte
  · rename_i kind
    exact pair.degradedValue rfl (.inr (by rw [kind]; rfl))
  · exact pair.degradedValue rfl (.inr rfl)

end Counterparts

end FlipperBlocks
