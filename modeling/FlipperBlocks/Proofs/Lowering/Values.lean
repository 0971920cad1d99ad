import FlipperBlocks.Lowering.Block
import FlipperBlocks.Proofs.Lowering.Inputs

/-! Blocks that stand for values give fit ones. -/
namespace FlipperBlocks.Lowering

open C (Code Expr BinaryOp)
open C.Identifier (isIdentifier)

variable {outcome : Outcome} {phase : Phase} {site : Site}

variable {last : Draft} {storage : Storage} {raw : Expr}

theorem allowed_zero : Allowed last (.number "0") := allowed_number (by decide)

theorem allowed_int : Allowed last (.type "int") := allowed_type (by decide)

/-! Operators and literals. -/

@[grind norm] private theorem calls_operation (op : BinaryOp) (left right : Expr) (kind : ValueKind) :
    (operation op left right kind).expr.calls = left.calls ++ right.calls := by
  simp [operation]

private theorem fits_operation {left right : Expr} (op : BinaryOp)
    (kind : ValueKind) (first : left.Holds (Allowed last))
    (second : right.Holds (Allowed last)) : (operation op left right kind).Fits last :=
  .of_holds _ ⟨first, second⟩

section

variable (fits : site.Fits outcome phase)

include fits

theorem lowers_comparison : LowersValue outcome phase (comparison site) := by
  intro known owed
  refine .bind (fits.number "A" (by decide) _ _) fun a => .bind (fits.number "B" (by decide) _ _) fun b => ?_
  split
  · refine .done (fun facts => fits_operation _ _ ?_ allowed_zero) (by grind)
    exact ⟨allowed_free (by simp [vocabulary]), facts.1.2.holds, facts.2.holds, trivial⟩
  · refine .bind (.toNumber fun facts => facts.1.2) fun left =>
      .bind (.toNumber fun facts => facts.1.2) fun right => .done ?_ (by grind)
    exact fun facts => fits_operation _ _ (Expr.holds_operand _ facts.1.2.1.holds)
      (Expr.holds_operand _ facts.2.1.holds)

theorem lowers_logical : LowersValue outcome phase (logical site) := by
  intro known owed
  refine .bind (fits.truth "A" false _ _) fun a => .bind (fits.truth "B" false _ _) fun b =>
    .done ?_ (by grind)
  exact fun facts => fits_operation _ _ (Expr.holds_operand _ facts.1.2.holds)
    (Expr.holds_operand _ facts.2.holds)

theorem lowers_negation : LowersValue outcome phase (negation site) := by
  intro known owed
  refine .bind (fits.truth "BOOL" false _ _) fun operand => .done ?_ (by grind)
  exact fun facts => .of_holds _ ⟨nofun, Expr.holds_operand _ facts.2.holds⟩

theorem lowers_arithmetic : LowersValue outcome phase (arithmetic site) := by
  intro known owed
  refine .bind (fits.numeric "A" (by decide) _ _) fun a =>
    .bind (fits.numeric "B" (by decide) _ _) fun b => ?_
  dsimp only
  split
  · refine .bind (.enabling [] (by decide) (by decide)) fun _ =>
      .done ?_ (by grind)
    exact fun facts => .of_holds _ ⟨⟨_, by simp [vocabulary], facts.2⟩, facts.1.1.2.holds,
      facts.1.2.holds, trivial⟩
  · refine .done ?_ (by grind)
    exact fun facts => fits_operation _ _ (Expr.holds_operand _ facts.1.2.holds)
      (Expr.holds_rightOperand _ facts.2.holds)

theorem lowers_bitwise (op : BinaryOp) : LowersValue outcome phase (bitwise op site) := by
  intro known owed
  refine .bind (fits.numeric "A" (by decide) _ _) fun a =>
    .bind (fits.numeric "B" (by decide) _ _) fun b => .done ?_ (by grind)
  exact fun facts => fits_operation _ _ (Expr.holds_operand _ facts.1.2.holds)
    (Expr.holds_operand _ facts.2.holds)

theorem lowers_complement : LowersValue outcome phase (complement site) := by
  intro known owed
  refine .bind (fits.numeric "A" (by decide) _ _) fun operand => .done ?_ (by grind)
  exact fun facts => .of_holds _ ⟨nofun, Expr.holds_operand _ facts.2.holds⟩

theorem lowers_textToNumber : LowersValue outcome phase (textToNumber site) := by
  intro known owed
  refine .bind (fits.text "STRING" "" _ _) fun text => ?_
  exact (Lowers.toNumber And.right).imp (fun _ _ => And.left) fun _ _ _ _ _ => .inl (by grind)

theorem lowers_numberToText : LowersValue outcome phase (numberToText site) := by
  intro known owed
  refine .bind (fits.number "NUMBER" (by decide) _ _) fun value => ?_
  split
  · exact .pure And.right fun _ _ => .inl
  · split
    · rename_i literal
      refine .pure (fun _ => .text _) fun _ function member => .inl ?_
      rwa [Value.calls_of_isLiteral literal] at member
    · refine .bind (.namedSlot (by decide) _) fun buffer => .deferred (fun facts => ?_)
        (fun facts => .of_holds _ facts.2) fun _ _ _ => by grind
      exact holds_printInto facts.2 (allowed_type (by decide)) facts.1.2.holds

theorem lowers_textLength : LowersValue outcome phase (textLength site) := by
  intro known owed
  refine .bind (fits.shown "STRING" "" _ _) fun text => .done ?_ (by grind)
  exact fun facts => .of_holds _ ⟨allowed_int, allowed_free (by simp [vocabulary]), facts.2.holds,
    trivial⟩

theorem lowers_randomNumber : LowersValue outcome phase (randomNumber site) := by
  intro known owed
  refine .bind (fits.numeric "MIN" (by decide) _ _) fun least =>
    .bind (fits.numeric "MAX" (by decide) _ _) fun greatest =>
      .bind (.enabling ["random_range"] (by decide) (by decide)) fun _ => .done ?_ (by grind)
  exact fun facts => .of_holds _ ⟨⟨_, by simp [vocabulary], facts.2⟩, facts.1.1.2.holds,
    facts.1.2.holds, trivial⟩

end

theorem lowers_literal {value : Value} (fits : value.Fits outcome.last) :
    LowersValue outcome phase (return value) :=
  fun _ _ => .done (fun _ => fits) fun _ _ => List.mem_append_right _

theorem fits_numberLiteral (site : Site) : (numberLiteral site).Fits last := by
  refine .number ?_
  cases site.head.numberField? "NUM" with
  | none => decide
  | some x => exact C.isNumeral_literal x

theorem fits_hexLiteral (site : Site) : (hexLiteral site).Fits last := by
  refine .number ?_
  split
  · rename_i hex
    exact C.isNumeral_hex hex
  · decide

/-! Variables, files and pins. -/

theorem holds_place (fits : storage.Fits last) : storage.place.Holds (Allowed last) := by
  unfold Storage.place
  split
  · rename_i scope
    exact ⟨by decide, fits.named, fun _ => Draft.name_mem_members fits.declared scope⟩
  · exact fits.named

theorem fits_storage (fits : storage.Fits last) : storage.value.Fits last := by
  refine ⟨holds_place fits, fun name same => ?_⟩
  unfold Storage.value at same
  dsimp only at same
  split at same
  · rw [← Option.some.inj same]
    exact fits.named
  · contradiction

theorem isIdentifier_variableName (site : Site) : isIdentifier (variableName site) = true := by
  unfold variableName
  exact C.Identifier.isIdentifier_sanitize _

theorem lowers_resolve (site : Site) (asText : Bool) (known : Prop) (owed : List String) :
    Lowers outcome phase known owed (resolve site asText) (Storage.Fits outcome.last) fun _ => owed := by
  unfold resolve
  refine .declare fun _ => ?_
  dsimp only
  exact isIdentifier_variableName site

@[grind norm] theorem calls_place (storage : Storage) : storage.place.calls = [] := by
  unfold Storage.place
  split <;> rfl

theorem lowers_getVariable (site : Site) (asText : Bool) :
    LowersValue outcome phase (getVariable site asText) := by
  intro known owed
  refine .bind (lowers_resolve site asText _ _) fun storage => .pure ?_ fun _ _ member => .inl ?_
  · exact fun facts => fits_storage facts.2
  · exact List.mem_append_right _ member

theorem lowers_filePath (fits : site.Fits outcome phase) : LowersValue outcome phase (filePath site) :=
  fits.shown "PATH" _

theorem lowers_readFile (fits : site.Fits outcome phase) : LowersValue outcome phase (readFile site) := by
  intro known owed
  refine .bind (.enabling ["storage_simple_read"] (by decide) (by decide)) fun _ =>
    .bind (lowers_filePath fits _ _) fun path => .bind (.sharedBuffer (by decide) _) fun buffer =>
      .deferred (fun facts => ?_) (fun facts => .of_holds _ facts.2) fun _ _ _ => by grind
  exact ⟨⟨_, by simp [vocabulary], facts.1.1.2⟩, facts.2,
    ⟨allowed_free (by simp [vocabulary]), facts.2, trivial⟩, facts.1.2.holds, trivial⟩

theorem lowers_fileExists (fits : site.Fits outcome phase) : LowersValue outcome phase (fileExists site) := by
  intro known owed
  refine .bind (.enabling ["storage_simple_exists"] (by decide) (by decide)) fun _ =>
    .bind (lowers_filePath fits _ _) fun path => .done ?_ (by grind)
  exact fun facts => .of_holds _ ⟨⟨_, by simp [vocabulary], facts.1.2⟩, facts.2.holds, trivial⟩

theorem holds_symbol (pin : Pin) : pin.symbol.Holds (Allowed last) := by
  refine ⟨fun _ => rfl, ?_⟩
  change isIdentifier pin.object = true
  cases pin <;> decide

@[grind norm] theorem calls_symbol (pin : Pin) : pin.symbol.calls = [] := rfl

private theorem holds_pinLevel (pin : Pin) : (pinLevel pin).Holds (Allowed last) :=
  ⟨allowed_free (by simp [vocabulary]), holds_symbol pin, trivial⟩

theorem lowers_readPin (site : Site) : LowersValue outcome phase (readPin site) := by
  intro known owed
  refine .bind (.enabling [] (by decide) (by decide)) fun _ => .done ?_ fun _ _ => List.mem_append_right _
  exact fun _ => .of_holds _ (holds_pinLevel _)

private theorem lowers_analog {result : Pin → Expr} (holds : ∀ pin, outcome.last.features.has .analog = true →
      (result pin).Holds (Allowed outcome.last))
    (called : ∀ pin, "adc_read_raw_on_gpio" ∈ (result pin).calls) :
    LowersValue outcome phase (analog site result) := by
  intro known owed
  unfold analog
  dsimp only
  split
  · refine .bind (.enabling ["adc_read_raw_on_gpio"] (by decide) (by decide)) fun _ =>
      .bind (.configurePin _) fun _ => .pure (fun facts => ?_) fun _ function member => .inl ?_
    · exact .of_holds _ (holds _ (facts.1.2 .analog (List.mem_singleton_self _)))
    · rcases List.mem_cons.1 member with same | there
      · rw [same]
        exact List.mem_append_left _ (called _)
      · exact List.mem_append_right _ there
  · refine .bind (.degrade _) fun _ =>
      .done (fun _ => .of_holds _ ⟨?_, allowed_zero⟩) fun _ _ => List.mem_append_right _
    change '*' ∉ "no ADC channel".toList ∧ '\n' ∉ "no ADC channel".toList ∧ '\r' ∉ "no ADC channel".toList
    decide

private theorem holds_measurement (has : last.features.has .analog = true)
    (pin : Pin) {sampling : String} (named : isIdentifier sampling = true) :
    (measurement pin sampling).Holds (Allowed last) := by
  have listed : Allowed last (.call "adc_read_raw_on_gpio") :=
    ⟨[.analog], by simp [vocabulary], by simpa using has⟩
  exact ⟨listed, holds_symbol pin, allowed_name (by decide), allowed_name (by decide),
    allowed_name (by decide), named, trivial⟩

private theorem holds_millivolts (has : last.features.has .analog = true) (holds : raw.Holds (Allowed last)) :
    (millivolts raw).Holds (Allowed last) := by
  have listed : Allowed last (.call "adc_raw_to_mv_scale") :=
    ⟨[.analog], by simp [vocabulary], by simpa using has⟩
  exact ⟨listed, holds, allowed_name (by decide), trivial⟩

private theorem called_millivolts {function : String} (called : function ∈ raw.calls) :
    function ∈ (millivolts raw).calls := by
  simp [millivolts, called]

private theorem called_measurement (pin : Pin) (sampling : String) :
    "adc_read_raw_on_gpio" ∈ (measurement pin sampling).calls :=
  List.mem_cons_self

theorem lowers_readAnalog (site : Site) : LowersValue outcome phase (readAnalog site) := by
  refine lowers_analog (fun pin has => ?_) fun pin => ?_
  · have named : isIdentifier "FuriHalAdcSamplingtime92_5" = true := by decide
    have holds := holds_measurement has pin named
    split
    · exact holds_millivolts has holds
    · exact holds
  · split
    · exact called_millivolts (called_measurement pin _)
    · rw [Expr.calls_group]
      exact called_measurement pin _

private theorem isIdentifier_sampling (ohms : Float) : isIdentifier (sampling ohms) = true := by
  unfold sampling
  split
  · decide
  · split <;> decide

theorem lowers_potentiometer (site : Site) : LowersValue outcome phase (potentiometer site) := by
  refine lowers_analog (fun pin has => ?_) fun pin => ?_
  · have holds := holds_measurement has pin (isIdentifier_sampling (resistance site))
    split
    · exact holds_millivolts has holds
    · exact ⟨allowed_int, ⟨holds, allowed_number (by decide)⟩, allowed_number (by decide)⟩
    · exact holds
  · have called := called_measurement pin (sampling (resistance site))
    split
    · exact called_millivolts called
    · simp only [percent, Expr.castGroup, Expr.calls_group, Expr.calls_cast, Expr.calls_binary]
      exact List.mem_append_left _ (List.mem_append_left _ called)
    · rw [Expr.calls_group]
      exact called

theorem lowers_distance (site : Site) : LowersValue outcome phase (distance site) := by
  intro known owed
  refine .bind (.enabling ["hc_sr04_measure_cm"] (by decide) (by decide)) fun _ => .done ?_ (by grind)
  exact fun facts => .of_holds _ ⟨⟨_, by simp [vocabulary], facts.2⟩, holds_symbol _, holds_symbol _,
    trivial⟩

theorem lowers_motion (site : Site) : LowersValue outcome phase (motion site) := by
  intro known owed
  refine .bind (.enabling [] (by decide) (by decide)) fun _ =>
    .bind (.configurePin _) fun _ => .done ?_ fun _ _ => List.mem_append_right _
  exact fun _ => .of_holds _ ⟨holds_pinLevel _, allowed_number (by decide), allowed_zero⟩

private theorem lowers_readClimate {quantity : Climate} (site : Site)
    (covers : Outcome.Covers [quantity.reader] [.dht11, .power5V])
    (listed : (quantity.reader, [.dht11]) ∈ vocabulary) (named : isIdentifier quantity.stem = true) :
    LowersValue outcome phase (readClimate quantity site) := by
  intro known owed
  refine .bind (.enabling _ covers (by decide)) fun _ =>
    .bind (.readSlot named _) fun storage => .deferred (fun facts => ?_)
      (fun facts => .of_holds _ (holds_place facts.2)) fun _ _ _ => by grind
  have has := facts.1.2 .dht11 List.mem_cons_self
  exact ⟨holds_place facts.2, ⟨_, listed, by simpa using has⟩, holds_symbol _, trivial⟩

theorem lowers_temperature (site : Site) : LowersValue outcome phase (readClimate temperature site) :=
  lowers_readClimate site (by decide) (by simp [vocabulary, temperature]) (by decide)

theorem lowers_humidity (site : Site) : LowersValue outcome phase (readClimate humidity site) :=
  lowers_readClimate site (by decide) (by simp [vocabulary, humidity]) (by decide)

theorem lowers_pwmOutput? (site : Site) (purpose : String) (known : Prop) (owed : List String) :
    Lowers outcome phase known owed (pwmOutput? site purpose) (fun _ => True) fun _ => owed := by
  unfold pwmOutput?
  dsimp only
  split
  · exact .pure (fun _ => trivial) fun _ _ => .inl
  · exact .bind (.degrade _) fun _ => .pure (fun _ => trivial) fun _ _ => .inl

theorem lowers_pwmState (output : PwmOutput) (known : Prop) (owed : List String) :
    Lowers outcome phase known owed (pwmState output)
      (fun state => ∃ frequency duty : Storage, state = (frequency.place, duty.place) ∧
        frequency.Fits outcome.last ∧ duty.Fits outcome.last) fun _ => owed := by
  have stem {ending : String} (parts : ∀ c ∈ ending.toList, C.Identifier.isPart c = true) :
      isIdentifier (output.stateStem ++ ending) = true :=
    C.Identifier.isIdentifier_append (by cases output <;> decide) parts
  refine .bind (.declare fun _ => stem (by simp [C.Identifier.isPart])) fun frequency =>
    .bind (.declare fun _ => stem (by simp [C.Identifier.isPart])) fun duty =>
      .pure (fun facts => ?_) fun _ _ => .inl
  exact ⟨frequency, duty, rfl, facts.1.2, facts.2⟩

theorem lowers_readPwm (site : Site) : LowersValue outcome phase (readPwm site) := by
  intro known owed
  refine .bind (lowers_pwmOutput? site _ _ _) fun found => ?_
  cases found with
  | some output =>
    refine .bind (lowers_pwmState output _ _) fun state =>
      .done (fun facts => ?_) fun _ _ => List.mem_append_right _
    obtain ⟨_, frequency, duty, rfl, first, second⟩ := facts
    refine .of_holds _ ?_
    split
    · exact holds_place first
    · exact holds_place second
  | none => exact lowers_literal (.number (by decide)) _ _

/-! Devices and streams. -/

namespace Transfer

def calls (transfer : Transfer) : List String := transfer.address.calls ++ transfer.timeout.calls

structure Fits (last : Draft) (transfer : Transfer) : Prop where
  address : transfer.address.Holds (Allowed last)
  timeout : transfer.timeout.Holds (Allowed last)

theorem Fits.holds_call {last : Draft} {transfer : Transfer} (fits : transfer.Fits last)
    {function : String} (listed : Allowed last (.call function)) {arguments : List Expr}
    (holds : Expr.HoldAll (Allowed last) arguments) :
    (transfer.call function arguments).Holds (Allowed last) := by
  have device : Expr.HoldAll (Allowed last) transfer.device :=
    ⟨C.isNumeral_toString _, ⟨allowed_type (by decide), fits.address⟩, trivial⟩
  exact ⟨listed, Expr.holdAll_append.2 ⟨Expr.holdAll_append.2 ⟨device, holds⟩,
    ⟨allowed_type (by decide), fits.timeout⟩, trivial⟩⟩

@[grind =] theorem mem_calls_call (transfer : Transfer) (function name : String)
    (arguments : List Expr) : name ∈ (transfer.call function arguments).calls ↔
      name = function ∨ name ∈ transfer.calls ∨ name ∈ Expr.callsOf arguments := by
  simp only [call, device, busNumber, patience, calls, Expr.ofNat, Expr.castGroup, Expr.calls_call,
    Expr.callsOf_append, Expr.callsOf_cons, Expr.callsOf_nil, Expr.calls_number, Expr.calls_cast,
    Expr.calls_group, List.mem_cons, List.mem_append, List.nil_append, List.append_nil]
  grind

theorem lowers_ofSite (fits : site.Fits outcome phase) (known : Prop) (owed : List String) :
    Lowers outcome phase known owed (ofSite site) (Fits outcome.last)
      fun transfer => transfer.calls ++ owed := by
  refine .bind (fits.numeric "ADDR" (by decide) _ _) fun address =>
    .bind (fits.numeric "TIMEOUT" (by decide) _ _) fun timeout => .pure ?_
      fun _ _ _ => .inl (by grind [calls])
  exact fun facts => ⟨facts.1.2.holds, facts.2.holds⟩

end Transfer

variable {last : Draft} {value position : Value} {array : String} {stream : Stream}

theorem holds_byteArgument {e : Expr} (holds : e.Holds (Allowed last)) :
    (byteArgument e).Holds (Allowed last) :=
  ⟨allowed_type (by decide), holds⟩

@[grind norm] theorem calls_byteArgument (e : Expr) : (byteArgument e).calls = e.calls := by
  simp [byteArgument]

theorem lowers_deviceReady (fits : site.Fits outcome phase) :
    LowersValue outcome phase (deviceReady site) := by
  intro known owed
  refine .bind (Transfer.lowers_ofSite fits _ _) fun transfer =>
    .bind (.enabling ["kb_i2c_device_ready"] (by decide) (by decide)) fun _ => .done ?_ (by grind)
  exact fun facts => .of_holds _ (facts.1.2.holds_call ⟨_, by simp [vocabulary], facts.2⟩ trivial)

theorem lowers_readRegister (fits : site.Fits outcome phase) (width : RegisterWidth) :
    LowersValue outcome phase (readRegister width site) := by
  intro known owed
  have listed : (width.reader, [.bus, width.readFeature]) ∈ vocabulary := by
    cases width <;> simp [vocabulary, RegisterWidth.reader, RegisterWidth.readFeature]
  refine .bind (Transfer.lowers_ofSite fits _ _) fun transfer =>
    .bind (fits.numeric "REG" (by decide) _ _) fun register =>
    .bind (.enabling [width.reader] (by cases width <;> decide) (by cases width <;> decide)) fun _ =>
      .bind (.readSlot (by cases width <;> decide) _) fun storage => .deferred (fun facts => ?_)
        (fun facts => .of_holds _ (holds_place facts.2)) fun _ _ _ => by grind
  exact facts.1.1.1.2.holds_call ⟨_, listed, facts.1.2⟩ ⟨holds_byteArgument facts.1.1.2.holds,
    ⟨fun _ => by unfold Storage.place; split <;> rfl, holds_place facts.2⟩, trivial⟩

theorem leftOut_of_idle (fits : site.Fits outcome phase) {input : String}
    (idle : input ∈ site.kind.idleInputs) (other : site.kind ≠ .streamLength)
    (yielded : value.Fits outcome.last ∧
      (value.expr.calls ≠ [] → site.Yields (·.phase = phase) outcome.last input value)) :
    ∀ function ∈ value.expr.calls, outcome.leftOut function := by
  intro function called
  obtain ⟨fit, yields⟩ := yielded
  exact fits.leftOut function ⟨input, idle, value, yields (List.ne_nil_of_mem called),
    fit.calls_code ▸ called, fun length => absurd length other⟩

theorem lowers_readBytes (fits : site.Fits outcome phase) (kind : site.kind = .readBytes) :
    LowersValue outcome phase (readBytes site) := by
  intro known owed
  have idle : "LEN" ∈ site.kind.idleInputs := by rw [kind]; exact List.mem_singleton_self _
  have other : site.kind ≠ .streamLength := by rw [kind]; decide
  have dropped (facts : Prop) (owed : List String) : Lowers outcome phase facts owed
      (site.number "LEN" "1") (fun _ => True) fun _ => owed := by
    refine (fits.yielded "LEN" (by decide) facts owed).imp (fun _ _ _ => trivial) ?_
    intro value _ yielded function member
    rcases List.mem_append.1 member with called | there
    · exact .inr (.inr (.inr (leftOut_of_idle fits idle other yielded function called)))
    · exact .inl there
  refine .bind (Transfer.lowers_ofSite fits _ _) fun transfer =>
    .bind (fits.numeric "MEM" (by decide) _ _) fun memory => .bind (dropped _ _) fun length =>
      .bind (.enabling ["kb_i2c_read_mem_bytes"] (by decide) (by decide)) fun _ =>
        .bind (.namedSlot (by decide) _) fun array => .deferred (fun facts => ?_)
          (fun facts => .bytes facts.2) fun _ _ _ => by grind
  exact facts.1.1.1.1.2.holds_call ⟨_, by simp [vocabulary], facts.1.2⟩
    ⟨holds_byteArgument facts.1.1.1.2.holds, facts.2, C.isNumeral_toString _, trivial⟩

theorem lowers_byteStream (site : Site) : LowersValue outcome phase (byteStream site) := by
  intro known owed
  refine .bind (.fresh (by decide)) fun array => .bind (.declare fun facts => ?_) fun _ =>
    .done ?_ fun _ _ => List.mem_append_right _
  · dsimp only
    exact facts.2.1
  · exact fun facts => .bytes facts.1.2.1

private theorem holds_arraySize
    (named : isIdentifier array = true) : (arraySize array).Holds (Allowed last) :=
  ⟨allowed_int, allowed_free (by simp [vocabulary]), named, trivial⟩

theorem lowers_streamLength (fits : site.Fits outcome phase) (kind : site.kind = .streamLength) :
    LowersValue outcome phase (streamLength site) := by
  intro known owed
  have idle : "STREAM" ∈ site.kind.idleInputs := by rw [kind]; exact List.mem_singleton_self _
  refine .bind (fits.streamIn? "STREAM" _ _) fun found => ?_
  cases found with
  | some stream =>
    refine .pure (fun facts => .of_holds _ (holds_arraySize (facts.2 stream rfl).fits.named)) ?_
    intro facts function member
    rcases List.mem_append.1 member with called | there
    · obtain ⟨value, yields, inCode, isArray⟩ := (facts.2 stream rfl).called function called
      exact .inr (.inr (.inr (fits.leftOut function
        ⟨"STREAM", idle, value, yields, inCode, fun _ => isArray⟩)))
    · exact .inl (List.mem_append_right _ there)
  | none => exact lowers_literal (.number (by decide)) _ _

private theorem calls_of_integer? {n : Int} (integer : value.integer? = some n) : value.expr.calls = [] := by
  unfold Value.integer? at integer
  split at integer
  · rename_i same _
    rw [same, Expr.calls_number]
  · contradiction

private theorem holds_chosen (named : isIdentifier array = true) {bounded spot : Expr}
    (first : bounded.Holds (Allowed last)) (second : spot.Holds (Allowed last)) :
    (Expr.conditional (inBounds array bounded) (.index array spot) (.number "0")).Holds (Allowed last) :=
  ⟨⟨⟨first, allowed_zero⟩, first, holds_arraySize named⟩, ⟨named, second⟩, allowed_zero⟩

private theorem holds_discarded
    (fits : stream.Fits last) : ∀ read ∈ stream.read, (discarded read).Holds (Allowed last) :=
  fun read member => ⟨allowed_type (by decide), fits.read read member⟩

theorem holds_byteAt (fits : stream.Fits last) (fit : position.Fits last) :
    (byteAt stream position).Holds (Allowed last) := by
  unfold byteAt
  dsimp only
  split
  · rename_i n _
    have spot : (Expr.number (toString n)).Holds (Allowed last) := C.isNumeral_integer n
    have bounded : (Expr.number (toString n)).group.Holds (Allowed last) := spot
    have chosen := holds_chosen fits.named bounded spot
    split
    · rename_i read present
      exact ⟨holds_discarded fits read present, chosen⟩
    · exact chosen
  · have spot : (Expr.name "_ix").Holds (Allowed last) := allowed_name (by decide)
    have declared : (Expr.declare "int" "_ix" (.castGroup "int" position.expr)).Holds
        (Allowed last) := ⟨allowed_int, spot, allowed_int, fit.holds⟩
    have chosen := holds_chosen fits.named spot spot
    cases present : stream.read with
    | none => exact ⟨declared, chosen, trivial⟩
    | some read => exact ⟨holds_discarded fits read present, declared, chosen, trivial⟩

@[grind norm] private theorem calls_discarded (read : Expr) : (discarded read).calls = read.calls := by
  simp [discarded]

theorem mem_calls_byteAt {function : String} (called : function ∈ stream.calls ++ position.expr.calls) :
    function ∈ (byteAt stream position).calls := by
  have reads : Expr.callsOf (stream.read.toList.map discarded) = stream.calls := by
    simp [Expr.callsOf, Stream.calls, List.flatMap_map, calls_discarded]
  unfold byteAt
  dsimp only
  split
  · rename_i n integer
    rw [calls_of_integer? integer, List.append_nil] at called
    rw [Expr.calls_group]
    split
    · rename_i read present
      rw [Stream.calls, present, Option.toList_some] at called
      grind
    · rename_i absent
      rw [Stream.calls, absent] at called
      contradiction
  · rw [Expr.calls_steps, Expr.callsOf_append, reads, Expr.callsOf_cons, Expr.calls_declare,
      Expr.calls_castGroup, ← List.append_assoc]
    exact List.mem_append_left _ called

theorem lowers_streamByte (fits : site.Fits outcome phase) : LowersValue outcome phase (streamByte site) := by
  intro known owed
  refine .bind (fits.streamIn? "STREAM" _ _) fun found => ?_
  cases found with
  | some stream =>
    refine .bind (fits.numeric "INDEX" (by decide) _ _) fun position => .pure ?_ ?_
    · exact fun facts => .of_holds _ (holds_byteAt (facts.1.2 stream rfl).fits facts.2)
    · intro facts function member
      have called : function ∈ stream.calls ++ position.expr.calls →
        function ∈ (byteAt stream position).calls := mem_calls_byteAt
      rw [Option.elim_some] at member
      exact .inl (by grind)
  | none => exact lowers_literal (.number (by decide)) _ _

end FlipperBlocks.Lowering
