import FlipperBlocks.Proofs.Lowering.Statements

/-! Statements about pins, outputs and devices give fit code. -/
namespace FlipperBlocks.Lowering

open C (Code Expr Line)
open C.Identifier (isIdentifier)

variable {outcome : Outcome} {phase : Phase} {site : Site} {last : Draft}

theorem lowers_setupPin (site : Site) : LowersCode outcome phase (setupPin site) := by
  intro known owed
  refine .bind (.enabling [] (by decide) (by decide)) fun _ =>
    .bind (.usePin _ _) fun _ => .done (fun _ => PinSetup.fits _ _) fun _ _ => List.mem_append_right _

theorem lowers_writePin (site : Site) : LowersCode outcome phase (writePin site) := by
  intro known owed
  refine .bind (.enabling [] (by decide) (by decide)) fun _ =>
    .done (fun _ => .run ?_) fun _ _ => List.mem_append_right _
  exact ⟨allowed_free (by simp [vocabulary]), holds_symbol _, trivial, trivial⟩

/-! Outputs. -/

private theorem holds_channel (output : PwmOutput) : (channel output).Holds (Allowed last) := by
  cases output with
  | timer1 => exact allowed_name (by decide)
  | lowPowerTimer2 => exact allowed_name (by decide)

variable {label function : String} {value frequency duty angle register mask : Expr}
  {state : Expr × Expr} {output : PwmOutput} {transfer : Transfer}

private theorem holds_byteOf (named : isIdentifier label = true) : (byteOf label).Holds (Allowed last) :=
  ⟨allowed_type (by decide), named⟩

private theorem holds_isRunning (has : last.features.has .pwm = true) (output : PwmOutput) :
    (isRunning output).Holds (Allowed last) :=
  ⟨⟨[.pwm], by simp [vocabulary], by simpa using has⟩, holds_channel output, trivial⟩

private theorem holds_clampLocal {bound value : String} (op : C.BinaryOp)
    (named : isIdentifier label = true) (first : C.isNumeral bound.toList = true)
    (second : C.isNumeral value.toList = true) : (clampLocal label op bound value).Holds (Allowed last) :=
  ⟨⟨named, first⟩, named, second⟩

private def either (test : Expr) (yes no : Code) : Code :=
  Code.line (.openIf test) ++ yes.inset ++ (Code.line .lastBranch ++ no.inset ++ Code.line .close)

private theorem fits_either {test : Expr} {yes no : Code} (holds : test.Holds (Allowed last))
    (first : yes.Fits last) (second : no.Fits last) : (either test yes no).Fits last := by
  constructor
  · simp only [either, Code.holds_append, Code.holds_line, Code.holds_inset]
    exact ⟨⟨holds, first.holds⟩, ⟨trivial, second.holds⟩, trivial⟩
  · intro opened rest
    unfold either
    rw [Code.tokens_append, Code.tokens_append, Code.tokens_append, Code.tokens_append,
      Code.tokens_line, Code.tokens_line, Code.tokens_line, List.append_assoc, List.append_assoc,
      List.append_assoc, List.append_assoc, Line.nest_opening rfl, first.balanced.inset,
      Line.nest_lastBranch, second.balanced.inset, Line.nest_close]

private theorem fits_driveOutput (has : last.features.has .pwm = true) (output : PwmOutput)
    (first : frequency.Holds (Allowed last))
    (second : duty.Holds (Allowed last)) (places : state.1.Holds (Allowed last) ∧
      state.2.Holds (Allowed last)) : (driveOutput output frequency duty state).Fits last := by
  have listed {function : String} (entry : (function, [.pwm]) ∈ vocabulary) :
      Allowed last (.call function) := ⟨_, entry, by simpa using has⟩
  have parameters : Expr.HoldAll (Allowed last) [channel output, .name "_f", byteOf "_d"] :=
    ⟨holds_channel output, allowed_name (by decide), holds_byteOf (by decide), trivial⟩
  have driven : (either (isRunning output)
      (Code.run (.call "furi_hal_pwm_set_params" [channel output, .name "_f", byteOf "_d"]))
      (Code.run (.call "furi_hal_pwm_start" [channel output, .name "_f", byteOf "_d"]))).Fits
        last :=
    fits_either (holds_isRunning has output) (.run ⟨listed (by simp [vocabulary]), parameters⟩)
      (.run ⟨listed (by simp [vocabulary]), parameters⟩)
  have prepared : (Code.ofLines [.run (.declare "uint32_t" "_f" (.castGroup "uint32_t" frequency)),
        clampLocal "_f" .equal "0" "1",
        .run (.declare "int" "_d" (.castGroup "int" duty)),
        clampLocal "_d" .less "0" "0",
        clampLocal "_d" .greater "100" "100"]).Fits last :=
    .cons rfl ⟨allowed_type (by decide), allowed_name (by decide), allowed_type (by decide), first⟩
      (.cons rfl (holds_clampLocal _ (by decide) (by decide) (by decide))
        (.cons rfl ⟨allowed_int, allowed_name (by decide), allowed_int, second⟩
          (.cons rfl (holds_clampLocal _ (by decide) (by decide) (by decide))
            (.cons rfl (holds_clampLocal _ (by decide) (by decide) (by decide)) .nil))))
  have remembered : (Code.ofLines [.run (.assign .set state.1 (.name "_f")),
      .run (.assign .set state.2 (byteOf "_d"))]).Fits last :=
    .cons rfl ⟨places.1, allowed_name (by decide)⟩
      (.cons rfl ⟨places.2, holds_byteOf (by decide)⟩ .nil)
  exact .framed rfl trivial ((prepared.append driven).append remembered)

private theorem mem_calls_driveOutput (called : function ∈ duty.calls ++ frequency.calls) :
    function ∈ (driveOutput output frequency duty state).calls := by
  simp only [driveOutput, Code.calls_framed, Code.calls_append, Code.calls_ofLines,
    List.flatMap_cons, Line.calls_run, Expr.calls_declare, Expr.calls_castGroup]
  grind

theorem lowers_startPwm (fits : site.Fits outcome phase) (label : String) :
    LowersCode outcome phase (startPwm label site) := by
  intro known owed
  refine .bind (lowers_pwmOutput? site _ _ _) fun found => ?_
  cases found with
  | some output =>
    refine .bind (fits.numeric "FREQ" (by decide) _ _) fun frequency =>
      .bind (fits.numeric "DUTY" (by decide) _ _) fun duty =>
        .bind (.enabling [] (by decide) (by decide)) fun _ =>
          .bind (.usePwm fun facts => facts.2 .pwm (List.mem_singleton_self _)) fun _ =>
            .bind (lowers_pwmState output _ _) fun state => .pure (fun facts => ?_)
              fun _ function member => .inl ?_
    · obtain ⟨⟨⟨⟨⟨_, first⟩, second⟩, has⟩, _⟩, frequencyPlace, dutyPlace, rfl, named, alsoNamed⟩ := facts
      exact fits_driveOutput (has .pwm (List.mem_singleton_self _)) output first.holds second.holds
        ⟨holds_place named, holds_place alsoNamed⟩
    · have called : function ∈ duty.expr.calls ++ frequency.expr.calls →
        function ∈ (driveOutput output frequency.expr duty.expr state).calls := mem_calls_driveOutput
      grind
  | none => exact lowers_code (.comment _) _ _

private theorem lowers_haltOutput (output : PwmOutput) : LowersCode outcome phase (haltOutput output) := by
  intro known owed
  refine .bind (.enabling [] (by decide) (by decide)) fun _ =>
    .done (fun facts => ?_) fun _ _ => List.mem_append_right _
  have has := facts.2 .pwm (List.mem_singleton_self _)
  refine .framed rfl (holds_isRunning has output) (.run ⟨⟨_, ?_, facts.2⟩, holds_channel output, trivial⟩)
  simp [vocabulary]

theorem lowers_stopPwm (site : Site) : LowersCode outcome phase (stopPwm site) := by
  intro known owed
  refine .bind (lowers_pwmOutput? site _ _ _) fun found => ?_
  cases found with
  | some output => exact lowers_haltOutput output _ _
  | none => exact lowers_code (.comment _) _ _

theorem lowers_unlockServo (site : Site) : LowersCode outcome phase (unlockServo site) := by
  intro known owed
  refine .bind (lowers_pwmOutput? site _ _ _) fun found => ?_
  cases found with
  | some output => exact lowers_haltOutput output _ _
  | none => exact lowers_code (.comment _) _ _

private theorem fits_moveServo (output : PwmOutput) (has : last.features.has .pwm = true)
    (hasServo : last.features.has (servoFeature output) = true) : (moveServo output).Fits last := by
  have driver {function : String} (entry : (function, [servoFeature output]) ∈ vocabulary) :
      Allowed last (.call function) := ⟨_, entry, by simpa using hasServo⟩
  have frequency : servoFrequency.Holds (Allowed last) := allowed_number (by decide)
  cases output with
  | timer1 =>
    exact .run ⟨driver (by simp [vocabulary, servoFeature]), frequency,
      ⟨driver (by simp [vocabulary, servoFeature]), holds_byteOf (by decide), trivial⟩, trivial⟩
  | lowPowerTimer2 =>
    have period : (Expr.call "LL_LPTIM_GetAutoReload" [.name "LPTIM2"]).Holds (Allowed last) :=
      ⟨driver (by simp [vocabulary, servoFeature]), allowed_name (by decide), trivial⟩
    have named : Allowed last (.name "_period") := allowed_name (by decide)
    have started : Allowed last (.call "furi_hal_pwm_set_params") :=
      ⟨[.pwm], by simp [vocabulary], by simpa using has⟩
    refine .append (.append (.run ⟨allowed_type (by decide), named, period⟩) (.framed rfl
      ⟨named, allowed_zero⟩ (.cons rfl ⟨started, holds_channel _, frequency, ?_, trivial⟩
        (.cons rfl ⟨named, period⟩ .nil)))) (.run ⟨driver (by simp [vocabulary, servoFeature]),
          frequency, ⟨driver (by simp [vocabulary, servoFeature]), holds_byteOf (by decide), named,
            trivial⟩, trivial⟩)
    exact allowed_number (by decide)

private theorem fits_turnServo (output : PwmOutput)
    (holds : angle.Holds (Allowed last)) (has : last.features.has .pwm = true)
    (hasServo : last.features.has (servoFeature output) = true) : (turnServo output angle).Fits last := by
  have started : Allowed last (.call "furi_hal_pwm_start") :=
    ⟨[.pwm], by simp [vocabulary], by simpa using has⟩
  have clamped : (Code.ofLines [.run (.declare "int" "_angle" (.castGroup "int" angle)),
      clampLocal "_angle" .less "0" "0", clampLocal "_angle" .greater "180" "180"]).Fits last :=
    .cons rfl ⟨allowed_int, allowed_name (by decide), allowed_int, holds⟩
      (.cons rfl (holds_clampLocal _ (by decide) (by decide) (by decide))
        (.cons rfl (holds_clampLocal _ (by decide) (by decide) (by decide)) .nil))
  refine .framed rfl trivial (.append (.append clamped (.framed rfl
    ⟨fun address => absurd address (by decide), holds_isRunning has output⟩
      (.run ⟨started, holds_channel output, ?_, ?_, trivial⟩))) (fits_moveServo output has hasServo))
  · exact allowed_number (by decide)
  · exact allowed_number (by decide)

private def servoDriver : PwmOutput → String
  | .timer1 => "servo_custom_pwm_set_params"
  | .lowPowerTimer2 => "servo_lptim2_set_params"

private theorem mem_calls_turnServo (called : function = servoDriver output ∨ function ∈ angle.calls) :
    function ∈ (turnServo output angle).calls := by
  have moved : servoDriver output ∈ (moveServo output).calls := by
    cases output <;> simp [servoDriver, moveServo]
  simp only [turnServo, Code.calls_framed, Code.calls_append, Code.calls_ofLines,
    List.flatMap_cons, Line.calls_run, Expr.calls_declare, Expr.calls_castGroup]
  grind

theorem lowers_servo (fits : site.Fits outcome phase) : LowersCode outcome phase (servo site) := by
  intro known owed
  refine .bind (lowers_pwmOutput? site _ _ _) fun found => ?_
  cases found with
  | some output =>
    have covers : Outcome.Covers [servoDriver output] [servoFeature output] := by cases output <;> decide
    refine .bind (fits.numeric "ANGLE" (by decide) _ _) fun angle =>
      .bind (.enabling [] (by decide) (by decide)) fun _ =>
        .bind (.usePwm fun facts => facts.2 .pwm (List.mem_singleton_self _)) fun _ =>
          .bind (.enable covers fun facts => ?_) fun _ => .pure (fun facts => ?_)
            fun _ function member => .inl ?_
    · have has := facts.1.2 .pwm (List.mem_singleton_self _)
      cases output <;> simpa [servoFeature, Feature.requires] using has
    · exact fits_turnServo output facts.1.1.1.2.holds (facts.1.1.2 .pwm (List.mem_singleton_self _))
        (facts.2 _ (List.mem_singleton_self _))
    · have called : function = servoDriver output ∨ function ∈ angle.expr.calls →
        function ∈ (turnServo output angle.expr).calls := mem_calls_turnServo
      grind
  | none => exact lowers_code (.comment _) _ _

/-! Devices. -/

theorem lowers_writeRegister (fits : site.Fits outcome phase) (width : RegisterWidth) :
    LowersCode outcome phase (writeRegister width site) := by
  intro known owed
  have listed : (width.writer, [.bus, width.writeFeature]) ∈ vocabulary := by
    cases width <;> simp [vocabulary, RegisterWidth.writer, RegisterWidth.writeFeature]
  have typed : isIdentifier width.typeName = true := by cases width <;> decide
  refine .bind (Transfer.lowers_ofSite fits _ _) fun transfer =>
    .bind (fits.numeric "REG" (by decide) _ _) fun register =>
      .bind (fits.numeric "VALUE" (by decide) _ _) fun value =>
      .bind (.enabling [width.writer] (by cases width <;> decide) (by cases width <;> decide)) fun _ =>
        .done (fun facts => .run ?_) (by grind)
  exact facts.1.1.1.2.holds_call ⟨_, listed, facts.2⟩ ⟨holds_byteArgument facts.1.1.2.holds,
    ⟨allowed_type typed, facts.1.2.holds⟩, trivial⟩

private theorem fits_reads {stream : Stream} (fits : stream.Fits last) :
    (Code.ofLines (stream.read.toList.map .run)).Fits last := by
  cases present : stream.read with
  | none => exact .nil
  | some read => exact .cons rfl (fits.read read present) .nil

private theorem calls_reads (stream : Stream) :
    (Code.ofLines (stream.read.toList.map .run)).calls = stream.calls := by
  simp [Stream.calls, Expr.callsOf, List.flatMap_map]

theorem lowers_writeBytes (fits : site.Fits outcome phase) : LowersCode outcome phase (writeBytes site) := by
  intro known owed
  refine .bind (fits.streamIn? "DATA" _ _) fun found => ?_
  cases found with
  | some stream =>
    refine .bind (Transfer.lowers_ofSite fits _ _) fun transfer =>
      .bind (fits.numeric "MEM" (by decide) _ _) fun memory =>
        .bind (.enabling ["kb_i2c_write_mem_bytes"] (by decide) (by decide)) fun _ => .pure (fun facts => ?_)
          fun _ function member => .inl ?_
    · have streamFits := (facts.1.1.1.2 stream rfl).fits
      have size : (Expr.name stream.array).sizeOf.Holds (Allowed outcome.last) :=
        ⟨allowed_free (by simp [vocabulary]), streamFits.named, trivial⟩
      exact (fits_reads streamFits).append (.run (facts.1.1.2.holds_call
        ⟨_, by simp [vocabulary], facts.2⟩ ⟨holds_byteArgument facts.1.2.holds, streamFits.named, size,
          trivial⟩))
    · rw [Option.elim_some] at member
      rw [Code.calls_append, calls_reads]
      grind
  | none => exact lowers_code (.comment _) _ _

private theorem fits_replaceBits (fits : transfer.Fits last) (first : register.Holds (Allowed last))
    (second : mask.Holds (Allowed last)) (third : value.Holds (Allowed last))
    (has : ∀ feature ∈ [.bus, .busRead8, .busWrite8], last.features.has feature = true) :
    (replaceBits transfer register mask value).Fits last := by
  have reads : Allowed last (.call "kb_i2c_read_reg8") :=
    ⟨[.bus, .busRead8], by simp [vocabulary], fun feature member => has feature (by grind)⟩
  have writes : Allowed last (.call "kb_i2c_write_reg8") :=
    ⟨[.bus, .busWrite8], by simp [vocabulary], fun feature member => has feature (by grind)⟩
  have byte : Allowed last (.type "uint8_t") := allowed_type (by decide)
  have label {text : String} (named : isIdentifier text = true) :
      (Expr.name text).Holds (Allowed last) := named
  have shifted : (Code.framed
      (.openWhile (.binary .equal (.group (.binary .bitAnd (.name "_t") (.number "1u"))) (.number "0u")))
      (Code.ofLines [.run (.assign .shiftRight (.name "_t") (.number "1")),
        .run (.increment (.name "_shift"))])).Fits last :=
    .framed rfl ⟨⟨label (by decide), allowed_number (by decide)⟩, allowed_number (by decide)⟩
      (.cons rfl ⟨label (by decide), allowed_number (by decide)⟩
        (.cons rfl ⟨rfl, label (by decide)⟩ .nil))
  have started : (Code.ofLines [.run (.declare "uint8_t" "_v" (byteArgument value)),
        .run (.declare "uint8_t" "_shift" (.number "0")),
        .run (.declare "uint8_t" "_t" (.name "_m"))]).Fits last :=
    .cons rfl ⟨byte, allowed_name (by decide), holds_byteArgument third⟩
      (.cons rfl ⟨byte, allowed_name (by decide), allowed_zero⟩
        (.cons rfl ⟨byte, allowed_name (by decide), label (by decide)⟩ .nil))
  have replaced : (Code.ofLines [.run (.assign .set (.name "_v") (byteArgument (.binary .bitAnd
          (.group (.binary .shiftLeft (.name "_v") (.name "_shift"))) (.name "_m")))),
        .run (.assign .set (.name "_tmp") (byteArgument (.binary .bitOr (.group (.binary .bitAnd
          (.name "_tmp") (byteArgument (.unary .complement (.name "_m"))))) (.name "_v")))),
        .run (transfer.call "kb_i2c_write_reg8" [byteArgument register, .name "_tmp"])]).Fits
          last :=
    .cons rfl ⟨label (by decide), byte, ⟨label (by decide), label (by decide)⟩, label (by decide)⟩
      (.cons rfl ⟨label (by decide), byte, ⟨label (by decide), byte,
        fun address => absurd address (by decide), label (by decide)⟩, label (by decide)⟩
        (.cons rfl (fits.holds_call writes ⟨holds_byteArgument first, label (by decide), trivial⟩)
          .nil))
  exact .framed rfl trivial (.append (.line rfl ⟨byte, allowed_name (by decide)⟩) (.framed rfl
    (fits.holds_call reads ⟨holds_byteArgument first, ⟨fun _ => rfl, label (by decide)⟩, trivial⟩)
      (.append (.line rfl ⟨byte, allowed_name (by decide), holds_byteArgument second⟩)
        (.framed rfl (label (by decide)) ((started.append shifted).append replaced)))))

private theorem mem_calls_replaceBits (called : function ∈ ["kb_i2c_read_reg8", "kb_i2c_write_reg8"] ++
      (value.calls ++ (mask.calls ++ (register.calls ++ transfer.calls)))) :
    function ∈ (replaceBits transfer register mask value).calls := by
  simp only [replaceBits, Code.calls_framed, Code.calls_append, Code.calls_ofLines, Code.calls_line,
    List.flatMap_cons, Line.calls_run, Line.calls_openIf, Expr.calls_declare]
  grind

theorem lowers_updateBits (fits : site.Fits outcome phase) : LowersCode outcome phase (updateBits site) := by
  intro known owed
  refine .bind (Transfer.lowers_ofSite fits _ _) fun transfer =>
    .bind (fits.numeric "REG" (by decide) _ _) fun register =>
      .bind (fits.numeric "MASK" (by decide) _ _) fun mask =>
        .bind (fits.numeric "VALUE" (by decide) _ _) fun value =>
          .bind (.enabling ["kb_i2c_read_reg8", "kb_i2c_write_reg8"] (by decide) (by decide)) fun _ =>
            .pure (fun facts => ?_) fun _ function member => .inl ?_
  · exact fits_replaceBits facts.1.1.1.1.2 facts.1.1.1.2.holds facts.1.1.2.holds facts.1.2.holds
      facts.2
  · have called : function ∈ ["kb_i2c_read_reg8", "kb_i2c_write_reg8"] ++ (value.expr.calls ++
      (mask.expr.calls ++ (register.expr.calls ++ transfer.calls))) →
        function ∈ (replaceBits transfer register.expr mask.expr value.expr).calls :=
      mem_calls_replaceBits
    grind

end FlipperBlocks.Lowering
