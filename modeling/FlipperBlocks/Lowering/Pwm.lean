import FlipperBlocks.Lowering.Pins

/-! Pulse width modulation and servos. -/
namespace FlipperBlocks.Lowering

open C (Code Expr)

variable (site : Site)

/-- The output of a block's pin. A pin that has none is recorded as unfit for the purpose. -/
def pwmOutput? (purpose : String) : Lowering (Option PwmOutput) := do
  let pin := pinOf site
  match pin.pwm? with
  | some output => return some output
  | none =>
    degrade (.unsupportedPin pin.name purpose)
    return none

def writtenPin : String := site.head.fieldOr "PIN" "PA7"

/-- The places that remember the frequency and the duty of an output. -/
def pwmState (output : PwmOutput) : Lowering (Expr × Expr) := do
  let frequency ← declare ⟨output.stateStem ++ "_freq", .unsigned32⟩
  let duty ← declare ⟨output.stateStem ++ "_duty", .unsigned8⟩
  return (frequency.place, duty.place)

def channel (output : PwmOutput) : Expr := .name output.channel

def isRunning (output : PwmOutput) : Expr := .call "furi_hal_pwm_is_running" [channel output]

def stopOutput (output : PwmOutput) : Expr := .call "furi_hal_pwm_stop" [channel output]

/-- Sets a local variable under a condition on its own value. -/
def clampLocal (label : String) (op : C.BinaryOp) (bound value : String) : C.Line :=
  .guarded (.binary op (.name label) (.number bound))
    (.assign .set (.name label) (.number value))

def byteOf (label : String) : Expr := .cast "uint8_t" (.name label)

def driveOutput (output : PwmOutput) (frequency duty : Expr) (state : Expr × Expr) : Code :=
  let parameters : List Expr := [channel output, .name "_f", byteOf "_d"]
  Code.framed .openBlock <|
    Code.ofLines
      [.run (.declare "uint32_t" "_f" (.castGroup "uint32_t" frequency)),
        clampLocal "_f" .equal "0" "1",
        .run (.declare "int" "_d" (.castGroup "int" duty)),
        clampLocal "_d" .less "0" "0",
        clampLocal "_d" .greater "100" "100",
        .openIf (isRunning output)] ++
    (Code.run (.call "furi_hal_pwm_set_params" parameters)).inset ++
    Code.line .lastBranch ++
    (Code.run (.call "furi_hal_pwm_start" parameters)).inset ++
    Code.ofLines
      [.close,
        .run (.assign .set state.1 (.name "_f")),
        .run (.assign .set state.2 (byteOf "_d"))]

/-- Starts or changes an output; the label names the block in comments. -/
def startPwm (label : String) (site : Site) : Lowering Code := do
  match ← pwmOutput? site "hardware PWM" with
  | some output =>
    let frequency ← site.numeric "FREQ" "1000"
    let duty ← site.numeric "DUTY" "50"
    enable [.pwm]
    usePwm output
    let state ← pwmState output
    return driveOutput output frequency.expr duty.expr state
  | none =>
    return Code.comment
      (label ++ ": unsupported pin " ++ writtenPin site ++ " (use PA7 or PA4)")

/-- Stops an output, if it runs. -/
def haltOutput (output : PwmOutput) : Lowering Code := do
  enable [.pwm]
  return Code.framed (.openIf (isRunning output)) (Code.run (stopOutput output))

def stopPwm : Lowering Code := do
  match ← pwmOutput? site "hardware PWM" with
  | some output => haltOutput output
  | none => return Code.comment ("PWM stop: unsupported pin " ++ writtenPin site ++ " (use PA7 or PA4)")

def unlockServo : Lowering Code := do
  match ← pwmOutput? site "servo control" with
  | some output => haltOutput output
  | none =>
    return Code.comment
      ("Servo unlock: pin " ++ writtenPin site ++ " not supported (only PA7/PA4)")

/-- A parameter of an output, as it was last set. -/
def readPwm : Lowering Value := do
  match ← pwmOutput? site "hardware PWM" with
  | some output =>
    let (frequency, duty) ← pwmState output
    let place := if site.head.field? "WHAT" = some "FREQ" then frequency else duty
    return ⟨place, .number, none⟩
  | none => return .number "0"

def servoFrequency : Expr := .number "50"

/-- Moves a servo that runs to the angle in a local variable. -/
def moveServo : PwmOutput → Code
  | .timer1 =>
    Code.run (.call "servo_custom_pwm_set_params"
      [servoFrequency, .call "servo_angle_to_compare" [byteOf "_angle"]])
  | .lowPowerTimer2 =>
    let period : Expr := .call "LL_LPTIM_GetAutoReload" [.name "LPTIM2"]
    Code.run (.declare "uint32_t" "_period" period) ++
    Code.framed (.openIf (.binary .equal (.name "_period") (.number "0")))
      (Code.ofLines
        [.run (.call "furi_hal_pwm_set_params"
          [channel .lowPowerTimer2, servoFrequency, .number "7"]),
          .run (.assign .set (.name "_period") period)]) ++
    Code.run (.call "servo_lptim2_set_params"
      [servoFrequency,
        .call "servo_angle_to_lptim_compare" [byteOf "_angle", .name "_period"]])

def servoFeature : PwmOutput → Feature
  | .timer1 => .servoTimer1
  | .lowPowerTimer2 => .servoLowPower

def turnServo (output : PwmOutput) (angle : Expr) : Code :=
  Code.framed .openBlock <|
    Code.ofLines
      [.run (.declare "int" "_angle" (.castGroup "int" angle)),
        clampLocal "_angle" .less "0" "0",
        clampLocal "_angle" .greater "180" "180"] ++
    Code.framed (.openIf (.unary .not (isRunning output)))
      (Code.run (.call "furi_hal_pwm_start" [channel output, servoFrequency, .number "7"])) ++
    moveServo output

def servo (site : Site) : Lowering Code := do
  match ← pwmOutput? site "servo control" with
  | some output =>
    let angle ← site.numeric "ANGLE" "90"
    enable [.pwm]
    usePwm output
    enable [servoFeature output]
    return turnServo output angle.expr
  | none =>
    return Code.comment ("ERROR: Pin " ++ writtenPin site ++
      " does not support hardware PWM for servo control (supported: PA7, PA4)")

end FlipperBlocks.Lowering
