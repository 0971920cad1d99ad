/-! The kinds of blocks.

The catalogue is closed: each kind has the one name that documents use for it, and any other name is
kept as an unknown kind. A kind also decides which of its inputs hold statements and which expect
text. -/
namespace FlipperBlocks

inductive BlockKind where
  | app
  | manifest
  | viewportSetup
  | clearCanvas
  | setFont
  | setColor
  | drawText
  | drawAlignedText
  | drawBox
  | drawFrame
  | drawRoundedBox
  | drawRoundedFrame
  | drawLine
  | drawCircle
  | drawDisc
  | drawDot
  | textBox
  | scrollingText
  | button
  | canvasWidth
  | canvasHeight
  | exitOnBack
  | onKey
  | redraw
  | notify
  | sleep
  | log
  | print
  | timer
  | truth
  | compare
  | logical
  | negate
  | number
  | arithmetic
  | bitAnd
  | bitOr
  | bitXor
  | bitNot
  | hexNumber
  | text
  | conditional
  | repeated
  | whileUntil
  | getVariable
  | setVariable
  | changeVariable
  | textToNumber
  | numberToText
  | textLength
  | randomNumber
  | readFile
  | writeFile
  | fileExists
  | createFile
  | deleteFile
  | setupPin
  | writePin
  | readPin
  | readAnalog
  | potentiometer
  | startPwm
  | setPwm
  | stopPwm
  | readPwm
  | servo
  | unlockServo
  | distance
  | motion
  | temperature
  | humidity
  | deviceReady
  | readRegister8
  | writeRegister8
  | readRegister16
  | writeRegister16
  | readBytes
  | writeBytes
  | updateBits
  | byteStream
  | streamLength
  | streamByte
  | unknown (name : String)
  deriving DecidableEq

namespace BlockKind

def name : BlockKind → String
  | app => "flipper_app"
  | manifest => "flipper_manifest"
  | viewportSetup => "flipper_viewport_setup"
  | clearCanvas => "flipper_canvas_clear"
  | setFont => "flipper_canvas_set_font"
  | setColor => "flipper_canvas_set_color"
  | drawText => "flipper_canvas_draw_text"
  | drawAlignedText => "flipper_canvas_draw_text_aligned"
  | drawBox => "flipper_canvas_draw_box"
  | drawFrame => "flipper_canvas_draw_frame"
  | drawRoundedBox => "flipper_canvas_draw_rbox"
  | drawRoundedFrame => "flipper_canvas_draw_rframe"
  | drawLine => "flipper_canvas_draw_line"
  | drawCircle => "flipper_canvas_draw_circle"
  | drawDisc => "flipper_canvas_draw_disc"
  | drawDot => "flipper_canvas_draw_dot"
  | textBox => "flipper_widget_text_box"
  | scrollingText => "flipper_widget_text_scroll"
  | button => "flipper_widget_button"
  | canvasWidth => "flipper_canvas_width"
  | canvasHeight => "flipper_canvas_height"
  | exitOnBack => "flipper_input_exit_on_back_short"
  | onKey => "flipper_input_if_key_type"
  | redraw => "flipper_request_redraw"
  | notify => "flipper_notify_sequence"
  | sleep => "flipper_sleep_ms"
  | log => "flipper_log"
  | print => "text_print"
  | timer => "flipper_timer_periodic"
  | truth => "logic_boolean"
  | compare => "logic_compare"
  | logical => "logic_operation"
  | negate => "logic_negate"
  | number => "math_number"
  | arithmetic => "math_arithmetic"
  | bitAnd => "flipper_bitwise_and"
  | bitOr => "flipper_bitwise_or"
  | bitXor => "flipper_bitwise_xor"
  | bitNot => "flipper_bitwise_not"
  | hexNumber => "flipper_hex_number"
  | text => "text"
  | conditional => "controls_if"
  | repeated => "controls_repeat_ext"
  | whileUntil => "controls_whileUntil"
  | getVariable => "variables_get"
  | setVariable => "variables_set"
  | changeVariable => "math_change"
  | textToNumber => "flipper_string_to_number"
  | numberToText => "flipper_number_to_string"
  | textLength => "flipper_string_length"
  | randomNumber => "flipper_random_number"
  | readFile => "flipper_storage_read"
  | writeFile => "flipper_storage_write"
  | fileExists => "flipper_storage_exists"
  | createFile => "flipper_storage_create"
  | deleteFile => "flipper_storage_delete"
  | setupPin => "flipper_gpio_init"
  | writePin => "flipper_gpio_write"
  | readPin => "flipper_gpio_read"
  | readAnalog => "flipper_gpio_analog_read"
  | potentiometer => "flipper_potentiometer_read"
  | startPwm => "flipper_pwm_start"
  | setPwm => "flipper_pwm_set"
  | stopPwm => "flipper_pwm_stop"
  | readPwm => "flipper_pwm_read"
  | servo => "flipper_servo_180"
  | unlockServo => "flipper_servo_unlock"
  | distance => "flipper_ultrasonic_distance_cm"
  | motion => "flipper_pir_motion"
  | temperature => "flipper_dht11_temp_c"
  | humidity => "flipper_dht11_humidity_percent"
  | deviceReady => "flipper_i2c_device_ready"
  | readRegister8 => "flipper_i2c_read_reg8"
  | writeRegister8 => "flipper_i2c_write_reg8"
  | readRegister16 => "flipper_i2c_read_reg16"
  | writeRegister16 => "flipper_i2c_write_reg16"
  | readBytes => "flipper_i2c_read_bytes"
  | writeBytes => "flipper_i2c_write_bytes"
  | updateBits => "flipper_i2c_update_bits8"
  | byteStream => "flipper_byte_stream"
  | streamLength => "flipper_byte_stream_length"
  | streamByte => "flipper_byte_stream_get_byte"
  | unknown name => name

def catalogue : List BlockKind :=
  [app, manifest, viewportSetup, clearCanvas, setFont, setColor, drawText, drawAlignedText,
    drawBox, drawFrame, drawRoundedBox, drawRoundedFrame, drawLine, drawCircle, drawDisc, drawDot,
    textBox, scrollingText, button, canvasWidth, canvasHeight, exitOnBack, onKey, redraw, notify,
    sleep, log, print, timer, truth, compare, logical, negate, number, arithmetic, bitAnd, bitOr,
    bitXor, bitNot, hexNumber, text, conditional, repeated, whileUntil, getVariable, setVariable,
    changeVariable, textToNumber, numberToText, textLength, randomNumber, readFile, writeFile,
    fileExists, createFile, deleteFile, setupPin, writePin, readPin, readAnalog, potentiometer,
    startPwm, setPwm, stopPwm, readPwm, servo, unlockServo, distance, motion, temperature,
    humidity, deviceReady, readRegister8, writeRegister8, readRegister16, writeRegister16,
    readBytes, writeBytes, updateBits, byteStream, streamLength, streamByte]

def ofName (text : String) : BlockKind := (catalogue.find? fun kind => kind.name == text).getD (unknown text)

def isKnown : BlockKind → Bool
  | unknown _ => false
  | _ => true

/-- Whether a block of this kind stands for a value. -/
def producesValue : BlockKind → Bool
  | canvasWidth | canvasHeight | truth | compare | logical | negate | number | arithmetic |
    bitAnd | bitOr | bitXor | bitNot | hexNumber | text | getVariable | textToNumber |
    numberToText | textLength | randomNumber | readFile | fileExists | readPin | readAnalog |
    potentiometer | readPwm | distance | motion | temperature | humidity | deviceReady |
    readRegister8 | readRegister16 | readBytes | byteStream | streamLength | streamByte => true
  | _ => false

/-- Whether a name is the given stem followed by decimal digits. -/
def isNumbered (stem : List Char) (name : String) : Bool :=
  match name.toList.drop stem.length with
  | [] => false
  | digits => name.toList.take stem.length == stem && digits.all Char.isDigit

def takesStatements : BlockKind → String → Bool
  | app, input => ["SETUP", "DRAW", "INPUT", "LOOP"].contains input
  | conditional, input => input == "ELSE" || isNumbered ['D', 'O'] input
  | repeated, input | whileUntil, input | onKey, input | timer, input | button, input => input == "DO"
  | _, _ => false

/-- The inputs that expect text because of the kind they belong to. -/
def kindTakesText : BlockKind → String → Bool
  | drawText, input | drawAlignedText, input | textBox, input | scrollingText, input
  | print, input => input == "TEXT"
  | log, input => input == "TAG" || input == "MSG"
  | readFile, input | fileExists, input | createFile, input | deleteFile, input => input == "PATH"
  | writeFile, input => input == "PATH" || input == "DATA"
  | button, input => input == "LABEL"
  | _, _ => false

/-- Whether the input of that name expects text. A variable first seen in such an input is a text
variable. -/
def takesText (kind : BlockKind) (input : String) : Bool := input == "STRING" || kind.kindTakesText input

end BlockKind

end FlipperBlocks
