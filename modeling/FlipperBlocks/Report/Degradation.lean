import FlipperBlocks.Report.Location

/-! Degradations: places where the generated program is weaker than what was asked for. -/
namespace FlipperBlocks

inductive Degradation where
  | unknownKind (kind : String)
  | valueAsStatement (kind : String)
  | statementAsValue (kind : String)
  | unsupportedPin (pin capability : String)
  | pinConflict (pin previous requested : String)
  | wrongPhase (kind phase : String)
  | detached (kind : String)
  | textArithmetic (name : String)
  | expectedBytes (input : String)
  | bytesAsValue (name : String)
  deriving DecidableEq

def Degradation.message : Degradation → String
  | unknownKind kind => "Unknown block kind `" ++ kind ++ "`, emitted a placeholder"
  | valueAsStatement kind =>
    "Block `" ++ kind ++ "` produces a value and cannot be used as a statement"
  | statementAsValue kind => "Block `" ++ kind ++ "` is a statement and cannot be used as a value"
  | unsupportedPin pin capability => "Pin `" ++ pin ++ "` does not support " ++ capability
  | pinConflict pin previous requested =>
    "Pin `" ++ pin ++ "` was already configured as " ++ previous ++ ", ignoring " ++ requested ++
      " setup"
  | wrongPhase kind phase =>
    "Block `" ++ kind ++ "` is only meaningful inside the " ++ phase ++ " section"
  | detached kind =>
    "Top-level block `" ++ kind ++ "` is not attached to an application and was discarded"
  | textArithmetic name => "Variable `" ++ name ++ "` holds text and cannot be changed by a number"
  | expectedBytes input => "Expected a byte stream for `" ++ input ++ "`"
  | bytesAsValue name => "A byte stream cannot be used as the value of `" ++ name ++ "`"

/-- A degradation and the place where it happened. -/
structure Diagnostic where
  degradation : Degradation
  location : Location
  deriving DecidableEq

/-- Two lines and an empty one, the first led by the word for what is reported. -/
def Diagnostic.text (word : String) (diagnostic : Diagnostic) : String :=
  word ++ ": " ++ diagnostic.degradation.message ++ "\n --> " ++ diagnostic.location.text ++ "\n\n"

/-- The diagnostics of a compilation, and the word that reports use for one of them. -/
structure Diagnostics where
  entries : List Diagnostic
  word : String := "warning"

namespace Diagnostics

/-- Whether there is nothing to report. -/
def isClean (diagnostics : Diagnostics) : Bool := diagnostics.entries.isEmpty

/-- The report: every diagnostic and then their number. -/
def report (diagnostics : Diagnostics) : String :=
  let word := diagnostics.word
  if diagnostics.isClean then "No " ++ word ++ "s were reported\n"
  else
    let count := diagnostics.entries.length
    "".intercalate (diagnostics.entries.map (Diagnostic.text word)) ++
      "Compiled with " ++ toString count ++ " " ++ word ++ (if count = 1 then "" else "s") ++ "\n"

end Diagnostics

end FlipperBlocks
