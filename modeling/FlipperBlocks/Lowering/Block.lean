import FlipperBlocks.Lowering.Control
import FlipperBlocks.Lowering.Drawing
import FlipperBlocks.Lowering.Files
import FlipperBlocks.Lowering.Logging
import FlipperBlocks.Lowering.Operator
import FlipperBlocks.Lowering.Pwm
import FlipperBlocks.Lowering.Registers
import FlipperBlocks.Lowering.Variable

/-! The meaning of every kind of block. -/
namespace FlipperBlocks

open C (Code)

namespace Lowering

/-- A value that stands for nothing the program can say. -/
def degradedValue (degradation : Degradation) : Lowering Value := do
  degrade degradation
  return .number "0"

/-- A statement that stands for nothing the program can say. -/
def degradedStatement (degradation : Degradation) (line : C.Line) : Lowering Code := do
  degrade degradation
  return Code.line line

def addManifest (site : Site) : Lowering Code := do
  modifyDraft (Draft.addManifest (.ofHead site.head))
  return []

end Lowering

namespace Site

open Lowering

def asValue (site : Site) (wantsText : Bool) : Lowering Value :=
  match site.kind with
  | .canvasWidth => return .number "128"
  | .canvasHeight => return .number "64"
  | .truth => return truthLiteral site
  | .number => return numberLiteral site
  | .hexNumber => return hexLiteral site
  | .text => return .text (site.head.rawField "TEXT")
  | .compare => comparison site
  | .logical => logical site
  | .negate => negation site
  | .arithmetic => arithmetic site
  | .bitAnd => bitwise .bitAnd site
  | .bitOr => bitwise .bitOr site
  | .bitXor => bitwise .bitXor site
  | .bitNot => complement site
  | .getVariable => getVariable site wantsText
  | .textToNumber => textToNumber site
  | .numberToText => numberToText site
  | .textLength => textLength site
  | .randomNumber => randomNumber site
  | .readFile => readFile site
  | .fileExists => fileExists site
  | .readPin => readPin site
  | .readAnalog => readAnalog site
  | .potentiometer => potentiometer site
  | .readPwm => readPwm site
  | .distance => distance site
  | .motion => motion site
  | .temperature => readClimate temperature site
  | .humidity => readClimate humidity site
  | .deviceReady => deviceReady site
  | .readRegister8 => readRegister .eight site
  | .readRegister16 => readRegister .sixteen site
  | .readBytes => readBytes site
  | .byteStream => byteStream site
  | .streamLength => streamLength site
  | .streamByte => streamByte site
  | .unknown name => degradedValue (.unknownKind name)
  | kind => degradedValue (.statementAsValue kind.name)

def asStatement (site : Site) : Lowering Code :=
  match site.kind with
  | .app => application site
  | .manifest => addManifest site
  | .viewportSetup | .clearCanvas | .setFont | .setColor | .exitOnBack => return []
  | .drawText | .drawAlignedText | .drawBox | .drawFrame | .drawRoundedBox | .drawRoundedFrame
  | .drawLine | .drawCircle | .drawDisc | .drawDot | .textBox | .scrollingText => drawing site
  | .button => button site
  | .onKey => onKey site
  | .redraw => return Code.run redraw
  | .notify => notify site
  | .sleep => sleep site
  | .log => log site
  | .print => print site
  | .timer => timer site
  | .conditional => conditional site
  | .repeated => repeated site
  | .whileUntil => whileUntil site
  | .setVariable => setVariable site
  | .changeVariable => changeVariable site
  | .writeFile => writeFile site
  | .createFile => createFile site
  | .deleteFile => deleteFile site
  | .setupPin => setupPin site
  | .writePin => writePin site
  | .startPwm => startPwm "PWM start" site
  | .setPwm => startPwm "PWM set" site
  | .stopPwm => stopPwm site
  | .servo => servo site
  | .unlockServo => unlockServo site
  | .writeRegister8 => writeRegister .eight site
  | .writeRegister16 => writeRegister .sixteen site
  | .writeBytes => writeBytes site
  | .updateBits => updateBits site
  | .unknown name => degradedStatement (.unknownKind name) (.placeholder name)
  | kind =>
    degradedStatement (.valueAsStatement kind.name)
      (.comment ("value block " ++ kind.name ++ " ignored"))

/-- The meaning of a block from the meanings of the blocks in its inputs. -/
def meaning (site : Site) : Meaning where
  kind := site.kind
  id := site.head.id
  value := site.asValue
  statement := site.asStatement

end Site

mutual

def Block.meaning : Block → Meaning
  | .mk head values bodies => Site.meaning ⟨head, inputMeanings values, inputMeanings bodies⟩

def chainMeanings : List Block → List Meaning
  | [] => []
  | block :: rest => block.meaning :: chainMeanings rest

def inputMeanings : List (String × List Block) → List (String × List Meaning)
  | [] => []
  | (name, chain) :: rest => (name, chainMeanings chain) :: inputMeanings rest

end

def Chain.lower (chain : Chain) : Lowering Code := Meaning.chain (chainMeanings chain)

end FlipperBlocks
