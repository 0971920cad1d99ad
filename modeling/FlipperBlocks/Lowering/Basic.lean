import FlipperBlocks.Draft
import FlipperBlocks.Report.Degradation

/-! Lowering: turning blocks into code while a draft of the program grows.

A step of lowering sees the draft, the phase and the way from the roots to the current block, and
may record that it had to degrade. -/
namespace FlipperBlocks

structure Compilation where
  draft : Draft := {}
  phase : Phase := .detached
  /-- The way to the current block, from the last step to the first. -/
  steps : List Step := []
  diagnostics : List Diagnostic := []

def Compilation.location (compilation : Compilation) : Location := Location.ofSteps compilation.steps

abbrev Lowering := StateM Compilation

namespace Lowering

variable {α : Type}

def getDraft : Lowering Draft := return (← get).draft

def modifyDraft (change : Draft → Draft) : Lowering Unit :=
  modify fun compilation => { compilation with draft := change compilation.draft }

def phase : Lowering Phase := return (← get).phase

def enable (features : List Feature) : Lowering Unit := modifyDraft (Draft.enable features)

def lookup? (name : String) : Lowering (Option Storage) := return (← getDraft).lookup? name

/-- Declares storage and gives what is then declared under its name. -/
def declare (storage : Storage) : Lowering Storage := do
  modifyDraft (Draft.declare storage)
  return ((← getDraft).lookup? storage.name).getD storage

def fresh (stem : String) : Lowering String := do
  let number := (← getDraft).freshNumber stem
  modifyDraft (Draft.advance stem number)
  return Draft.numbered stem number

/-- The name of the storage that serves the purpose. -/
def slot? (key : String) : Lowering (Option String) := return (← getDraft).slots.get? key

def rememberSlot (key name : String) : Lowering Unit := modifyDraft (Draft.rememberSlot key name)

def degrade (degradation : Degradation) : Lowering Unit :=
  modify fun compilation =>
    { compilation with diagnostics := compilation.diagnostics ++ [⟨degradation, compilation.location⟩] }

/-- Takes the diagnostics recorded so far, leaving none. -/
def takeDiagnostics : Lowering Diagnostics := do
  let compilation ← get
  set { compilation with diagnostics := [] }
  return ⟨compilation.diagnostics, "warning"⟩

/-- Takes a pin into use and tells whether it was free. A pin in use keeps its mode. -/
def usePin (pin : Pin) (mode : PinMode) : Lowering Bool := do
  match (← getDraft).mode? pin with
  | none =>
    modifyDraft (Draft.usePin pin mode)
    return true
  | some previous =>
    if previous != mode then
      degrade (.pinConflict pin.name previous.describe mode.describe)
    return false

/-- Sets a pin up at the start of the application, if it was free. -/
def configurePin (setup : PinSetup) : Lowering Unit := do
  if ← usePin setup.pin setup.mode then
    modifyDraft (Draft.addSetup setup)

def usePwm (output : PwmOutput) : Lowering Unit := modifyDraft (Draft.usePwm output)

def hoist (line : C.Line) : Lowering Unit := modifyDraft (Draft.hoist line)

def addTimer (timer : Timer) : Lowering Nat := do
  let number := (← getDraft).timers.length
  modifyDraft (Draft.addTimer timer)
  return number

def addButton (body : C.Code) : Lowering Nat := do
  let number := (← getDraft).buttons.length
  modifyDraft (Draft.addButton body)
  return number

/-- Takes a step towards a block. -/
def enter (step : Step) : Lowering Unit :=
  modify fun compilation => { compilation with steps := step :: compilation.steps }

/-- Takes the last step back; at the roots there is none to take back. -/
def leave : Lowering Unit := modify fun compilation => { compilation with steps := compilation.steps.tail }

def within (step : Step) (action : Lowering α) : Lowering α := do
  enter step
  let result ← action
  leave
  return result

def inPhase (phase : Phase) (action : Lowering α) : Lowering α := do
  let outer := (← get).phase
  modify fun compilation => { compilation with phase := phase }
  let result ← action
  modify fun compilation => { compilation with phase := outer }
  return result

/-- Lowers something that may turn out to be unusable. If it is, the draft is as if it had never
been lowered, and only what was recorded about it stays. -/
def tentatively (action : Lowering (Option α)) : Lowering (Option α) := do
  let draft ← getDraft
  let result ← action
  if result.isNone then
    modifyDraft fun _ => draft
  return result

end Lowering

end FlipperBlocks
