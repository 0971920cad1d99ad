import FlipperBlocks.Proofs.Lowering.Agreement

/-! The pins that blocks ask for, and what goes on record where a pin has another mode already. -/
namespace FlipperBlocks

def BlockKind.setup? (head : BlockHead) : BlockKind → Option PinSetup
  | setupPin =>
    some
      { pin := .general (head.field? "PIN"), mode := .ofSelector (head.field? "MODE")
        pull := .ofSelector (head.field? "PULL") }
  | readAnalog | potentiometer =>
    let pin := Pin.general (head.field? "PIN")
    if pin.isAnalog then some { pin, mode := .analog } else none
  | motion => some { pin := .general (head.field? "PIN"), mode := .input }
  | _ => none

def BlockHead.setup? (head : BlockHead) : Option PinSetup := head.kind.setup? head

theorem Site.setup?_eq (site : Site) : site.head.setup? = site.kind.setup? site.head := rfl

def Degradation.isPinConflict : Degradation → Bool
  | pinConflict .. => true
  | _ => false

def PinSetup.conflict (setup : PinSetup) (previous : PinMode) (location : Location) : Diagnostic :=
  ⟨.pinConflict setup.pin.name previous.describe setup.mode.describe, location⟩

theorem Draft.mode?_usePin {draft : Draft} (pin other : Pin) (mode : PinMode) :
    (draft.usePin pin mode).mode? other =
      (draft.mode? other).or (if other = pin then some mode else none) := by
  unfold mode? usePin
  rw [List.lookup_append]
  by_cases same : other = pin
  · simp [same]
  · simp [same, List.lookup_cons, beq_false_of_ne same]

namespace Compilation

variable {c : Compilation}

def conflicts (c : Compilation) (setup : PinSetup) : List Diagnostic :=
  match c.draft.mode? setup.pin with
  | some previous => if previous = setup.mode then [] else [setup.conflict previous c.location]
  | none => []

theorem conflicts_of_free {setup : PinSetup} (free : c.draft.mode? setup.pin = none) :
    c.conflicts setup = [] := by
  rw [conflicts, free]

end Compilation

namespace Lowering

theorem run_usePin_busy {c : Compilation} {setup : PinSetup} {previous : PinMode}
    (busy : c.draft.mode? setup.pin = some previous) : Lowering.usePin setup.pin setup.mode c =
      (false, { c with diagnostics := c.diagnostics ++ c.conflicts setup }) := by
  rw [Lowering.usePin, Agree.run_getDraft, Compilation.conflicts, busy]
  by_cases same : previous = setup.mode
  · simp [same]
    rfl
  · simp [same]
    rfl

theorem run_configurePin {c : Compilation} (setup : PinSetup) : Lowering.configurePin setup c =
    ((), if c.draft.mode? setup.pin = none then
        { c with draft := (c.draft.usePin setup.pin setup.mode).addSetup setup }
      else { c with diagnostics := c.diagnostics ++ c.conflicts setup }) := by
  have run : Lowering.configurePin setup c =
      (if (Lowering.usePin setup.pin setup.mode c).1 then
        Lowering.modifyDraft (Draft.addSetup setup)
      else Pure.pure () : Lowering Unit) (Lowering.usePin setup.pin setup.mode c).2 := rfl
  cases used : c.draft.mode? setup.pin with
  | none =>
    rw [run, Agree.run_usePin used]
    rfl
  | some previous =>
    rw [run, run_usePin_busy used]
    rfl

end Lowering

end FlipperBlocks
