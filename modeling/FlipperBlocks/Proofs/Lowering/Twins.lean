import FlipperBlocks.Proofs.Lowering.Accords

/-! Blocks whose inputs agree. -/
namespace FlipperBlocks

open Lowering

variable {names : List String}

private theorem Agree.fetch (read : Read) : Agree names read.fetch read.fetch := by
  have listed := read.stem_mem_generatedStems
  cases read with
  | number | block => exact .bind (.namedSlot listed _ _) fun _ => .deferred _ _
  | shown => exact .bind (.sharedBuffer (by simp) _) fun _ => .pure _
  | file => exact .bind (.sharedBuffer (by simp) _) fun _ => .deferred _ _
  | climate | register => exact .bind (.readSlot listed _ _) fun _ => .deferred _ _

def Agree.concord {head : BlockHead} (listed : head.variableNames ⊆ names) : CodeConcord (.lax True) head where
  holds _ _ _ a b := Agree names a b
  given _ agree := agree
  pure _ := .pure _
  bind := .bind
  tentatively := .tentatively
  degrade _ _ := .degrade _
  enable := .enable
  configurePin _ _ := .configurePin _
  resolve usable named asText := .resolve usable (listed named) asText
  state := .state
  byteStream := .byteStream
  fetch read _ _ := .fetch read
  currentPhase := .phase
  inPhase := .inPhase _
  usePwm := .usePwm
  usePin := .usePin
  count := .fresh
  addTimer _ := .addTimer _
  addButton _ := .addButton _
  addManifest source := .modifyDraft fun _ _ => .addManifest source
  append _ _ := .modifyDraft fun _ _ => .append _ _

/-- Steps that cannot be told apart in a draft that lowering can come to. -/
def Agree.accord (names : List String) : Accord (.lax True) where
  holds _ _ _ a b := Agree names a b
  pure _ := .pure _
  bind := .bind
  tentatively := .tentatively
  degrade := .degrade
  inPhase := .inPhase _
  within _ := .within _
  Listed head := head.variableNames ⊆ names
  listed _ _ _ := trivial
  written _ _ _ := trivial
  concord := Agree.concord
  same _ := rfl

abbrev Meaning.Agree (names : List String) (a b : Meaning) : Prop := a.Related (Agree.accord names) b

/-- One block at two sites whose inputs agree. -/
structure Twins (names : List String) where
  head : BlockHead
  values : Entries (List Meaning)
  bodies : Entries (List Meaning)
  values' : Entries (List Meaning)
  bodies' : Entries (List Meaning)
  valuesAgree : InputsRelated (Agree.accord names) values values'
  bodiesAgree : InputsRelated (Agree.accord names) bodies bodies'
  listed : head.variableNames ⊆ names

namespace Twins

abbrev first (twins : Twins names) : Site := ⟨twins.head, twins.values, twins.bodies⟩

abbrev second (twins : Twins names) : Site := ⟨twins.head, twins.values', twins.bodies'⟩

variable (twins : Twins names)

theorem value (input : String) (default : Value) :
    Agree names (twins.first.value input default) (twins.second.value input default) :=
  @Accord.value _ (Agree.accord names) .detached (.of False) _ _ _ _ _ twins.valuesAgree input default nofun

theorem meaning : twins.first.meaning.Agree names twins.second.meaning :=
  Accord.meaning twins.listed twins.valuesAgree twins.bodiesAgree

theorem asValue (wantsText : Bool) :
    Agree names (twins.first.asValue wantsText) (twins.second.asValue wantsText) :=
  twins.meaning.value wantsText .detached (.of True)

theorem asStatement : Agree names twins.first.asStatement twins.second.asStatement :=
  twins.meaning.statement .detached (.of True)

end Twins

end FlipperBlocks
