import FlipperBlocks.Proofs.Draft.Table
import FlipperBlocks.Proofs.Lowering.Locality

/-! Steps of lowering that agree.

Two steps agree if nothing tells them apart in a draft that moves can lead to, and if they change such
a draft by moves only. The first of them is local. -/
namespace FlipperBlocks

open C (Code Expr)
open Lowering

/-- Two steps of lowering do the same to every draft that lowering can come to, and that by moves. -/
structure Agree {α : Type} (names : List String) (a b : Lowering α) : Prop where
  isLocal : Local a
  run : ∀ c : Compilation, Draft.Moves names {} c.draft →
    a c = b c ∧ Draft.Moves names c.draft (b c).2.draft

namespace Agree

variable {α β : Type} {names : List String}

/-- A step that agrees with itself. -/
abbrev Steady (names : List String) (a : Lowering α) : Prop := Agree names a a

theorem pure (a : α) : Steady names (Pure.pure a) := ⟨.pure a, fun _ _ => ⟨rfl, .refl _⟩⟩

theorem bind {a b : Lowering α} {f g : α → Lowering β} (first : Agree names a b)
    (second : ∀ x, Agree names (f x) (g x)) : Agree names (a >>= f) (b >>= g) := by
  refine ⟨.bind first.isLocal fun x => (second x).isLocal, fun c reached => ?_⟩
  obtain ⟨same, moves⟩ := first.run c reached
  obtain ⟨sameOn, movesOn⟩ := (second (b c).1).run (b c).2 (reached.trans moves)
  refine ⟨?_, moves.trans movesOn⟩
  change f (a c).1 (a c).2 = g (b c).1 (b c).2
  rw [same, sameOn]

theorem of_moves {a : Lowering α} (isLocal : Local a) (moves : ∀ c : Compilation,
    Draft.Moves names {} c.draft → Draft.Moves names c.draft (a c).2.draft) : Steady names a :=
  ⟨isLocal, fun c reached => ⟨rfl, moves c reached⟩⟩

theorem modifyDraft {change : Draft → Draft}
    (move : ∀ draft, Draft.Moves names {} draft → Draft.Move names draft (change draft)) :
    Steady names (Lowering.modifyDraft change) :=
  of_moves (.modifyDraft change) fun c reached => .single (move c.draft reached)

/-! Steps that leave the draft alone. -/

theorem phase : Steady names Lowering.phase := of_moves .phase fun _ _ => .refl _

theorem degrade (degradation : Degradation) : Steady names (Lowering.degrade degradation) :=
  of_moves (.degrade degradation) fun _ _ => .refl _

theorem within {a b : Lowering α} (step : Step) (agree : Agree names a b) :
    Agree names (Lowering.within step a) (Lowering.within step b) := by
  refine ⟨.within step agree.isLocal, fun c reached => ?_⟩
  obtain ⟨same, moves⟩ := agree.run { c with steps := step :: c.steps } reached
  refine ⟨?_, moves⟩
  change ((a _).1, _) = ((b _).1, _)
  rw [same]

theorem inPhase {a b : Lowering α} (phase : Phase) (agree : Agree names a b) :
    Agree names (Lowering.inPhase phase a) (Lowering.inPhase phase b) := by
  refine ⟨.inPhase phase agree.isLocal, fun c reached => ?_⟩
  obtain ⟨same, moves⟩ := agree.run { c with phase := phase } reached
  refine ⟨?_, moves⟩
  change ((a _).1, _) = ((b _).1, _)
  rw [same]

/-- A draft that is put back has not moved at all. -/
theorem tentatively {a b : Lowering (Option α)} (agree : Agree names a b) :
    Agree names (Lowering.tentatively a) (Lowering.tentatively b) := by
  refine ⟨.tentatively agree.isLocal, fun c reached => ?_⟩
  obtain ⟨same, moves⟩ := agree.run c reached
  have run (action : Lowering (Option α)) : Lowering.tentatively action c =
      (if (action c).1.isNone then
        Lowering.modifyDraft (fun _ => c.draft) >>= fun _ => Pure.pure (action c).1
      else Pure.pure (action c).1 : Lowering (Option α)) (action c).2 := rfl
  rw [run, run, same]
  refine ⟨rfl, ?_⟩
  cases (b c).1 with
  | none => exact .refl _
  | some _ => exact moves

/-! Steps that make a move. -/

theorem enable (features : List Feature) : Steady names (Lowering.enable features) :=
  modifyDraft fun _ _ => .enable features

theorem usePwm (output : PwmOutput) : Steady names (Lowering.usePwm output) :=
  modifyDraft fun _ _ => .usePwm output

theorem hoist (read : Expr) : Steady names (Lowering.hoist (.run read)) := modifyDraft fun _ _ => .hoist read

theorem addTimer (timer : Timer) : Steady names (Lowering.addTimer timer) :=
  of_moves (.addTimer timer) fun _ _ => .single (.addTimer timer)

theorem addButton (body : Code) : Steady names (Lowering.addButton body) :=
  of_moves (.addButton body) fun _ _ => .single (.addButton body)

theorem run_getDraft (next : Draft → Lowering β) (c : Compilation) :
    (Lowering.getDraft >>= next) c = next c.draft c := rfl

theorem run_slot? (key : String) (next : Option String → Lowering β) (c : Compilation) :
    (Lowering.slot? key >>= next) c = next (c.draft.slots.get? key) c := rfl

theorem run_usePin {c : Compilation} {pin : Pin} (free : c.draft.mode? pin = none)
    (mode : PinMode) : Lowering.usePin pin mode c = (true, { c with draft := c.draft.usePin pin mode }) := by
  rw [Lowering.usePin, run_getDraft, free]
  rfl

theorem run_usePin_again {c : Compilation} {pin : Pin} {previous : PinMode}
    (used : c.draft.mode? pin = some previous) (mode : PinMode) :
    (Lowering.usePin pin mode c).1 = false ∧ (Lowering.usePin pin mode c).2.draft = c.draft := by
  have run : Lowering.usePin pin mode c = (if previous != mode then
      Lowering.degrade (.pinConflict pin.name previous.describe mode.describe) >>= fun _ => Pure.pure false
    else Pure.pure false : Lowering Bool) c := by
    rw [Lowering.usePin, run_getDraft, used]
  rw [run]
  split <;> exact ⟨rfl, rfl⟩

theorem usePin (pin : Pin) (mode : PinMode) : Steady names (Lowering.usePin pin mode) := by
  refine of_moves (.usePin pin mode) fun c _ => ?_
  cases free : c.draft.mode? pin with
  | none =>
    rw [run_usePin free]
    exact .single (.usePin mode free)
  | some previous =>
    rw [(run_usePin_again free mode).2]
    exact .refl _

theorem draft_configurePin (setup : PinSetup) (c : Compilation) :
    (Lowering.configurePin setup c).2.draft = if c.draft.mode? setup.pin = none then
      (c.draft.usePin setup.pin setup.mode).addSetup setup else c.draft := by
  have run : Lowering.configurePin setup c =
      (if (Lowering.usePin setup.pin setup.mode c).1 then
        Lowering.modifyDraft (Draft.addSetup setup)
      else Pure.pure () : Lowering Unit) (Lowering.usePin setup.pin setup.mode c).2 := rfl
  cases used : c.draft.mode? setup.pin with
  | none =>
    rw [run, run_usePin used]
    rfl
  | some previous =>
    obtain ⟨busy, kept⟩ := run_usePin_again used setup.mode
    rw [run, busy]
    exact kept

theorem configurePin (setup : PinSetup) : Steady names (Lowering.configurePin setup) := by
  refine of_moves (.configurePin setup) fun c _ => ?_
  rw [draft_configurePin]
  split
  · exact .single (.configurePin ‹_›)
  · exact .refl _

theorem resolve {name : String} (usable : C.Identifier.Usable name) (listed : name ∈ names) (asText : Bool) :
    Steady names (Lowering.declare ⟨name, if asText then .text 256 else .int⟩) :=
  of_moves (.declare _) fun _ _ => .single (.resolve usable listed asText)

theorem fresh (stem : String) : Steady names (Lowering.fresh stem) :=
  of_moves (.fresh stem) fun _ _ => .single (.count stem)

theorem state {output : PwmOutput} {storage : Storage} (remembered : storage ∈ output.states) :
    Steady names (Lowering.declare storage) :=
  of_moves (.declare storage) fun _ _ => .single (.state remembered)

/-- A fresh name is allotted to storage: first it is counted, and then it is declared. -/
private theorem moves_numbered {draft : Draft} {stem key : String} (listed : stem ∈ generatedStems)
    (unused : draft.slots.get? key = none) (type : StorageType) :
    Draft.Moves names draft (((draft.advance stem (draft.freshNumber stem)).declare
      ⟨Draft.numbered stem (draft.freshNumber stem), type⟩).rememberSlot key
        (Draft.numbered stem (draft.freshNumber stem))) := by
  have counted : Draft.Moves names draft (draft.advance stem (draft.freshNumber stem)) :=
    .single (.count stem)
  have free : (draft.advance stem (draft.freshNumber stem)).lookup?
      (Draft.numbered stem (draft.freshNumber stem)) = none := draft.lookup?_freshNumber stem
  refine counted.trans (.single ?_)
  exact @Draft.Move.slot names _ ⟨Draft.numbered stem (draft.freshNumber stem), type⟩ key
    (.numbered listed _) free unused

theorem namedSlot {stem : String} (listed : stem ∈ generatedStems) (key : String) (type : StorageType) :
    Steady names (Lowering.namedSlot key stem type) := by
  refine of_moves (.namedSlot key stem type) fun c _ => ?_
  rw [Lowering.namedSlot, run_slot?]
  cases unused : c.draft.slots.get? key with
  | some name => exact .refl _
  | none => exact moves_numbered listed unused type

theorem sharedBuffer {name : String} (shared : name ∈ ["display_buffer", "storage_buffer"]) (size : Nat) :
    Steady names (Lowering.sharedBuffer name size) := by
  refine of_moves (.sharedBuffer name size) fun c _ => ?_
  have listed : name ∈ generatedStems := by
    rcases List.mem_pair.1 shared with rfl | rfl <;> simp [generatedStems]
  rw [Lowering.sharedBuffer, run_slot?]
  cases unused : c.draft.slots.get? ("buffer:" ++ name) with
  | some buffer => exact .refl _
  | none =>
    change Draft.Moves names c.draft ((if (c.draft.lookup? name).isSome then _ else _ :
      Lowering String) c).2.draft
    cases free : c.draft.lookup? name with
    | some storage => exact moves_numbered listed unused _
    | none =>
      refine .single ?_
      exact @Draft.Move.slot names c.draft ⟨name, .text size⟩ _ (.buffer shared) free unused

theorem declare_rememberSlot (draft : Draft) (key name : String) (storage : Storage) :
    (draft.rememberSlot key name).declare storage = (draft.declare storage).rememberSlot key name := by
  have same : (draft.rememberSlot key name).lookup? storage.name = draft.lookup? storage.name := rfl
  cases found : draft.lookup? storage.name with
  | some old => rw [Draft.declare_of_declared found, Draft.declare_of_declared (same.trans found)]
  | none => rw [Draft.declare_of_free found, Draft.declare_of_free (same.trans found)]; rfl

/-- A slot tells the name of storage that is there, so that a read without storage has no slot. -/
theorem readSlot {stem : String} (listed : stem ∈ generatedStems) (key : String) (type : StorageType) :
    Steady names (Lowering.readSlot key stem type) := by
  refine of_moves (.readSlot key stem type) fun c reached => ?_
  rw [Lowering.readSlot, run_slot?, run_getDraft]
  cases known : (c.draft.slots.get? key).bind c.draft.lookup? with
  | some storage => exact .refl _
  | none =>
    have unused : c.draft.slots.get? key = none := by
      cases told : c.draft.slots.get? key with
      | none => rfl
      | some name =>
        rw [told, Option.bind_some, reached.tabled.lookup?_eq_none_iff] at known
        exact absurd (reached.tabled.slots _ (Entries.mem_of_get? told)) known
    have moves : Draft.Moves names c.draft _ := moves_numbered listed unused type
    rw [← declare_rememberSlot] at moves
    exact moves

theorem byteStream (site : Site) : Steady names (Lowering.byteStream site) := by
  refine of_moves (.byteStream site) fun c _ => ?_
  let number := c.draft.freshNumber "byte_stream"
  have counted : Draft.Moves names c.draft (c.draft.advance "byte_stream" number) :=
    .single (.count "byte_stream")
  have free : (c.draft.advance "byte_stream" number).lookup?
      (Draft.numbered "byte_stream" number) = none := c.draft.lookup?_freshNumber "byte_stream"
  refine counted.trans (.single ?_)
  exact .array (.numbered (by simp [generatedStems]) number) free _ _

/-! Conversions. -/

theorem deferred (read : Expr) (result : Value) : Steady names (Lowering.deferred read result) := by
  refine .bind .phase fun phase => ?_
  split
  · exact .bind (.hoist read) fun _ => .pure _
  · exact .pure _

end Agree

end FlipperBlocks
