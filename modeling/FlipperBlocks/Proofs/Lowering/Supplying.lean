import FlipperBlocks.Proofs.Lowering.Appending
import FlipperBlocks.Proofs.Lowering.Supply

/-! Steps of lowering that keep a draft supplied.

What a step gives is judged by the draft right after it. What holds then holds of all later drafts too,
so that the facts about the parts of an expression can be put together when the last part is there. -/
namespace FlipperBlocks

open Draft
open C (Atom Code Expr Line)
open C.Identifier (isIdentifier)

@[reducible] def Fact.told {names : GivenNames} (read : Read) (slot : String) : Fact (.ready names) where
  holds draft := draft.slots.get? read.key = some slot
  stays moves told := moves.settles.slots _ _ told

structure Draft.Keeps (a b : Draft) : Prop where
  beforeDraw : b.beforeDraw = a.beforeDraw
  slots : b.slots = a.slots
  kept : b.kept = a.kept
  draw : b.draw = a.draw

theorem Draft.Keeps.declare (draft : Draft) (storage : Storage) : draft.Keeps (draft.declare storage) := by
  unfold Draft.declare
  split <;> exact ⟨rfl, rfl, rfl, rfl⟩

theorem Draft.Supplied.of_keeps {names : GivenNames} {a b : Draft} (supplied : a.Supplied names)
    (moves : Draft.Moves names.ofVariables a b) (keeps : a.Keeps b) : b.Supplied names :=
  supplied.of_moves moves keeps.beforeDraw keeps.slots (fun _ member => .inl (keeps.kept ▸ member)) (.inl keeps.draw)

structure Brings {α : Type} (names : GivenNames) (post : α → Fact (.ready names)) (run : α × Compilation) :
    Prop where
  supplied : run.2.draft.Supplied names
  post : (post run.1).holds run.2.draft

structure Leaves {α : Type} (names : GivenNames) (phase : Phase) (post : α → Fact (.ready names))
    (before : Compilation) (run : α × Compilation) : Prop extends Brings names post run where
  phase : run.2.phase = phase
  moves : Draft.Moves names.ofVariables before.draft run.2.draft

/-- A step of lowering in a phase keeps a draft supplied, and its result is as described. -/
def Supplies {α : Type} (names : GivenNames) (phase : Phase) (known : Fact (.ready names))
    (action : Lowering α) (post : α → Fact (.ready names)) : Prop :=
  ∀ before : Compilation, before.phase = phase → before.draft.Supplied names →
    known.holds before.draft → Leaves names phase post before (action before)

namespace Supplies

variable {α β : Type} {names : GivenNames} {phase : Phase} {known : Fact (.ready names)}
  {post : α → Fact (.ready names)}

theorem pure {a : α}
    (gives : ∀ draft : Draft, draft.Supplied names → known.holds draft → (post a).holds draft) :
    Supplies names phase known (Pure.pure a) post :=
  fun before inPhase supplied facts => ⟨⟨supplied, gives before.draft supplied facts⟩, inPhase, .refl _⟩

theorem bind {action : Lowering β} {next : β → Lowering α} {mid : β → Fact (.ready names)}
    (first : Supplies names phase known action mid)
    (second : ∀ b, Supplies names phase (known.and (mid b)) (next b) post) :
    Supplies names phase known (action >>= next) post := by
  intro before inPhase supplied facts
  have leaves := first before inPhase supplied facts
  have leavesOn := second (action before).1 (action before).2 leaves.phase leaves.supplied
    ⟨known.stays leaves.moves facts, leaves.post⟩
  exact ⟨leavesOn.toBrings, leavesOn.phase, leaves.moves.trans leavesOn.moves⟩

variable {action : Lowering α}

theorem imp {better : α → Fact (.ready names)} (supplies : Supplies names phase known action post)
    (gives : ∀ a (draft : Draft), draft.Supplied names → (known.and (post a)).holds draft →
      (better a).holds draft) : Supplies names phase known action better := by
  intro before inPhase supplied facts
  have leaves := supplies before inPhase supplied facts
  refine ⟨⟨leaves.supplied, gives _ _ leaves.supplied ?_⟩, leaves.phase, leaves.moves⟩
  exact ⟨known.stays leaves.moves facts, leaves.post⟩

theorem given {more : Fact (.ready names)} (gives : ∀ draft : Draft, more.holds draft → known.holds draft)
    (supplies : Supplies names phase known action post) : Supplies names phase more action post :=
  fun before inPhase supplied facts => supplies before inPhase supplied (gives _ facts)

theorem assuming {fact : Prop} (gives : ∀ draft : Draft, known.holds draft → fact)
    (supplies : fact → Supplies names phase known action post) : Supplies names phase known action post :=
  fun before inPhase supplied facts => supplies (gives _ facts) before inPhase supplied facts

theorem of_agree (agree : Agree names.ofVariables action action)
    (gives : ∀ c : Compilation, c.phase = phase → c.draft.Supplied names → known.holds c.draft →
      Draft.Moves names.ofVariables c.draft (action c).2.draft → Brings names post (action c)) :
    Supplies names phase known action post := by
  intro c inPhase supplied facts
  have moves := agree.moves supplied.reached
  exact ⟨gives c inPhase supplied facts moves, (agree.isLocal.phase_eq c).trans inPhase, moves⟩

theorem quiet {fact : α → Prop} (agree : Agree names.ofVariables action action)
    (keeps : ∀ c : Compilation, c.draft.Keeps (action c).2.draft) (gives : ∀ c, fact (action c).1) :
    Supplies names phase known action fun a => .of (fact a) := by
  exact of_agree agree fun c _ supplied _ moves => ⟨supplied.of_keeps moves (keeps c), gives c⟩

theorem currentPhase : Supplies names phase known Lowering.phase fun current => .of (current = phase) :=
  fun _ inPhase supplied _ => ⟨⟨supplied, inPhase⟩, inPhase, .refl _⟩

theorem degrade (degradation : Degradation) :
    Supplies names phase known (Lowering.degrade degradation) fun _ => .of True :=
  quiet (.degrade degradation) (fun _ => ⟨rfl, rfl, rfl, rfl⟩) fun _ => trivial

theorem within (supplies : Supplies names phase known action post)
    (step : Step) : Supplies names phase known (Lowering.within step action) post := by
  intro before inPhase supplied facts
  have leaves := supplies { before with steps := step :: before.steps } inPhase supplied facts
  exact ⟨⟨leaves.supplied, leaves.post⟩, leaves.phase, leaves.moves⟩

theorem inPhase {action : Lowering α} {inner : Phase} (supplies : Supplies names inner known action post) :
    Supplies names phase known (Lowering.inPhase inner action) post := by
  intro before inPhase supplied facts
  have leaves := supplies { before with phase := inner } rfl supplied facts
  exact ⟨⟨leaves.supplied, leaves.post⟩, inPhase, leaves.moves⟩

theorem tentatively {action : Lowering (Option α)}
    (supplies : Supplies names phase known action (Fact.ofSome post)) :
    Supplies names phase known (Lowering.tentatively action) (Fact.ofSome post) := by
  intro before inPhase supplied facts
  have leaves := supplies before inPhase supplied facts
  rw [Lowering.run_tentatively]
  cases found : (action before).1 with
  | none => exact ⟨⟨supplied, trivial⟩, leaves.phase, .refl _⟩
  | some result =>
    have post := leaves.post
    rw [found] at post
    exact ⟨⟨leaves.supplied, post⟩, leaves.phase, leaves.moves⟩

/-! Steps that make a move. -/

theorem enable (features : List Feature) :
    Supplies names phase known (Lowering.enable features) fun _ => .of True :=
  quiet (.enable features) (fun _ => ⟨rfl, rfl, rfl, rfl⟩) fun _ => trivial

theorem usePwm (output : PwmOutput) :
    Supplies names phase known (Lowering.usePwm output) fun _ => .of True := by
  refine quiet (.usePwm output) (fun c => ?_) fun _ => trivial
  change c.draft.Keeps (c.draft.usePwm output)
  unfold Draft.usePwm
  split <;> exact ⟨rfl, rfl, rfl, rfl⟩

theorem fresh (stem : String) : Supplies names phase known (Lowering.fresh stem) fun name =>
    .of (∃ number, name = numbered stem number) :=
  quiet (.fresh stem) (fun _ => ⟨rfl, rfl, rfl, rfl⟩) fun _ => ⟨_, rfl⟩

theorem usePin (pin : Pin) (mode : PinMode) :
    Supplies names phase known (Lowering.usePin pin mode) fun _ => .of True := by
  refine quiet (.usePin pin mode) (fun c => ?_) fun _ => trivial
  cases free : c.draft.mode? pin with
  | none =>
    rw [Agree.run_usePin free]
    exact ⟨rfl, rfl, rfl, rfl⟩
  | some previous =>
    rw [(Agree.run_usePin_again free mode).2]
    exact ⟨rfl, rfl, rfl, rfl⟩

/-- What is declared may be asked for its size if it is an array of bytes. -/
theorem declare {storage : Storage}
    (agree : Agree names.ofVariables (Lowering.declare storage) (Lowering.declare storage)) :
    Supplies names phase known (Lowering.declare storage) fun found =>
      (Fact.of (found.name = storage.name)).and (.sized phase found.value.array) := by
  refine of_agree agree fun c _ supplied _ moves =>
    ⟨supplied.of_keeps moves (.declare c.draft storage), name_getD_lookup? _ storage, fun array isArray => ?_⟩
  obtain ⟨length, initial, same⟩ := Storage.eq_bytes_of_array isArray
  have there : (c.draft.declare storage).lookup? storage.name = some (Lowering.declare storage c).1 := by
    change _ = some (((c.draft.declare storage).lookup? storage.name).getD storage)
    rw [lookup?_declare, if_pos rfl]
    cases c.draft.lookup? storage.name <;> rfl
  rw [same] at there
  have named : array = storage.name := name_of_lookup? there
  exact ⟨length, initial, named ▸ there⟩

theorem byteStream (site : Site) : Supplies names phase known (Lowering.byteStream site) fun value =>
    (Fact.of (∃ number, value = .bytes (numbered "byte_stream" number))).and (.sized phase value.array) := by
  refine of_agree (.byteStream site) fun c _ supplied _ moves => ?_
  let counted := c.draft.advance "byte_stream" (c.draft.freshNumber "byte_stream")
  refine ⟨supplied.of_keeps moves ⟨?_, ?_, ?_, ?_⟩, ⟨_, rfl⟩, fun array isArray => ?_⟩
  · exact (Draft.Keeps.declare counted _).beforeDraw
  · exact (Draft.Keeps.declare counted _).slots
  · exact (Draft.Keeps.declare counted _).kept
  · exact (Draft.Keeps.declare counted _).draw
  · obtain rfl := Option.some.inj isArray
    let bytes := Lowering.bytesOfText (site.head.rawField "BYTES")
    refine ⟨bytes.length, some bytes, ?_⟩
    change (counted.declare ⟨_, .bytes bytes.length (some bytes)⟩).lookup? _ = _
    rw [lookup?_declare, if_pos rfl]
    exact congrArg (Option.or · _) (c.draft.lookup?_freshNumber _)

theorem adding {added : Code} (agree : Agree names.ofVariables action action)
    (same : ∀ c : Compilation, (action c).2.draft.beforeDraw = c.draft.beforeDraw ∧
      (action c).2.draft.slots = c.draft.slots ∧ (action c).2.draft.draw = c.draft.draw ∧
        ∀ code ∈ (action c).2.draft.kept, code ∈ c.draft.kept ∨ code = added)
    (uses : ∀ draft : Draft, known.holds draft → added.Uses (draft.Permits names .detached)) :
    Supplies names phase known action fun _ => .of True := by
  refine of_agree agree fun c _ supplied facts moves => ⟨?_, trivial⟩
  obtain ⟨beforeDraw, slots, draw, kept⟩ := same c
  refine supplied.of_moves moves beforeDraw slots (fun code member => ?_) (.inl draw)
  rcases kept code member with old | rfl
  · exact .inl old
  · exact .inr (uses _ facts)

theorem configurePin (setup : PinSetup) :
    Supplies names phase known (Lowering.configurePin setup) fun _ => .of True := by
  refine @adding _ _ _ _ _ (Code.line setup.line) (.configurePin setup) (fun c => ?_) fun draft _ => ?_
  · rw [Agree.draft_configurePin]
    split
    · exact ⟨rfl, rfl, rfl, fun _ => @mem_kept_addSetup c.draft _ setup⟩
    · exact ⟨rfl, rfl, rfl, fun _ => .inl⟩
  · simp +decide [PinSetup.line, Pin.symbol]

theorem addTimer {timer : Timer}
    (uses : ∀ draft : Draft, known.holds draft → timer.body.Uses (draft.Allows names .timer)) :
    Supplies names phase known (Lowering.addTimer timer) fun _ => .of True := by
  exact adding (.addTimer timer) (fun c => ⟨rfl, rfl, rfl, fun _ => mem_kept_addTimer⟩) fun draft facts =>
    (uses draft facts).imp fun _ => Draft.Allows.detached

theorem addButton {body : Code}
    (uses : ∀ draft : Draft, known.holds draft → body.Uses (draft.Allows names .button)) :
    Supplies names phase known (Lowering.addButton body) fun _ => .of True := by
  exact adding (.addButton body) (fun c => ⟨rfl, rfl, rfl, fun _ => mem_kept_addButton⟩) fun draft facts =>
    (uses draft facts).imp fun _ => Draft.Allows.detached

theorem append {part : Phase} {code : Code}
    (uses : ∀ draft : Draft, known.holds draft → code.Uses (draft.Allows names part)) :
    Supplies names phase known (Lowering.modifyDraft (Draft.append part code)) fun _ => .of True := by
  refine of_agree (.modifyDraft fun _ _ => .append part code) fun c _ supplied facts moves => ⟨?_, trivial⟩
  have allowed := uses c.draft facts
  have kept (other) (member : other ∈ (c.draft.append part code).kept) :
      other ∈ c.draft.kept ∨ other.Uses (c.draft.Permits names .detached) := by
    refine (mem_kept_append member).imp_right ?_
    rintro ⟨old, there, rfl⟩
    exact Code.uses_append.2 ⟨supplied.permitted old there, allowed.imp fun _ => Draft.Allows.detached⟩
  have drawn : (c.draft.append part code).draw = c.draft.draw ∨
      (c.draft.append part code).draw.Uses (c.draft.Allows names .draw) := by
    cases part with
    | draw => exact .inr (Code.uses_append.2 ⟨supplied.drawn, allowed⟩)
    | _ => exact .inl rfl
  refine supplied.of_moves moves ?_ ?_ kept drawn <;> cases part <;> rfl

theorem addManifest (head : BlockHead) : Supplies names phase known
    (Lowering.modifyDraft (Draft.addManifest (.ofHead head))) fun _ => .of True :=
  quiet (.modifyDraft fun _ _ => .addManifest head) (fun _ => ⟨rfl, rfl, rfl, rfl⟩) fun _ => trivial

/-! Slots. -/

private theorem allot_numbered {draft : Draft} (supplied : draft.Supplied names) {read : Read}
    (proper : read.Proper) (unused : draft.slots.get? read.key = none) :
    let slot := numbered read.stem (draft.freshNumber read.stem)
    let after := ((draft.advance read.stem (draft.freshNumber read.stem)).declare
      ⟨slot, read.type⟩).rememberSlot read.key slot
    after.Supplied names ∧ after.slots.get? read.key = some slot ∧
      after.lookup? slot = some ⟨slot, read.type⟩ := by
  have counted : (draft.advance read.stem (draft.freshNumber read.stem)).Supplied names :=
    supplied.of_moves (.single (.count read.stem)) rfl rfl (fun _ => .inl) (.inl rfl)
  exact counted.allot proper (.inl ⟨_, rfl⟩) (draft.lookup?_freshNumber read.stem) unused

theorem namedSlot {read : Read} (proper : ∀ draft : Draft, known.holds draft → read.Proper) :
    Supplies names phase known (Lowering.namedSlot read.key read.stem read.type) (Fact.told read) := by
  refine of_agree (.namedSlot read.stem_mem_generatedStems _ _) fun c _ supplied facts _ => ?_
  rw [Lowering.namedSlot, Agree.run_slot?]
  cases told : c.draft.slots.get? read.key with
  | some slot => exact ⟨supplied, told⟩
  | none =>
    obtain ⟨after, told, _⟩ := allot_numbered supplied (proper _ facts) told
    exact ⟨after, told⟩

theorem sharedBuffer {read : Read} (shared : read.isShared = true) {size : Nat}
    (proper : ∀ draft : Draft, known.holds draft → read.Proper)
    (key : read.key = "buffer:" ++ read.stem) (type : read.type = .text size) :
    Supplies names phase known (Lowering.sharedBuffer read.stem size) (Fact.told read) := by
  have listed : read.stem ∈ ["display_buffer", "storage_buffer"] := by
    cases read with
    | shown | file => simp [Read.stem]
    | _ => contradiction
  refine of_agree (.sharedBuffer listed size) fun c _ supplied facts _ => ?_
  rw [Lowering.sharedBuffer, Agree.run_slot?, ← key, ← type]
  cases told : c.draft.slots.get? read.key with
  | some slot => exact ⟨supplied, told⟩
  | none =>
    change Brings names (Fact.told read) ((if (c.draft.lookup? read.stem).isSome then _ else _ :
      Lowering String) c)
    cases free : c.draft.lookup? read.stem with
    | some storage =>
      obtain ⟨after, told, _⟩ := allot_numbered supplied (proper _ facts) told
      exact ⟨after, told⟩
    | none =>
      obtain ⟨after, told, _⟩ := supplied.allot (proper _ facts) (.inr ⟨shared, rfl⟩) free told
      exact ⟨after, told⟩

theorem readSlot {read : Read} (proper : ∀ draft : Draft, known.holds draft → read.Proper) :
    Supplies names phase known (Lowering.readSlot read.key read.stem read.type) fun storage =>
      (Fact.told read storage.name).and
        (.of (storage.place = (Storage.mk storage.name read.type).place)) := by
  refine of_agree (.readSlot read.stem_mem_generatedStems _ _) fun c _ supplied facts _ => ?_
  rw [Lowering.readSlot, Agree.run_slot?, Agree.run_getDraft]
  cases told : c.draft.slots.get? read.key with
  | some slot =>
    obtain ⟨known, same, _, _, declared⟩ := supplied.slots _ _ told
    rw [Option.bind_some, declared]
    exact ⟨supplied, told, (Read.sort_eq_of_key same).2.2 slot⟩
  | none =>
    obtain ⟨after, told, declared⟩ := allot_numbered supplied (proper _ facts) told
    -- Here the slot is remembered before its storage is declared.
    rw [← Agree.declare_rememberSlot] at after told declared
    let slot := numbered read.stem (c.draft.freshNumber read.stem)
    let last := ((c.draft.advance read.stem (c.draft.freshNumber read.stem)).rememberSlot read.key
      slot).declare ⟨slot, read.type⟩
    change Brings names _ ((last.lookup? slot).getD ⟨slot, read.type⟩, { c with draft := last })
    rw [declared]
    exact ⟨after, told, rfl⟩

end Supplies

end FlipperBlocks
