import FlipperBlocks.Proofs.Lowering.Appending

/-! Relations that know where lowering stands.

A relation between a run with the blocks of a program and one with the same blocks without ids may also speak about the
place of a block, about what it does to the draft, and about the results of steps as long as nothing is degraded. -/
namespace FlipperBlocks

open Lowering
open C (Code Expr)

/-! Ways from block to block. -/

def Block.held (block : Block) (input : String) : List Block :=
  ((if block.head.kind.takesStatements input then block.bodies else block.values).get? input).getD []

/-- Where lowering stands: before the roots of a program, or at a block that others follow. -/
inductive Place where
  | top (roots : List Chain)
  | here (block : Block) (rest : List Block)

def rootNamed (segment : String) (index : Nat) : List Chain → Chain
  | [] => []
  | root :: rest =>
    if segment = "blocks[" ++ toString index ++ "]" then root
    else rootNamed segment (index + 1) rest

/-- The blocks that a segment leads to: from the top a root, and from a block those that follow it or those
in the input of that name. -/
def Place.onward (segment : String) : Place → List Block
  | top roots => rootNamed segment 0 roots
  | here block rest => if segment = "next" then rest else block.held segment

def Degradation.Suits (degradation : Degradation) (block : Block) : Prop :=
  degradation.kind? = none ∨ degradation.kind? = some block.head.kind.name

/-! What blocks do to drafts. -/

def Draft.Uncommented (draft : Draft) : Prop := ∀ code ∈ draft.kept, code.Uncommented

/-- What a block of a kind may do to a draft if some facts are known: none but an application adds to the
sections, and no comments come in. -/
structure Draft.Change (known : Prop) (kind : BlockKind) (a b : Draft) : Prop where
  uncommented : known → a.Uncommented → b.Uncommented
  sections : kind = .app ∨ b.sections = a.sections

namespace Draft.Change

variable {known : Prop} {kind : BlockKind} {draft : Draft}

theorem of_kept {a b : Draft} (kept : b.kept = a.kept) (sections : b.sections = a.sections) :
    Change known kind a b :=
  ⟨fun _ clear => by rwa [Draft.Uncommented, kept], .inr sections⟩

private theorem of_added {a b : Draft} {code : Code}
    (kept : ∀ other ∈ b.kept, other ∈ a.kept ∨ other = code) (clear : known → code.Uncommented)
    (sections : b.sections = a.sections) : Change known kind a b := by
  refine ⟨fun s old other member => ?_, .inr sections⟩
  rcases kept other member with before | rfl
  · exact old other before
  · exact clear s

theorem enable (features : List Feature) : Change known kind draft (draft.enable features) := of_kept rfl rfl

theorem declare (storage : Storage) : Change known kind draft (draft.declare storage) := by
  unfold Draft.declare
  split <;> exact of_kept rfl rfl

theorem advance (stem : String) (number : Nat) : Change known kind draft (draft.advance stem number) :=
  of_kept rfl rfl

theorem rememberSlot (key name : String) : Change known kind draft (draft.rememberSlot key name) :=
  of_kept rfl rfl

theorem usePin (pin : Pin) (mode : PinMode) : Change known kind draft (draft.usePin pin mode) :=
  of_kept rfl rfl

theorem usePwm (output : PwmOutput) : Change known kind draft (draft.usePwm output) := by
  unfold Draft.usePwm
  split <;> exact of_kept rfl rfl

theorem addManifest (manifest : Manifest) : Change known kind draft (draft.addManifest manifest) :=
  of_kept rfl rfl

theorem addSetup (setup : PinSetup) : Change known kind draft (draft.addSetup setup) :=
  of_added (fun _ => mem_kept_addSetup) (fun _ => by simp [PinSetup.line, Pin.symbol]) rfl

theorem hoist {read : Expr} (clear : known → read.Uncommented) :
    Change known kind draft (draft.hoist (.run read)) := by
  refine of_added (fun _ => mem_kept_hoist) (fun s => by simpa using clear s) ?_
  unfold Draft.hoist
  split <;> rfl

theorem addTimer {timer : Timer} (clear : known → timer.body.Uncommented) :
    Change known kind draft (draft.addTimer timer) :=
  of_added (fun _ => mem_kept_addTimer) clear rfl

theorem addButton {body : Code} (clear : known → body.Uncommented) :
    Change known kind draft (draft.addButton body) :=
  of_added (fun _ => mem_kept_addButton) clear rfl

theorem append {code : Code} (app : kind = .app) (clear : known → code.Uncommented) (phase : Phase) :
    Change known kind draft (draft.append phase code) := by
  refine ⟨fun s old other member => ?_, .inl app⟩
  rcases mem_kept_append member with before | ⟨body, before, rfl⟩
  · exact old other before
  · exact Code.uncommented_append.2 ⟨old body before, clear s⟩

end Draft.Change

abbrev C.Code.Clean (code : Code) : Prop := code.Meets ((Rules.lax True).code .detached {})

/-! Relations that are handed on. -/

/-- A relation between steps of lowering that is closed under everything that blocks are lowered by. It is
told at a place, from what is known about the steps before, and with what is then known about the result.
Where something is degraded the impossible is known, so that nothing has to be shown about what follows. -/
structure Congruence where
  holds : {α : Type} → Prop → Place → (α → Prop) → Lowering α → Lowering α → Prop
  given {α : Type} {known more : Prop} {place : Place} {post : α → Prop} {a b : Lowering α} :
    (more → known) → holds known place post a b → holds more place post a b
  pure {α : Type} {known place} {post : α → Prop} {a : α} :
    (known → post a) → holds known place post (Pure.pure a) (Pure.pure a)
  bind {α β : Type} {known place} {mid : α → Prop} {post : β → Prop}
    {a b : Lowering α} {f g : α → Lowering β} : holds known place mid a b →
      (∀ x, holds (known ∧ mid x) place post (f x) (g x)) →
        holds known place post (a >>= f) (b >>= g)
  getDraft {known place} :
    holds known place (fun _ => True) getDraft getDraft
  phase {known place} :
    holds known place (fun _ => True) phase phase
  modifyDraft {known block rest} {change : Draft → Draft} :
    (∀ draft : Draft, draft.Change known block.head.kind (change draft)) →
      holds known (.here block rest) (fun _ => True) (modifyDraft change)
        (modifyDraft change)
  degrade {known block rest} {degradation : Degradation} :
    degradation.Suits block → holds known (.here block rest) (fun _ => False)
      (degrade degradation) (degrade degradation)
  within {α : Type} {known place} {post : α → Prop} {a b : Lowering α}
    {segment : String} {inner : Block} {others : List Block} {id : Option String} :
      '>' ∉ segment.toList → place.onward segment = inner :: others →
        holds known (.here inner others) post a b →
          holds known place post (within ⟨segment, inner.head.id⟩ a)
            (within ⟨segment, id⟩ b)
  inPhase {α : Type} {known place} {post : α → Prop} {a b : Lowering α}
    (phase : Phase) : holds known place post a b →
      holds known place post (inPhase phase a) (inPhase phase b)
  tentatively {α : Type} {known place} {post : Option α → Prop}
    {a b : Lowering (Option α)} : holds known place post a b →
      holds known place post (tentatively a) (tentatively b)

namespace Lowering

variable {α : Type}

theorem run_within (step : Step) (action : Lowering α) (c : Compilation) :
    within step action c = ((action { c with steps := step :: c.steps }).1,
      { (action { c with steps := step :: c.steps }).2 with
        steps := (action { c with steps := step :: c.steps }).2.steps.tail }) := rfl

theorem run_inPhase (phase : Phase) (action : Lowering α) (c : Compilation) :
    inPhase phase action c = ((action { c with phase := phase }).1,
      { (action { c with phase := phase }).2 with phase := c.phase }) := rfl

end Lowering

namespace Congruence

variable (R : Congruence) {known : Prop} {block : Block} {rest : List Block}

theorem next {α β : Type} {place : Place} {mid : α → Prop} {post : β → Prop} {a b : Lowering α}
    {f g : α → Lowering β} (first : R.holds known place mid a b)
    (second : ∀ x, R.holds known place post (f x) (g x)) : R.holds known place post (a >>= f) (b >>= g) :=
  R.bind first fun x => R.given And.left (second x)

theorem imp {α : Type} {place : Place} {post weaker : α → Prop} {a b : Lowering α}
    (related : R.holds known place post a b) (step : ∀ x, post x → weaker x) :
    R.holds known place weaker a b :=
  R.bind related fun x => R.pure fun told => step x told.2

abbrev Keeps {α : Type} (known : Prop) (block : Block) (rest : List Block) (post : α → Prop) (a : Lowering α) :
    Prop := R.holds known (.here block rest) post a a

/-! Steps that change the draft. -/

section

variable {R}

private theorem declare (storage : Storage) :
    R.Keeps known block rest (fun found => found.name = storage.name) (Lowering.declare storage) :=
  R.next (R.modifyDraft fun _ => .declare storage) fun _ =>
    R.next R.getDraft fun draft => R.pure fun _ => draft.name_getD_lookup? storage

private theorem fresh (stem : String) :
    R.Keeps known block rest (fun name => ∃ number, name = Draft.numbered stem number)
      (Lowering.fresh stem) :=
  R.next R.getDraft fun _ => R.next (R.modifyDraft fun _ => .advance stem _) fun _ => R.pure fun _ => ⟨_, rfl⟩

private theorem slot? (key : String) : R.Keeps known block rest (fun _ => True) (Lowering.slot? key) :=
  R.next R.getDraft fun _ => R.pure fun _ => trivial

private theorem lookup? (name : String) : R.Keeps known block rest (fun _ => True) (Lowering.lookup? name) :=
  R.next R.getDraft fun _ => R.pure fun _ => trivial

private theorem rememberSlot (key name : String) :
    R.Keeps known block rest (fun _ => True) (Lowering.rememberSlot key name) :=
  R.modifyDraft fun _ => .rememberSlot key name

private theorem usePin (pin : Pin) (mode : PinMode) :
    R.Keeps known block rest (fun _ => True) (Lowering.usePin pin mode) := by
  refine R.next R.getDraft fun draft => ?_
  split
  · exact R.next (R.modifyDraft fun _ => .usePin pin mode) fun _ => R.pure fun _ => trivial
  · split
    · exact R.bind (R.degrade (.inl rfl)) fun _ => R.pure fun _ => trivial
    · exact R.pure fun _ => trivial

private theorem sharedBuffer (name : String) (size : Nat) :
    R.Keeps known block rest (fun _ => True) (Lowering.sharedBuffer name size) := by
  have remembered (buffer : String) : R.Keeps known block rest (fun _ => True) (do
      let _ ← Lowering.declare ⟨buffer, .text size⟩
      Lowering.rememberSlot ("buffer:" ++ name) buffer
      return buffer) :=
    R.next (declare _) fun _ => R.next (rememberSlot _ _) fun _ => R.pure fun _ => trivial
  refine R.next (slot? _) fun found => ?_
  cases found with
  | some buffer => exact R.pure fun _ => trivial
  | none =>
    refine R.next (lookup? _) fun other => ?_
    dsimp only
    split
    · exact R.next (fresh _) remembered
    · rw [pure_bind]
      exact remembered name

private theorem namedSlot (key stem : String) (type : StorageType) :
    R.Keeps known block rest (fun _ => True) (Lowering.namedSlot key stem type) := by
  refine R.next (slot? _) fun found => ?_
  cases found with
  | some name => exact R.pure fun _ => trivial
  | none =>
    exact R.next (fresh _) fun _ => R.next (declare _) fun _ =>
      R.next (rememberSlot _ _) fun _ => R.pure fun _ => trivial

private theorem readSlot (key stem : String) (type : StorageType) :
    R.Keeps known block rest (fun _ => True) (Lowering.readSlot key stem type) := by
  refine R.next (slot? _) fun found => R.next R.getDraft fun draft => ?_
  dsimp only
  split
  · exact R.pure fun _ => trivial
  · exact R.next (fresh _) fun _ => R.next (rememberSlot _ _) fun _ => R.imp (declare _) fun _ _ => trivial

private theorem deferred {read : Expr} {result : Value} (clean : known → read.Lax True ∧ result.Lax True) :
    R.Keeps known block rest (Value.Lax True) (Lowering.deferred read result) := by
  refine R.next R.phase fun phase => ?_
  split
  · exact R.next (R.modifyDraft fun _ => .hoist fun s => (clean s).1.clear trivial) fun _ => R.pure fun s => (clean s).2
  · exact R.pure fun s => ⟨by simpa [doing] using And.intro (clean s).1 (clean s).2.expr, (clean s).2.array⟩

end

def bond (block : Block) (rest : List Block) : Bond (.lax True) where
  holds _ known post a b := R.holds (known.holds {}) (.here block rest) (fun x => (post x).holds {}) a b
  pure gives := R.pure (gives {})
  bind := R.bind
  tentatively := R.tentatively

theorem slots (block : Block) (rest : List Block) (phase : Phase) : (R.bond block rest).Slots phase where
  permitted _ := trivial
  named _ := R.imp (namedSlot ..) fun _ _ => ⟨trivial, trivial⟩
  shared _ _ := R.imp (sharedBuffer ..) fun _ _ => ⟨trivial, trivial⟩
  read _ := R.imp (readSlot ..) fun _ _ => ⟨trivial, trivial⟩
  deferred given := deferred (given {})

def concord (block : Block) (rest : List Block) : CodeConcord (.lax True) block.head where
  toBond := R.bond block rest
  given imp := R.given (imp {})
  degrade _ suits := R.imp (R.degrade suits) fun _ => False.elim
  enable features := R.modifyDraft fun _ => .enable features
  configurePin _ _ := by
    refine R.next (usePin _ _) fun free => ?_
    split
    · exact R.modifyDraft fun _ => .addSetup _
    · exact R.pure fun _ => trivial
  resolve _ _ _ := R.imp (declare ⟨_, _⟩) fun _ same => ⟨same, fun _ _ => trivial⟩
  state _ := declare _
  byteStream site := R.bind (fresh _) fun _ => R.next (declare _) fun _ =>
    R.pure fun told => ⟨told.2.imp fun _ => congrArg Value.bytes, fun _ _ => trivial⟩
  fetch read meets _ := (R.slots block rest _).fetch read meets
  currentPhase := R.phase
  inPhase := R.inPhase _
  usePwm output := R.modifyDraft fun _ => .usePwm output
  usePin := usePin
  count stem := R.imp (fresh stem) fun _ _ => trivial
  addTimer meets := R.next R.getDraft fun _ =>
    R.next (R.modifyDraft fun _ => .addTimer fun s => (meets {} s).clear trivial) fun _ => R.pure fun _ => trivial
  addButton meets := R.next R.getDraft fun _ =>
    R.next (R.modifyDraft fun _ => .addButton fun s => (meets {} s).clear trivial) fun _ => R.pure fun _ => trivial
  addManifest _ := R.modifyDraft fun _ => .addManifest _
  append kind meets := R.modifyDraft fun _ => .append kind (fun s => (meets {} s).clear trivial) _

end Congruence

end FlipperBlocks
