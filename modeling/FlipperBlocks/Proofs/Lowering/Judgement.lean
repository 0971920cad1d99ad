import FlipperBlocks.Proofs.Draft.Kept

/-! A judgement about steps of lowering.

What a step gives is judged by the end of the compilation: the code that it gives needs features that
the last draft has, and for the features that it enables the code has to call what they bring in. A
step that is undone later never leads to that end, so that the judgement has nothing to say of it. -/
namespace FlipperBlocks

open Application Draft
open C (Code Expr Line)
open C.Identifier (isIdentifier)

/-- The end of a compilation: its last draft, and the functions called in code that blocks had no
use for. -/
structure Outcome where
  last : Draft
  leftOut : String → Prop

namespace Outcome

/-- A function is accounted for if it is called: in code at hand, which calls the functions owed, in
code that is kept, in other routines, or in code that was left out. -/
def Accounts (outcome : Outcome) (owed : List String) (function : String) : Prop :=
  function ∈ owed ∨ function ∈ outcome.last.calls ∨ function ∈ Application.inner ∨
    outcome.leftOut function

/-- Every routine that a draft brings in has a function that is accounted for. -/
def Serves (outcome : Outcome) (owed : List String) (draft : Draft) : Prop :=
  ∀ routine ∈ routines,
    isWanted routine.wantedBy draft.features = true →
      ∃ function ∈ routine.functions, outcome.Accounts owed function

variable {outcome : Outcome} {owed more : List String} {draft : Draft}

theorem Accounts.imp {function : String} (accounted : outcome.Accounts owed function)
    (accounts : ∀ function ∈ owed, outcome.Accounts more function) : outcome.Accounts more function :=
  accounted.elim (accounts function) .inr

theorem Serves.imp (serves : outcome.Serves owed draft)
    (accounts : ∀ function ∈ owed, outcome.Accounts more function) : outcome.Serves more draft := by
  intro routine member wanted
  obtain ⟨function, defined, accounted⟩ := serves routine member wanted
  exact ⟨function, defined, accounted.imp accounts⟩

theorem Serves.empty (outcome : Outcome) (owed : List String) : outcome.Serves owed {} := by
  intro routine member wanted
  obtain ⟨feature, _, has⟩ := (isWanted_iff member).1 wanted
  simp at has

/-- Functions that make up for enabled features: each feature that has drivers has one of them. -/
def Covers (names : List String) (features : List Feature) : Prop :=
  ∀ feature ∈ features, feature.drivers ≠ [] → ∃ name ∈ feature.drivers, name ∈ names

instance (names : List String) (features : List Feature) : Decidable (Covers names features) :=
  inferInstanceAs (Decidable (∀ _ ∈ features, _))

theorem Serves.enable (serves : outcome.Serves owed draft) {names : List String}
    {features : List Feature} (covers : Covers names features) :
    outcome.Serves (names ++ owed) (draft.enable features) := by
  intro routine member wanted
  obtain ⟨feature, among, has⟩ := (isWanted_iff member).1 wanted
  rw [Draft.enable, Features.has_foldl_insert, Bool.or_eq_true, decide_eq_true_eq] at has
  rcases has with old | new
  · have before := (isWanted_iff member).2 ⟨feature, among, old⟩
    obtain ⟨function, defined, accounted⟩ := serves routine member before
    exact ⟨function, defined, accounted.imp fun _ there => .inl (List.mem_append_right _ there)⟩
  · obtain ⟨profile, paired, describes⟩ := exists_profile routine member
    rw [describes.functions]
    rcases catalogue_drivers _ paired feature among with
      ⟨function, defined, inner⟩ | ⟨some, drivers⟩
    · exact ⟨function, defined, .inr (.inr (.inl inner))⟩
    · obtain ⟨function, driver, paid⟩ := covers feature new some
      exact ⟨function, drivers function driver, .inl (List.mem_append_left _ paid)⟩

end Outcome

/-- What a step gives between two drafts of a compilation that leads to the outcome. -/
structure Gives {α : Type} (outcome : Outcome) (owed : List String) (post : α → Prop)
    (owes : α → List String) (before after : Draft) (result : α) : Prop where
  sound : after.Sound outcome.last
  post : post result
  serves : outcome.Serves owed before → outcome.Serves (owes result) after

/-- A step of lowering in a phase lets the draft grow. If the draft then leads to the outcome and
some facts are known, the result is as described, and for the functions that were owed before it
owes those of the result. -/
def Lowers {α : Type} (outcome : Outcome) (phase : Phase) (known : Prop) (owed : List String)
    (action : Lowering α) (post : α → Prop) (owes : α → List String) : Prop :=
  ∀ before : Compilation, before.phase = phase →
    before.draft.Extends (action before).2.draft ∧ (action before).2.phase = phase ∧
      ((action before).2.draft.Extends outcome.last → known → before.draft.Sound outcome.last →
          Gives outcome owed post owes before.draft (action before).2.draft (action before).1)

namespace Lowers

variable {α β : Type} {outcome : Outcome} {phase : Phase} {known : Prop} {owed : List String}
  {post : α → Prop} {owes : α → List String}

theorem pure {a : α} (fits : known → post a)
    (accounts : known → ∀ function ∈ owed, outcome.Accounts (owes a) function) :
    Lowers outcome phase known owed (Pure.pure a) post owes := by
  intro before inPhase
  refine ⟨.refl _, inPhase, fun _ facts sound => ⟨sound, fits facts, fun serves => ?_⟩⟩
  exact serves.imp (accounts facts)

theorem done {a : α} (fits : known → post a) (kept : known → ∀ function ∈ owed, function ∈ owes a) :
    Lowers outcome phase known owed (Pure.pure a) post owes :=
  pure fits fun facts function member => .inl (kept facts function member)

theorem bind {action : Lowering β} {next : β → Lowering α} {mid : β → Prop}
    {between : β → List String} (first : Lowers outcome phase known owed action mid between)
    (second : ∀ b, Lowers outcome phase (known ∧ mid b) (between b) (next b) post owes) :
    Lowers outcome phase known owed (action >>= next) post owes := by
  intro before inPhase
  obtain ⟨grows, stays, ends⟩ := first before inPhase
  obtain ⟨growsOn, staysOn, endsOn⟩ := second (action before).1 (action before).2 stays
  refine ⟨grows.trans growsOn, staysOn, fun leads facts sound => ?_⟩
  have gives := ends (growsOn.trans leads) facts sound
  have givesOn := endsOn leads ⟨facts, gives.post⟩ gives.sound
  exact ⟨givesOn.sound, givesOn.post, fun serves => givesOn.serves (gives.serves serves)⟩

theorem imp {action : Lowering α} {better : α → Prop} {owesLess : α → List String}
    (lowers : Lowers outcome phase known owed action post owes) (fits : ∀ a, known → post a → better a)
    (accounts : ∀ a, known → post a → ∀ function ∈ owes a, outcome.Accounts (owesLess a) function) :
    Lowers outcome phase known owed action better owesLess := by
  intro before inPhase
  obtain ⟨grows, stays, ends⟩ := lowers before inPhase
  refine ⟨grows, stays, fun leads facts sound => ?_⟩
  have gives := ends leads facts sound
  exact ⟨gives.sound, fits _ facts gives.post, fun serves =>
    (gives.serves serves).imp (accounts _ facts gives.post)⟩

theorem modifyDraft {post : Unit → Prop} {owes : Unit → List String} {change : Draft → Draft}
    (grows : ∀ draft : Draft, draft.Extends (change draft))
    (gives : known → ∀ draft : Draft, (change draft).Extends outcome.last →
      draft.Sound outcome.last → Gives outcome owed post owes draft (change draft) ()) :
    Lowers outcome phase known owed (Lowering.modifyDraft change) post owes :=
  fun before inPhase => ⟨grows before.draft, inPhase, fun leads facts => gives facts _ leads⟩

theorem revise {fact : Prop} {change : Draft → Draft} (grows : ∀ draft : Draft, draft.Extends (change draft))
    (features : ∀ draft : Draft, (change draft).features = draft.features)
    (gives : known → ∀ draft : Draft, (change draft).Extends outcome.last →
      draft.Sound outcome.last → (change draft).Sound outcome.last ∧ fact) :
    Lowers outcome phase known owed (Lowering.modifyDraft change) (fun _ => fact) fun _ => owed := by
  refine modifyDraft grows fun facts draft leads sound => ?_
  obtain ⟨after, holds⟩ := gives facts draft leads sound
  refine ⟨after, holds, fun serves routine member wanted => ?_⟩
  rw [features] at wanted
  exact serves routine member wanted

theorem getDraft : Lowers outcome phase known owed Lowering.getDraft
    (fun draft => draft.Sound outcome.last ∧ draft.Extends outcome.last) fun _ => owed :=
  fun _ inPhase => ⟨.refl _, inPhase, fun leads _ sound => ⟨sound, ⟨sound, leads⟩, id⟩⟩

theorem currentPhase : Lowers outcome phase known owed Lowering.phase (· = phase) fun _ => owed :=
  fun _ inPhase => ⟨.refl _, inPhase, fun _ _ sound => ⟨sound, inPhase, id⟩⟩

theorem degrade (degradation : Degradation) : Lowers outcome phase known owed
    (Lowering.degrade degradation) (fun _ => True) fun _ => owed :=
  fun _ inPhase => ⟨.refl _, inPhase, fun _ _ sound => ⟨sound, trivial, id⟩⟩

theorem enable {features : List Feature} {names : List String} (covers : Outcome.Covers names features)
    (closed : known → ∀ feature ∈ features, ∀ other ∈ feature.requires,
      other ∈ features ∨ outcome.last.features.has other = true) :
    Lowers outcome phase known owed (Lowering.enable features)
      (fun _ => ∀ feature ∈ features, outcome.last.features.has feature = true) fun _ => names ++ owed := by
  refine modifyDraft (extends_enable · features) fun facts draft leads sound => ?_
  have has : ∀ feature ∈ features, outcome.last.features.has feature = true := by
    intro feature member
    refine leads.features feature ?_
    rw [Draft.enable, Features.has_foldl_insert, decide_eq_true member, Bool.or_true]
  refine ⟨sound.enable fun feature member other required => ?_, has, fun serves => serves.enable covers⟩
  exact (closed facts feature member other required).elim (has other) id

/-- Features that require no others than themselves. -/
theorem enabling (names : List String) {features : List Feature} (covers : Outcome.Covers names features)
    (closed : ∀ feature ∈ features, ∀ other ∈ feature.requires, other ∈ features) :
    Lowers outcome phase known owed (Lowering.enable features)
      (fun _ => ∀ feature ∈ features, outcome.last.features.has feature = true) fun _ => names ++ owed :=
  enable covers fun _ feature member other required => .inl (closed feature member other required)

theorem lookup? (name : String) : Lowers outcome phase known owed (Lowering.lookup? name)
    (fun _ => True) fun _ => owed :=
  getDraft.bind fun _ => .pure (fun _ => trivial) fun _ _ => .inl

theorem declare {storage : Storage} (named : known → isIdentifier storage.name = true) :
    Lowers outcome phase known owed (Lowering.declare storage) (Storage.Fits outcome.last) fun _ => owed := by
  intro before inPhase
  have features : (before.draft.declare storage).features = before.draft.features := by
    unfold Draft.declare
    split <;> rfl
  refine ⟨before.draft.extends_declare storage, inPhase, fun leads facts sound => ?_⟩
  have after := sound.declare (named facts)
  refine ⟨after, ?_, fun serves routine member wanted => ?_⟩
  · -- What is found under the name is the old storage or the new one, and some is found.
    have found : ((before.draft.declare storage).lookup? storage.name).isSome = true := by
      rw [lookup?_declare, if_pos rfl]
      cases before.draft.lookup? storage.name <;> rfl
    obtain ⟨other, same⟩ := Option.isSome_iff_exists.1 found
    have result : (Lowering.declare storage before).1 = other := by
      change ((before.draft.declare storage).lookup? storage.name).getD storage = other
      rw [same]
      rfl
    rw [result]
    exact after.lookup leads same
  · change isWanted routine.wantedBy (before.draft.declare storage).features = true
      at wanted
    rw [features] at wanted
    exact serves routine member wanted

theorem fresh {stem : String} (named : isIdentifier stem = true) :
    Lowers outcome phase known owed (Lowering.fresh stem)
      (fun name => isIdentifier name = true ∧ ∃ number, name = numbered stem number) fun _ => owed := by
  have advanced (facts : Prop) (number : Nat) : Lowers outcome phase facts owed
      (Lowering.modifyDraft (advance stem number)) (fun _ => True) fun _ => owed :=
    revise (extends_advance · stem number) (fun _ => rfl) fun _ _ _ sound => ⟨{ sound with }, trivial⟩
  exact getDraft.bind fun draft => (advanced _ _).bind fun _ =>
    .pure (fun _ => ⟨C.Identifier.isIdentifier_numbered named _, _, rfl⟩) fun _ _ => .inl

theorem slot? (key : String) : Lowers outcome phase known owed (Lowering.slot? key)
    (fun found => ∀ name, found = some name → isIdentifier name = true) fun _ => owed :=
  getDraft.bind fun _ => .pure (fun facts name found => facts.2.1.slots key name found) fun _ _ => .inl

theorem rememberSlot {key name : String} (named : known → isIdentifier name = true) :
    Lowers outcome phase known owed (Lowering.rememberSlot key name) (fun _ => True) fun _ => owed :=
  revise (extends_rememberSlot · key name) (fun _ => rfl) fun facts _ _ sound =>
    ⟨sound.rememberSlot (named facts) key, trivial⟩

theorem usePin (pin : Pin) (mode : PinMode) : Lowers outcome phase known owed
    (Lowering.usePin pin mode) (fun _ => True) fun _ => owed := by
  refine getDraft.bind fun draft => ?_
  split
  · have used (facts : Prop) : Lowers outcome phase facts owed
        (Lowering.modifyDraft (Draft.usePin pin mode)) (fun _ => True) fun _ => owed :=
      revise (extends_usePin · pin mode) (fun _ => rfl) fun _ _ _ sound => ⟨{ sound with }, trivial⟩
    exact (used _).bind fun _ => .pure (fun _ => trivial) fun _ _ => .inl
  · split
    · exact (degrade _).bind fun _ => .pure (fun _ => trivial) fun _ _ => .inl
    · exact .pure (fun _ => trivial) fun _ _ => .inl

theorem configurePin (setup : PinSetup) : Lowers outcome phase known owed
    (Lowering.configurePin setup) (fun _ => True) fun _ => owed := by
  refine (usePin setup.pin setup.mode).bind fun free => ?_
  split
  · exact revise (extends_addSetup · setup) (fun _ => rfl) fun _ _ _ sound => ⟨{ sound with }, trivial⟩
  · exact .pure (fun _ => trivial) fun _ _ => .inl

theorem usePwm {output : PwmOutput} (has : known → outcome.last.features.has .pwm = true) :
    Lowers outcome phase known owed (Lowering.usePwm output) (fun _ => True) fun _ => owed := by
  refine revise (extends_usePwm · output) (fun draft => ?_) fun facts _ _ sound =>
    ⟨sound.usePwm (has facts) output, trivial⟩
  unfold Draft.usePwm
  split <;> rfl

private theorem hoisted {read : Expr} {draft : Draft}
    (leads : (draft.hoist (.run read)).Extends outcome.last) (sound : draft.Sound outcome.last)
    (holds : read.Holds (Allowed outcome.last)) : ∀ function ∈ read.calls, function ∈ outcome.last.calls := by
  intro function called
  refine leads.calls ?_
  rw [← Line.calls_run] at called
  unfold Draft.hoist
  split
  · -- A line with the same text is there already, and it makes the same calls.
    rename_i present
    obtain ⟨other, member, same⟩ := List.any_eq_true.1 present
    obtain ⟨action, rfl, otherHolds⟩ := sound.beforeDraw other member
    have spelled : (Line.run read).Holds C.Atom.Spelled :=
      Expr.Holds.imp (fun _ => Allowed.spelled) read holds
    have otherSpelled : (Line.run action).Holds C.Atom.Spelled :=
      Expr.Holds.imp (fun _ => Allowed.spelled) action otherHolds
    rw [← Line.calls_eq_of_text spelled otherSpelled (eq_of_beq same), ← C.Code.calls_line] at called
    refine mem_calls (List.mem_append_right _ (List.mem_append_left _ ?_)) called
    exact List.mem_map_of_mem member
  · rw [← C.Code.calls_line] at called
    refine mem_calls (List.mem_append_right _ (List.mem_append_left _ ?_)) called
    exact List.mem_map_of_mem (List.mem_append_right _ (List.mem_singleton_self _))

theorem hoist {read : Expr} (holds : known → read.Holds (Allowed outcome.last)) :
    Lowers outcome phase known owed (Lowering.hoist (.run read))
      (fun _ => ∀ function ∈ read.calls, function ∈ outcome.last.calls) fun _ => owed := by
  refine revise (extends_hoist · (.run read)) (fun draft => ?_) fun facts draft leads sound =>
    ⟨sound.hoist (holds facts), hoisted leads sound (holds facts)⟩
  unfold Draft.hoist
  split <;> rfl

theorem addTimer {timer : Timer} (fits : known → timer.body.Fits outcome.last) :
    Lowers outcome phase known owed (Lowering.addTimer timer)
      (fun _ => ∀ function ∈ timer.body.calls, function ∈ outcome.last.calls) fun _ => owed := by
  have added (facts : Prop) (imp : facts → known) : Lowers outcome phase facts owed
      (Lowering.modifyDraft (Draft.addTimer timer))
      (fun _ => ∀ function ∈ timer.body.calls, function ∈ outcome.last.calls) fun _ => owed := by
    refine revise (extends_addTimer · timer) (fun _ => rfl) fun facts draft leads sound =>
      ⟨sound.addTimer (fits (imp facts)), fun function called => leads.calls ?_⟩
    exact mem_calls (by simp [kept, Draft.addTimer]) called
  exact getDraft.bind fun _ => (added _ And.left).bind fun _ => .pure (fun facts => facts.2) fun _ _ => .inl

theorem addButton {body : Code} (fits : known → body.Fits outcome.last) :
    Lowers outcome phase known owed (Lowering.addButton body)
      (fun _ => ∀ function ∈ body.calls, function ∈ outcome.last.calls) fun _ => owed := by
  have added (facts : Prop) (imp : facts → known) : Lowers outcome phase facts owed
      (Lowering.modifyDraft (Draft.addButton body))
      (fun _ => ∀ function ∈ body.calls, function ∈ outcome.last.calls) fun _ => owed := by
    refine revise (extends_addButton · body) (fun _ => rfl) fun facts draft leads sound =>
      ⟨sound.addButton (fits (imp facts)), fun function called => leads.calls ?_⟩
    exact mem_calls (by simp [kept, Draft.addButton]) called
  exact getDraft.bind fun _ => (added _ And.left).bind fun _ => .pure (fun facts => facts.2) fun _ _ => .inl

theorem addManifest (manifest : Manifest) : Lowers outcome phase known owed
    (Lowering.modifyDraft (Draft.addManifest manifest)) (fun _ => True) fun _ => owed :=
  revise (extends_addManifest · manifest) (fun _ => rfl) fun _ _ _ sound => ⟨{ sound with }, trivial⟩

theorem append {part : Phase} {code : Code} (isSection : part ∈ [.setup, .draw, .input, .loop])
    (fits : known → code.Fits outcome.last) :
    Lowers outcome phase known owed (Lowering.modifyDraft (Draft.append part code))
      (fun _ => ∀ function ∈ code.calls, function ∈ outcome.last.calls) fun _ => owed := by
  refine revise (extends_append · part code) (fun draft => ?_) fun facts draft leads sound =>
    ⟨sound.append (fits facts) part, fun function called => leads.calls ?_⟩
  · cases part <;> rfl
  · have longer (before : Code) : function ∈ (before ++ code).calls := by
      rw [C.Code.calls_append]
      exact List.mem_append_right _ called
    simp only [List.mem_cons, List.not_mem_nil, or_false] at isSection
    rcases isSection with rfl | rfl | rfl | rfl
    · exact mem_calls (by simp [kept, Draft.append]) (longer draft.setup)
    · exact mem_calls (by simp [kept, Draft.append]) (longer draft.draw)
    · exact mem_calls (by simp [kept, Draft.append]) (longer draft.input)
    · exact mem_calls (by simp [kept, Draft.append]) (longer draft.loop)

theorem within {action : Lowering α} (step : Step)
    (lowers : Lowers outcome phase known owed action post owes) :
    Lowers outcome phase known owed (Lowering.within step action) post owes :=
  fun before inPhase => lowers { before with steps := step :: before.steps } inPhase

theorem inPhase {action : Lowering α} {inner : Phase}
    (lowers : Lowers outcome inner known owed action post owes) :
    Lowers outcome phase known owed (Lowering.inPhase inner action) post owes := by
  intro before inPhase
  obtain ⟨grows, _, ends⟩ := lowers { before with phase := inner } rfl
  exact ⟨grows, inPhase, ends⟩

theorem tentatively {action : Lowering β} {test : β → Option α} {mid : β → Prop}
    {between : β → List String} {post : Option α → Prop} {owes : Option α → List String}
    (lowers : Lowers outcome phase known owed action mid between)
    (passes : ∀ b a, test b = some a → known → mid b → post (some a) ∧
      ∀ function ∈ between b, outcome.Accounts (owes (some a)) function)
    (fails : known → post none ∧ ∀ function ∈ owed, outcome.Accounts (owes none) function) :
    Lowers outcome phase known owed (Lowering.tentatively (do return test (← action))) post owes := by
  intro before inPhase
  obtain ⟨grows, stays, ends⟩ := lowers before inPhase
  have run : Lowering.tentatively (do return test (← action)) before =
      (if (test (action before).1).isNone = true then
        Lowering.modifyDraft (fun _ => before.draft) >>= fun _ => Pure.pure (test (action before).1)
      else Pure.pure (test (action before).1) : Lowering (Option α)) (action before).2 := rfl
  rw [run]
  cases found : test (action before).1 with
  | none =>
    -- The old draft is back, so that no feature of the action needs a caller.
    rw [if_pos Option.isNone_none]
    refine ⟨.refl _, stays, fun _ facts sound => ?_⟩
    exact ⟨sound, (fails facts).1, fun serves => serves.imp (fails facts).2⟩
  | some a =>
    rw [Option.isNone_some, if_neg Bool.false_ne_true]
    refine ⟨grows, stays, fun leads facts sound => ?_⟩
    have gives := ends leads facts sound
    obtain ⟨holds, accounts⟩ := passes _ a found facts gives.post
    exact ⟨gives.sound, holds, fun serves => (gives.serves serves).imp accounts⟩

end Lowers

end FlipperBlocks
