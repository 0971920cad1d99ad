import FlipperBlocks.Draft

/-! Drafts only grow.

What a draft holds, a later one holds too, in the same order: features, storage, pins, outputs and all
code that has been kept. -/
namespace FlipperBlocks

namespace Features

theorem has_foldl_insert (list : List Feature) (features : Features) (feature : Feature) :
    (list.foldl insert features).has feature = (features.has feature || decide (feature ∈ list)) := by
  induction list generalizing features with
  | nil => simp
  | cons first rest ih =>
    rw [List.foldl_cons, ih, has_insert]
    simp [Bool.or_assoc]

end Features

namespace Draft

structure Extends (a b : Draft) : Prop where
  features : ∀ feature, a.features.has feature = true → b.features.has feature = true
  storage : a.storage <+: b.storage
  places : ∀ name place, a.places.get? name = some place → b.places.get? name = some place
  pins : a.pins <+: b.pins
  setups : a.setups <+: b.setups
  pwm : a.pwm <+: b.pwm
  beforeDraw : a.beforeDraw <+: b.beforeDraw
  timers : a.timers <+: b.timers
  buttons : a.buttons <+: b.buttons
  manifests : a.manifests <+: b.manifests
  setup : a.setup <+: b.setup
  draw : a.draw <+: b.draw
  input : a.input <+: b.input
  loop : a.loop <+: b.loop

variable {a b c : Draft}

theorem Extends.refl (draft : Draft) : draft.Extends draft := by
  constructor
  case features => exact fun _ has => has
  case places => exact fun _ _ noted => noted
  all_goals exact List.prefix_refl _

theorem Extends.trans (first : a.Extends b) (second : b.Extends c) : a.Extends c where
  features := fun feature has => second.features feature (first.features feature has)
  storage := first.storage.trans second.storage
  places := fun name place noted => second.places name place (first.places name place noted)
  pins := first.pins.trans second.pins
  setups := first.setups.trans second.setups
  pwm := first.pwm.trans second.pwm
  beforeDraw := first.beforeDraw.trans second.beforeDraw
  timers := first.timers.trans second.timers
  buttons := first.buttons.trans second.buttons
  manifests := first.manifests.trans second.manifests
  setup := first.setup.trans second.setup
  draw := first.draw.trans second.draw
  input := first.input.trans second.input
  loop := first.loop.trans second.loop

theorem Extends.lookup (grown : a.Extends b) {name : String} {storage : Storage}
    (found : a.lookup? name = some storage) : b.lookup? name = some storage := by
  obtain ⟨place, noted, stands⟩ := lookup?_eq_some_iff.1 found
  obtain ⟨more, whole⟩ := grown.storage
  refine lookup?_eq_some_iff.2 ⟨place, grown.places name place noted, ?_⟩
  rwa [← whole, List.getElem?_append_left (place_lt noted)]

/-- A name that is free later has been free before. -/
theorem Extends.lookup_none (grown : a.Extends b) {name : String} (free : b.lookup? name = none) :
    a.lookup? name = none := by
  cases found : a.lookup? name with
  | none => rfl
  | some storage =>
    rw [grown.lookup found] at free
    contradiction

section

variable (draft : Draft)

theorem extends_enable (features : List Feature) : draft.Extends (draft.enable features) :=
  { Extends.refl draft with
    features := fun feature has => by
      rw [enable, Features.has_foldl_insert, has]
      rfl }

theorem extends_declare (storage : Storage) : draft.Extends (draft.declare storage) := by
  unfold declare
  split
  · exact Extends.refl draft
  · rename_i free
    refine { Extends.refl draft with storage := List.prefix_append _ _, places := fun name place noted => ?_ }
    rw [Entries.get?_put, if_neg, noted]
    rintro rfl
    rw [noted] at free
    contradiction

theorem extends_advance (stem : String) (number : Nat) : draft.Extends (draft.advance stem number) :=
  { Extends.refl draft with }

theorem extends_rememberSlot (key name : String) : draft.Extends (draft.rememberSlot key name) :=
  { Extends.refl draft with }

theorem extends_usePin (pin : Pin) (mode : PinMode) : draft.Extends (draft.usePin pin mode) :=
  { Extends.refl draft with pins := List.prefix_append _ _ }

theorem extends_addSetup (setup : PinSetup) : draft.Extends (draft.addSetup setup) :=
  { Extends.refl draft with setups := List.prefix_append _ _ }

theorem extends_usePwm (output : PwmOutput) : draft.Extends (draft.usePwm output) := by
  unfold usePwm
  split
  · exact Extends.refl draft
  · exact { Extends.refl draft with pwm := List.prefix_append _ _ }

theorem extends_hoist (line : C.Line) : draft.Extends (draft.hoist line) := by
  unfold hoist
  split
  · exact Extends.refl draft
  · exact { Extends.refl draft with beforeDraw := List.prefix_append _ _ }

theorem extends_addTimer (timer : Timer) : draft.Extends (draft.addTimer timer) :=
  { Extends.refl draft with timers := List.prefix_append _ _ }

theorem extends_addButton (body : C.Code) : draft.Extends (draft.addButton body) :=
  { Extends.refl draft with buttons := List.prefix_append _ _ }

theorem extends_addManifest (manifest : Manifest) : draft.Extends (draft.addManifest manifest) :=
  { Extends.refl draft with manifests := List.prefix_append _ _ }

theorem extends_append (phase : Phase) (code : C.Code) : draft.Extends (draft.append phase code) := by
  cases phase with
  | setup => exact { Extends.refl draft with setup := List.prefix_append _ _ }
  | draw => exact { Extends.refl draft with draw := List.prefix_append _ _ }
  | input => exact { Extends.refl draft with input := List.prefix_append _ _ }
  | loop => exact { Extends.refl draft with loop := List.prefix_append _ _ }
  | timer | button | detached => exact Extends.refl draft

end

end Draft

end FlipperBlocks
