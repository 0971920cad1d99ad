import FlipperBlocks.Proofs.Draft.Extension
import FlipperBlocks.Proofs.Lowering.Vocabulary

/-! The code that a draft keeps, and when a draft is sound.

Soundness is judged by the last draft of the compilation, because some of what code needs is enabled
or declared only after the code has been lowered. -/
namespace FlipperBlocks

open C (Code Expr Line)
open C.Identifier (isIdentifier)

/-- Code that is made of allowed words and closes all brackets that it opens. -/
structure C.Code.Fits (last : Draft) (code : Code) : Prop where
  holds : code.Holds (Allowed last)
  balanced : code.Balanced

namespace C.Code.Fits

variable {last : Draft}

theorem nil : Fits last [] := ⟨holds_nil, .nil⟩

theorem append {a b : Code} (first : a.Fits last) (second : b.Fits last) : (a ++ b).Fits last :=
  ⟨holds_append.2 ⟨first.holds, second.holds⟩, first.balanced.append second.balanced⟩

theorem line {line : Line} (whole : line.isWhole = true) (holds : line.Holds (Allowed last)) :
    (Code.line line).Fits last :=
  ⟨holds_line.2 holds, .line whole⟩

theorem run {action : Expr} (holds : action.Holds (Allowed last)) : (Code.run action).Fits last :=
  line rfl holds

theorem comment (text : String) : (Code.comment text).Fits last := line rfl trivial

theorem cons {line : Line} {lines : List Line} (whole : line.isWhole = true)
    (holds : line.Holds (Allowed last)) (rest : (ofLines lines).Fits last) :
    (ofLines (line :: lines)).Fits last :=
  append (Fits.line whole holds) rest

theorem braced {opening : Line} {body : Code} (opens : opening.isOpening = true)
    (holds : opening.Holds (Allowed last)) (fits : body.Fits last) :
    (Code.braced opening body).Fits last := by
  refine ⟨?_, fits.balanced.braced opens⟩
  simp only [Code.braced, holds_append, holds_line, holds_indent]
  exact ⟨⟨holds, fits.holds⟩, trivial⟩

theorem framed {opening : Line} {body : Code} (opens : opening.isOpening = true)
    (holds : opening.Holds (Allowed last)) (fits : body.Fits last) :
    (Code.framed opening body).Fits last := by
  refine ⟨?_, fits.balanced.framed opens⟩
  simp only [Code.framed, holds_append, holds_line, holds_inset]
  exact ⟨⟨holds, fits.holds⟩, trivial⟩

theorem spelled {code : Code} (fits : code.Fits last) : code.Holds C.Atom.Spelled :=
  fits.holds.imp fun _ => Allowed.spelled

end C.Code.Fits

structure Value.Fits (last : Draft) (value : Value) : Prop where
  holds : value.expr.Holds (Allowed last)
  array : ∀ name, value.array = some name → isIdentifier name = true

theorem Value.Fits.of_holds {last : Draft} {expr : Expr} (kind : ValueKind)
    (holds : expr.Holds (Allowed last)) : Value.Fits last ⟨expr, kind, none⟩ :=
  ⟨holds, nofun⟩

structure Storage.Fits (last : Draft) (storage : Storage) : Prop where
  named : isIdentifier storage.name = true
  declared : storage ∈ last.storage

namespace Draft

variable {draft : Draft}

theorem view_dispatcher_mem_members : "view_dispatcher" ∈ draft.members := by simp [members]

theorem widget_mem_members : "widget" ∈ draft.members := by simp [members]

theorem notif_mem_members (has : draft.features.has .notifications = true) : "notif" ∈ draft.members := by
  simp [members, has]

theorem name_mem_members {storage : Storage} (declared : storage ∈ draft.storage)
    (scope : storage.scope = .application) : storage.name ∈ draft.members := by
  refine List.mem_append_right _ (List.mem_map_of_mem (List.mem_filter.2 ⟨declared, ?_⟩))
  exact decide_eq_true scope

end Draft

theorem PinSetup.fits (last : Draft) (setup : PinSetup) : (Code.line setup.line).Fits last := by
  refine .run ⟨⟨[], by simp [vocabulary], by simp⟩, ⟨fun _ => rfl, ?_⟩, ?_, ?_, ?_, trivial⟩
  · change isIdentifier setup.pin.object = true
    cases setup.pin <;> decide
  · change isIdentifier setup.mode.symbol = true
    cases setup.mode <;> decide
  · change isIdentifier setup.pull.symbol = true
    cases setup.pull <;> decide
  · change isIdentifier "GpioSpeedVeryHigh" = true
    decide

namespace Draft

def kept (draft : Draft) : List Code :=
  draft.setups.map (fun setup => Code.line setup.line) ++ (draft.beforeDraw.map Code.line ++
    ([draft.setup, draft.draw, draft.input, draft.loop] ++ (draft.timers.map Timer.body ++ draft.buttons)))

section

variable {draft : Draft} {other : Code}

theorem mem_kept_addSetup {setup : PinSetup} (member : other ∈ (draft.addSetup setup).kept) :
    other ∈ draft.kept ∨ other = Code.line setup.line := by
  simp only [kept, addSetup, List.map_append, List.mem_append, List.map_singleton, List.mem_singleton]
    at member ⊢
  grind

theorem mem_kept_hoist {line : Line} (member : other ∈ (draft.hoist line).kept) :
    other ∈ draft.kept ∨ other = Code.line line := by
  unfold hoist at member
  split at member
  · exact .inl member
  · simp only [kept, List.map_append, List.mem_append, List.map_singleton, List.mem_singleton] at member ⊢
    grind

theorem mem_kept_addTimer {timer : Timer} (member : other ∈ (draft.addTimer timer).kept) :
    other ∈ draft.kept ∨ other = timer.body := by
  simp only [kept, addTimer, List.map_append, List.mem_append, List.map_singleton, List.mem_singleton]
    at member ⊢
  grind

theorem mem_kept_addButton {body : Code} (member : other ∈ (draft.addButton body).kept) :
    other ∈ draft.kept ∨ other = body := by
  simp only [kept, addButton, List.mem_append, List.mem_singleton] at member ⊢
  grind

theorem mem_kept_append {part : Phase} {code : Code} (member : other ∈ (draft.append part code).kept) :
    other ∈ draft.kept ∨ ∃ old ∈ draft.kept, other = old ++ code := by
  cases part <;>
    simp only [kept, append, List.mem_append, List.mem_cons, List.not_mem_nil, or_false] at member ⊢ <;>
    grind

end

def calls (draft : Draft) : List String := draft.kept.flatMap Code.calls

theorem mem_calls {draft : Draft} {code : Code} (member : code ∈ draft.kept) {function : String}
    (called : function ∈ code.calls) : function ∈ draft.calls :=
  List.mem_flatMap.2 ⟨code, member, called⟩

private theorem calls_of_longer {a b : Code} (grown : a <+: b) {function : String}
    (called : function ∈ a.calls) : function ∈ b.calls := by
  obtain ⟨more, rfl⟩ := grown
  rw [Code.calls_append]
  exact List.mem_append_left _ called

theorem Extends.calls {a b : Draft} (grown : a.Extends b) {function : String}
    (called : function ∈ a.calls) : function ∈ b.calls := by
  obtain ⟨code, member, inside⟩ := List.mem_flatMap.1 called
  simp only [kept, List.mem_append, List.mem_map, List.mem_cons, List.not_mem_nil, or_false] at member
  have stays (same : code ∈ b.kept) : function ∈ b.calls := mem_calls same inside
  have longer {later : Code} (there : later ∈ b.kept) (grew : code <+: later) :
      function ∈ b.calls := mem_calls there (calls_of_longer grew inside)
  rcases member with ⟨setup, there, rfl⟩ | ⟨line, there, rfl⟩ | (rfl | rfl | rfl | rfl) |
    ⟨timer, there, rfl⟩ | there
  · refine stays (List.mem_append_left _ ?_)
    exact List.mem_map_of_mem (grown.setups.subset there)
  · refine stays (List.mem_append_right _ (List.mem_append_left _ ?_))
    exact List.mem_map_of_mem (grown.beforeDraw.subset there)
  · exact longer (by simp [kept]) grown.setup
  · exact longer (by simp [kept]) grown.draw
  · exact longer (by simp [kept]) grown.input
  · exact longer (by simp [kept]) grown.loop
  · have member := List.mem_map_of_mem (f := Timer.body) (grown.timers.subset there)
    exact stays (by simp only [kept, List.mem_append, member, true_or, or_true])
  · exact stays (by simp [kept, grown.buttons.subset there])

/-- A draft whose names can be read, whose code fits the last draft, and whose features find there
what they require. -/
structure Sound (draft last : Draft) : Prop where
  closed : ∀ feature, draft.features.has feature = true →
    ∀ other ∈ feature.requires, last.features.has other = true
  outputs : draft.pwm ≠ [] → last.features.has .pwm = true
  storage : ∀ storage ∈ draft.storage, isIdentifier storage.name = true
  slots : ∀ key name, draft.slots.get? key = some name → isIdentifier name = true
  beforeDraw : ∀ line ∈ draft.beforeDraw, ∃ read : Expr, line = .run read ∧
    read.Holds (Allowed last)
  setup : draft.setup.Fits last
  draw : draft.draw.Fits last
  input : draft.input.Fits last
  loop : draft.loop.Fits last
  timers : ∀ timer ∈ draft.timers, timer.body.Fits last
  buttons : ∀ body ∈ draft.buttons, body.Fits last

namespace Sound

variable {draft last : Draft}

theorem empty (last : Draft) : Sound {} last where
  closed feature has := by simp at has
  outputs nonempty := absurd rfl nonempty
  storage _ member := nomatch member
  slots _ _ found := nomatch found
  beforeDraw _ member := nomatch member
  setup := .nil
  draw := .nil
  input := .nil
  loop := .nil
  timers _ member := nomatch member
  buttons _ member := nomatch member

variable (sound : draft.Sound last)

include sound

theorem kept : ∀ code ∈ draft.kept, code.Fits last := by
  intro code member
  simp only [Draft.kept, List.mem_append, List.mem_map, List.mem_cons, List.not_mem_nil, or_false] at member
  rcases member with ⟨setup, _, rfl⟩ | ⟨line, there, rfl⟩ | (rfl | rfl | rfl | rfl) |
    ⟨timer, there, rfl⟩ | there
  · exact setup.fits last
  · obtain ⟨read, rfl, holds⟩ := sound.beforeDraw line there
    exact .run holds
  · exact sound.setup
  · exact sound.draw
  · exact sound.input
  · exact sound.loop
  · exact sound.timers timer there
  · exact sound.buttons code there

theorem lookup (leads : draft.Extends last) {name : String}
    {storage : Storage} (found : draft.lookup? name = some storage) : storage.Fits last :=
  have member := mem_of_lookup? found
  ⟨sound.storage storage member, leads.storage.subset member⟩

theorem enable {list : List Feature}
    (closed : ∀ feature ∈ list, ∀ other ∈ feature.requires, last.features.has other = true) :
    (draft.enable list).Sound last :=
  { sound with
    closed := fun feature has => by
      rw [Draft.enable, Features.has_foldl_insert, Bool.or_eq_true, decide_eq_true_eq] at has
      exact has.elim (sound.closed feature) (closed feature) }

theorem declare {storage : Storage}
    (named : isIdentifier storage.name = true) : (draft.declare storage).Sound last := by
  unfold Draft.declare
  split
  · exact sound
  · refine { sound with storage := fun other member => ?_ }
    rcases List.mem_append.1 member with old | new
    · exact sound.storage other old
    · rw [List.mem_singleton.1 new]
      exact named

theorem rememberSlot {name : String} (named : isIdentifier name = true) (key : String) :
    (draft.rememberSlot key name).Sound last := by
  refine { sound with slots := fun other found same => ?_ }
  rw [Draft.rememberSlot, Entries.get?_put] at same
  split at same
  · injection same with same
    rw [← same]
    exact named
  · exact sound.slots other found same

theorem usePwm (has : last.features.has .pwm = true)
    (output : PwmOutput) : (draft.usePwm output).Sound last := by
  unfold Draft.usePwm
  split
  · exact sound
  · exact { sound with outputs := fun _ => has }

theorem hoist {read : Expr} (holds : read.Holds (Allowed last)) : (draft.hoist (.run read)).Sound last := by
  unfold Draft.hoist
  split
  · exact sound
  · refine { sound with beforeDraw := fun other member => ?_ }
    rcases List.mem_append.1 member with old | new
    · exact sound.beforeDraw other old
    · exact ⟨read, List.mem_singleton.1 new, holds⟩

theorem addTimer {timer : Timer} (fits : timer.body.Fits last) : (draft.addTimer timer).Sound last := by
  refine { sound with timers := fun other member => ?_ }
  rcases List.mem_append.1 member with old | new
  · exact sound.timers other old
  · rw [List.mem_singleton.1 new]
    exact fits

theorem addButton {body : Code} (fits : body.Fits last) : (draft.addButton body).Sound last := by
  refine { sound with buttons := fun other member => ?_ }
  rcases List.mem_append.1 member with old | new
  · exact sound.buttons other old
  · rw [List.mem_singleton.1 new]
    exact fits

theorem append {code : Code} (fits : code.Fits last)
    (phase : Phase) : (draft.append phase code).Sound last := by
  cases phase with
  | setup => exact { sound with setup := sound.setup.append fits }
  | draw => exact { sound with draw := sound.draw.append fits }
  | input => exact { sound with input := sound.input.append fits }
  | loop => exact { sound with loop := sound.loop.append fits }
  | timer | button | detached => exact sound

end Sound

end Draft

end FlipperBlocks
