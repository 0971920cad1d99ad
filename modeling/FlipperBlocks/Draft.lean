import FlipperBlocks.Board
import FlipperBlocks.Feature
import FlipperBlocks.Manifest
import FlipperBlocks.Storage

/-! Drafts: everything a program has been found to need so far. -/
namespace FlipperBlocks

/-- The parts of an application, which run at different times. -/
inductive Phase where
  | setup
  | draw
  | input
  | loop
  | timer
  | button
  /-- Outside of any part. -/
  | detached
  deriving DecidableEq

def Phase.describe : Phase → String
  | setup => "setup"
  | draw => "draw"
  | input => "input"
  | loop => "loop"
  | timer => "timer"
  | button => "button"
  | detached => "detached"

/-- A body that runs again and again. -/
structure Timer where
  milliseconds : Nat
  body : C.Code

/-- Nothing is noted where nothing stands. -/
theorem Storage.placed_nil (name : String) (place : Nat) (noted : Entries.get? [] name = some place) :
    (([] : List Storage)[place]?).map Storage.name = some name := by
  rw [Entries.get?_nil] at noted
  contradiction

structure Draft where
  features : Features := .empty
  storage : List Storage := []
  /-- The places of storage by its name. -/
  places : Entries Nat := []
  /-- A place that is noted can be looked up: storage of that name stands there. -/
  placed : ∀ name place, places.get? name = some place →
    (storage[place]?).map Storage.name = some name := by exact Storage.placed_nil
  pins : List (Pin × PinMode) := []
  setups : List PinSetup := []
  pwm : List PwmOutput := []
  /-- Actions to take before every drawing. -/
  beforeDraw : List C.Line := []
  /-- Names of storage by the text that tells what it is for. -/
  slots : Entries String := []
  timers : List Timer := []
  buttons : List C.Code := []
  manifests : List Manifest := []
  setup : C.Code := []
  draw : C.Code := []
  input : C.Code := []
  loop : C.Code := []
  /-- The numbers to go on with, by the stem of the names. They are not bounded: a program would need
  more than four thousand million blocks to reach the end of a machine word. -/
  counters : Entries Nat := []

namespace Draft

def enable (features : List Feature) (draft : Draft) : Draft :=
  { draft with features := features.foldl Features.insert draft.features }

def lookup? (draft : Draft) (name : String) : Option Storage :=
  (draft.places.get? name).bind (draft.storage[·]?)

variable {draft : Draft} {name : String} {storage : Storage}

theorem place_lt {place : Nat}
    (noted : draft.places.get? name = some place) : place < draft.storage.length := by
  obtain ⟨_, stands, _⟩ := Option.map_eq_some_iff.1 (draft.placed name place noted)
  exact (List.getElem?_eq_some_iff.1 stands).1

theorem placed_append (draft : Draft) (storage : Storage) (name : String) (place : Nat)
    (noted : (draft.places.put storage.name draft.storage.length).get? name = some place) :
    ((draft.storage ++ [storage])[place]?).map Storage.name = some name := by
  rw [Entries.get?_put] at noted
  split at noted
  · rename_i same
    injection noted with last
    simp [← last, same]
  · rw [List.getElem?_append_left (place_lt noted)]
    exact draft.placed name place noted

/-- Declares storage under a name that has none, and notes its place. -/
def declare (storage : Storage) (draft : Draft) : Draft :=
  match draft.places.get? storage.name with
  | some _ => draft
  | none => { draft with
      storage := draft.storage ++ [storage]
      places := draft.places.put storage.name draft.storage.length
      placed := draft.placed_append storage }

def numbered (stem : String) (number : Nat) : String := stem ++ "_" ++ toString number

/-- The first number from the given one on whose name is free, looking at as many numbers as the
fuel says. -/
def firstFree (draft : Draft) (stem : String) : Nat → Nat → Nat
  | 0, number => number
  | fuel + 1, number =>
    if draft.places.has (numbered stem number) then firstFree draft stem fuel (number + 1)
    else number

/-- The number of the next free name made from a stem. Among as many names as there are
declarations, and one more, some name is free. -/
def freshNumber (draft : Draft) (stem : String) : Nat :=
  draft.firstFree stem draft.storage.length ((draft.counters.get? stem).getD 0)

/-- Passes over the numbers of a stem up to the given one. -/
def advance (stem : String) (number : Nat) (draft : Draft) : Draft :=
  { draft with counters := draft.counters.put stem (number + 1) }

def mode? (draft : Draft) (pin : Pin) : Option PinMode := draft.pins.lookup pin

def usePin (pin : Pin) (mode : PinMode) (draft : Draft) : Draft :=
  { draft with pins := draft.pins ++ [(pin, mode)] }

def addSetup (setup : PinSetup) (draft : Draft) : Draft := { draft with setups := draft.setups ++ [setup] }

def usePwm (output : PwmOutput) (draft : Draft) : Draft :=
  if draft.pwm.contains output then draft else { draft with pwm := draft.pwm ++ [output] }

/-- Adds an action to take before every drawing, unless one with the same text is there. -/
def hoist (line : C.Line) (draft : Draft) : Draft :=
  if draft.beforeDraw.any fun other => other.text == line.text then draft
  else { draft with beforeDraw := draft.beforeDraw ++ [line] }

def rememberSlot (key name : String) (draft : Draft) : Draft :=
  { draft with slots := draft.slots.put key name }

def addTimer (timer : Timer) (draft : Draft) : Draft := { draft with timers := draft.timers ++ [timer] }

def addButton (body : C.Code) (draft : Draft) : Draft := { draft with buttons := draft.buttons ++ [body] }

def addManifest (manifest : Manifest) (draft : Draft) : Draft :=
  { draft with manifests := draft.manifests ++ [manifest] }

/-- Adds code to the section of a phase; phases that are no section of the application take none. -/
def append (phase : Phase) (code : C.Code) (draft : Draft) : Draft :=
  match phase with
  | .setup => { draft with setup := draft.setup ++ code }
  | .draw => { draft with draw := draft.draw ++ code }
  | .input => { draft with input := draft.input ++ code }
  | .loop => { draft with loop := draft.loop ++ code }
  | .timer | .button | .detached => draft

theorem lookup?_eq_some_iff : draft.lookup? name = some storage ↔
      ∃ place, draft.places.get? name = some place ∧ draft.storage[place]? = some storage :=
  Option.bind_eq_some_iff

/-- A name without storage is one whose place is not noted. -/
theorem lookup?_eq_none : draft.lookup? name = none ↔ draft.places.get? name = none := by
  refine ⟨fun missing => ?_, fun free => by rw [lookup?, free]; rfl⟩
  cases noted : draft.places.get? name with
  | none => rfl
  | some place =>
    have stands := draft.placed name place noted
    rw [lookup?, noted, Option.bind_some] at missing
    rw [missing] at stands
    contradiction

theorem name_of_lookup? (found : draft.lookup? name = some storage) : storage.name = name := by
  obtain ⟨place, noted, stands⟩ := lookup?_eq_some_iff.1 found
  have named := draft.placed name place noted
  rw [stands] at named
  exact Option.some.inj named

theorem mem_of_lookup? (found : draft.lookup? name = some storage) : storage ∈ draft.storage := by
  obtain ⟨_, _, stands⟩ := lookup?_eq_some_iff.1 found
  exact List.mem_of_getElem? stands

theorem declare_of_free (free : draft.lookup? storage.name = none) :
    draft.declare storage = { draft with
      storage := draft.storage ++ [storage]
      places := draft.places.put storage.name draft.storage.length
      placed := draft.placed_append storage } := by
  unfold declare
  split
  · rename_i place noted
    rw [lookup?_eq_none.1 free] at noted
    contradiction
  · rfl

theorem declare_of_declared {old : Storage}
    (found : draft.lookup? storage.name = some old) : draft.declare storage = draft := by
  obtain ⟨place, noted, _⟩ := lookup?_eq_some_iff.1 found
  unfold declare
  rw [noted]

theorem lookup?_declare (storage : Storage) (draft : Draft) (name : String) :
    (draft.declare storage).lookup? name =
      (draft.lookup? name).or (if storage.name = name then some storage else none) := by
  cases found : draft.lookup? storage.name with
  | some old =>
    rw [declare_of_declared found]
    by_cases same : storage.name = name
    · rw [← same, found, Option.some_or]
    · rw [if_neg same, Option.or_none]
  | none =>
    rw [declare_of_free found, lookup?, Entries.get?_put]
    split
    · rename_i same
      rw [same, found, if_pos rfl]
      simp
    · rename_i other
      rw [if_neg (Ne.symm other), Option.or_none, lookup?]
      cases noted : draft.places.get? name with
      | none => rfl
      | some place => exact List.getElem?_append_left (place_lt noted)

end Draft

end FlipperBlocks
