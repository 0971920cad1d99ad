import FlipperBlocks.Proofs.Draft.Table

/-! What a draft tells stays told.

Besides the lists that a draft holds there are the answers that it gives: the storage of a name, the mode
of a pin, the name that a slot stands for, and the numbers that are used up. No move takes one back. -/
namespace FlipperBlocks

namespace Draft

variable {names more : List String} {a b c : Draft}

/-- What the first draft answers, the second one answers too, and no counter has gone back. -/
structure Settles (a b : Draft) : Prop where
  declared : ∀ name storage, a.lookup? name = some storage → b.lookup? name = some storage
  pins : ∀ pin mode, a.mode? pin = some mode → b.mode? pin = some mode
  slots : ∀ key name, a.slots.get? key = some name → b.slots.get? key = some name
  counters : ∀ stem number, a.counters.get? stem = some number →
    ∃ next, b.counters.get? stem = some next ∧ number ≤ next

theorem Settles.refl (draft : Draft) : draft.Settles draft where
  declared _ _ found := found
  pins _ _ found := found
  slots _ _ found := found
  counters _ number found := ⟨number, found, Nat.le_refl _⟩

theorem Settles.trans (first : a.Settles b) (second : b.Settles c) : a.Settles c where
  declared name storage found := second.declared name storage (first.declared name storage found)
  pins pin mode found := second.pins pin mode (first.pins pin mode found)
  slots key name found := second.slots key name (first.slots key name found)
  counters stem number found := by
    obtain ⟨middle, between, least⟩ := first.counters stem number found
    obtain ⟨next, last, further⟩ := second.counters stem middle between
    exact ⟨next, last, Nat.le_trans least further⟩

theorem Extends.mode (grown : a.Extends b) {pin : Pin} {mode : PinMode}
    (found : a.mode? pin = some mode) : b.mode? pin = some mode := by
  obtain ⟨added, whole⟩ := grown.pins
  unfold mode? at found ⊢
  rw [← whole, List.lookup_append, found]
  rfl

private theorem Move.slots (move : Move names a b) {key name : String}
    (found : a.slots.get? key = some name) : b.slots.get? key = some name := by
  cases move.grows with
  | same _ _ slots => rw [slots, found]
  | more _ _ _ origin =>
    generalize b.slots = after at origin
    cases origin with
    | written _ _ _ => exact found
    | generated _ _ => exact found
    | @slot taken _ unused =>
      have other : key ≠ taken := by
        rintro rfl
        rw [unused] at found
        contradiction
      rw [Entries.get?_put, if_neg other, found]

private theorem counters_declare (draft : Draft) (storage : Storage) :
    (draft.declare storage).counters = draft.counters := by
  unfold declare
  split <;> rfl

private theorem Move.counters (move : Move names a b) {stem : String} {number : Nat}
    (found : a.counters.get? stem = some number) :
    ∃ next, b.counters.get? stem = some next ∧ number ≤ next := by
  have same (equal : b.counters = a.counters) :
      ∃ next, b.counters.get? stem = some next ∧ number ≤ next :=
    ⟨number, by rw [equal, found], Nat.le_refl _⟩
  cases move with
  | count counted =>
    unfold advance
    rw [Entries.get?_put]
    split
    · rename_i equal
      rw [equal] at found
      have least := (a.isLeast_freshNumber counted).1.1
      rw [found, Option.getD_some] at least
      exact ⟨_, rfl, Nat.le_succ_of_le least⟩
    · exact ⟨number, found, Nat.le_refl _⟩
  | resolve _ _ _ | array _ _ _ _ | slot _ _ _ | state _ => exact same (counters_declare a _)
  | usePwm _ | hoist _ =>
    refine same ?_
    simp only [Draft.usePwm, Draft.hoist]
    split <;> rfl
  | append phase code => cases phase <;> exact same rfl
  | _ => exact same rfl

theorem Move.settles (move : Move names a b) : a.Settles b where
  declared _ _ found := move.extends.lookup found
  pins _ _ found := move.extends.mode found
  slots _ _ found := move.slots found
  counters _ _ found := move.counters found

theorem Moves.settles (moves : Moves names a b) : a.Settles b := by
  induction moves with
  | refl => exact .refl a
  | tail _ move settled => exact settled.trans move.settles

/-! Moves of a program with more variables. -/

private theorem Move.mono (move : Move names a b) (fewer : names ⊆ more) : Move more a b := by
  cases move with
  | resolve usable listed asText => exact .resolve usable (fewer listed) asText
  | enable features => exact .enable features
  | count stem => exact .count stem
  | array generated free length initial => exact .array generated free length initial
  | slot generated free unused => exact .slot generated free unused
  | state remembered => exact .state remembered
  | usePin mode free => exact .usePin mode free
  | configurePin free => exact .configurePin free
  | usePwm output => exact .usePwm output
  | hoist read => exact .hoist read
  | addTimer timer => exact .addTimer timer
  | addButton body => exact .addButton body
  | addManifest head => exact .addManifest head
  | append phase code => exact .append phase code

theorem Moves.mono (moves : Moves names a b) (fewer : names ⊆ more) : Moves more a b := by
  induction moves with
  | refl => exact .refl a
  | tail _ move before => exact before.trans (.single (move.mono fewer))

/-- A draft that lowering can come to, whatever the variables are. -/
def Reached (draft : Draft) : Prop := ∃ names, Moves names {} draft

end Draft

end FlipperBlocks
