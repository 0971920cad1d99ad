import FlipperBlocks.Proofs.Lowering.Concord

/-! Drafts in which what is read before drawing has been filled.

While drawing, a read is put before the drawing and only its storage is left in the expression. So an
expression may go into another read once all the storage that it names has been filled. -/
namespace FlipperBlocks

open C (Atom Code Expr Line Use)

structure GivenNames where
  ofVariables : List String
  ofSymbols : List String

namespace Draft

def Filled (draft : Draft) (name : String) : Prop := ∃ line ∈ draft.beforeDraw, line.destination? = some name

/-- What may be done with storage in a phase. While drawing, slots are read that have been filled. A
variable
is asked of arrays of bytes. -/
def Permits (names : GivenNames) (phase : Phase) (draft : Draft) : Use → Prop
  | .read name => phase = .draw → SlotName name → name ∈ names.ofVariables ∨ draft.Filled name
  | .fill name text => (name ∈ names.ofVariables ∧ fetchesBlock text = false) ∨
      ∃ read : Read, draft.slots.get? read.key = some name ∧
        (∀ e ∈ read.inputs, e.Holds Atom.Spelled) ∧ text = (read.action name).code
  | .size name => ∃ length initial, draft.lookup? name = some ⟨name, .bytes length initial⟩

def Allows (names : GivenNames) (phase : Phase) (draft : Draft) (use : Use) : Prop :=
  draft.Permits names phase use ∨ ∃ name ∈ names.ofSymbols, use = .read name

end Draft

namespace Draft

/-- The slots that actions read are filled by actions before them. -/
def Ordered (names : GivenNames) (actions : List Line) : Prop :=
  ∀ before line after, actions = before ++ line :: after → ∀ name, .read name ∈ line.uses →
    SlotName name → name ∈ names.ofVariables ∨ ∃ earlier ∈ before, earlier.destination? = some name

structure Supplied (names : GivenNames) (draft : Draft) : Prop where
  reached : Moves names.ofVariables {} draft
  /-- A slot is for a read, and its storage is of the type that the read needs. -/
  slots : ∀ key slot, draft.slots.get? key = some slot → ∃ read : Read, read.key = key ∧
    read.Proper ∧ read.Names slot ∧ draft.lookup? slot = some ⟨slot, read.type⟩
  /-- An action before drawing is a read into its slot. -/
  reads : ∀ line ∈ draft.beforeDraw, ∃ (read : Read) (slot : String),
    line = .run (read.action slot) ∧ read.isDeferred = true ∧
      draft.slots.get? read.key = some slot ∧ (read.action slot).Holds Atom.Spelled
  ordered : Ordered names draft.beforeDraw
  permitted : ∀ code ∈ draft.kept, code.Uses (draft.Permits names .detached)
  /-- What the drawing reads has been filled, unless a variable or a field gives its name. -/
  drawn : draft.draw.Uses (draft.Allows names .draw)

variable {names : GivenNames} {phase : Phase} {a b : Draft}

theorem Filled.stays {name : String} (filled : a.Filled name) (moves : Moves names.ofVariables a b) :
    b.Filled name := by
  obtain ⟨line, member, fills⟩ := filled
  exact ⟨line, moves.extends.beforeDraw.subset member, fills⟩

theorem Permits.stays {use : Use} (permitted : a.Permits names phase use)
    (moves : Moves names.ofVariables a b) : b.Permits names phase use := by
  cases use with
  | read name => exact fun drawing slot => (permitted drawing slot).imp_right (·.stays moves)
  | fill name text =>
    refine permitted.imp_right ?_
    rintro ⟨read, told, rest⟩
    exact ⟨read, moves.settles.slots _ _ told, rest⟩
  | size name =>
    obtain ⟨length, initial, declared⟩ := permitted
    exact ⟨length, initial, moves.settles.declared _ _ declared⟩

theorem Permits.detached {use : Use} (permitted : a.Permits names phase use) :
    a.Permits names .detached use := by
  cases use with
  | read name => exact nofun
  | fill | size => exact permitted

theorem Allows.stays {use : Use} (allowed : a.Allows names phase use)
    (moves : Moves names.ofVariables a b) : b.Allows names phase use :=
  allowed.imp_left (·.stays moves)

@[simp] theorem permits_detached_read {draft : Draft} {name : String} :
    draft.Permits names .detached (.read name) :=
  nofun

theorem Allows.detached {use : Use} (allowed : a.Allows names phase use) : a.Permits names .detached use := by
  rcases allowed with permitted | ⟨name, _, rfl⟩
  · exact permitted.detached
  · exact permits_detached_read

end Draft

def Rules.ready (names : GivenNames) : Rules where
  moves := Draft.Moves names.ofVariables
  isVariable name := name ∈ names.ofVariables
  isSymbol name := name ∈ names.ofSymbols
  atom := Atom.Spelled
  permits phase draft := draft.Permits names phase
  clear := False
  stays moves permitted := permitted.stays moves
  plain := Atom.Plain.spelled
  named _ named := ⟨named, by decide, named⟩
  reads other _ slot := other.elim (absurd slot) .inl
  fills listed other := .inl ⟨listed, other⟩

abbrev C.Expr.Ready (names : GivenNames) (phase : Phase) (draft : Draft) (e : Expr) : Prop :=
  e.Meets ((Rules.ready names).value phase draft)

namespace Draft

variable {names : GivenNames} {phase : Phase} {a b : Draft}

theorem Ordered.append {actions : List Line} {line : Line} (ordered : Ordered names actions)
    (filled : ∀ name, .read name ∈ line.uses → SlotName name →
      name ∈ names.ofVariables ∨ ∃ earlier ∈ actions, earlier.destination? = some name) :
    Ordered names (actions ++ [line]) := by
  intro before next after split name reads slot
  rcases List.eq_nil_or_concat after with rfl | ⟨rest, last, rfl⟩
  · obtain ⟨rfl, same⟩ := List.append_inj' split rfl
    obtain rfl := List.singleton_inj.1 same
    exact filled name reads slot
  · rw [List.concat_eq_append, ← List.cons_append, ← List.append_assoc] at split
    exact ordered before next rest (List.append_inj' split rfl).1 name reads slot

namespace Supplied

theorem empty : Supplied names {} where
  reached := .refl _
  slots _ _ found := nomatch found
  reads _ member := nomatch member
  ordered before line after split := by simp at split
  permitted code member := by
    have nothing : code = [] := by simpa [kept] using member
    rw [nothing]
    exact Code.uses_nil
  drawn := Code.uses_nil

variable (supplied : a.Supplied names)

include supplied

/-- Changes that leave the actions and the slots as they are. -/
theorem of_moves (moves : Moves names.ofVariables a b)
    (beforeDraw : b.beforeDraw = a.beforeDraw) (slots : b.slots = a.slots)
    (kept : ∀ code ∈ b.kept, code ∈ a.kept ∨ code.Uses (a.Permits names .detached))
    (drawn : b.draw = a.draw ∨ b.draw.Uses (a.Allows names .draw)) : b.Supplied names where
  reached := supplied.reached.trans moves
  slots key slot found := by
    rw [slots] at found
    obtain ⟨read, same, proper, named, declared⟩ := supplied.slots key slot found
    exact ⟨read, same, proper, named, moves.settles.declared _ _ declared⟩
  reads := by
    rw [beforeDraw, slots]
    exact supplied.reads
  ordered := beforeDraw ▸ supplied.ordered
  permitted code member := by
    have before : code.Uses (a.Permits names .detached) :=
      (kept code member).elim (supplied.permitted code) id
    exact before.imp fun _ permitted => permitted.stays moves
  drawn := by
    have before : b.draw.Uses (a.Allows names .draw) := drawn.elim (fun same => same ▸ supplied.drawn) id
    exact before.imp fun _ allowed => allowed.stays moves

theorem allot {read : Read} {slot : String} (proper : read.Proper)
    (named : read.Names slot) (free : a.lookup? slot = none) (unused : a.slots.get? read.key = none) :
    let after := (a.declare ⟨slot, read.type⟩).rememberSlot read.key slot
    after.Supplied names ∧ after.slots.get? read.key = some slot ∧
      after.lookup? slot = some ⟨slot, read.type⟩ := by
  intro after
  have moves : Moves names.ofVariables a after :=
    .single (@Move.slot names.ofVariables a ⟨slot, read.type⟩ _ named.generatedName free unused)
  have declared : after.lookup? slot = some ⟨slot, read.type⟩ := by
    change (a.declare ⟨slot, read.type⟩).lookup? slot = _
    rw [lookup?_declare, free, if_pos rfl, Option.none_or]
  have grown : after = _ := congrArg (rememberSlot read.key slot) (@declare_of_free a ⟨slot, read.type⟩ free)
  clear_value after
  subst grown
  have drawn := supplied.drawn.imp fun _ allowed => allowed.stays moves
  refine ⟨⟨supplied.reached.trans moves, ?_, ?_, supplied.ordered, ?_, drawn⟩, ?_, declared⟩
  · intro key other found
    change (a.slots.put read.key slot).get? key = some other at found
    rw [Entries.get?_put] at found
    split at found
    · rename_i same
      injection found with equal
      rw [← equal, same]
      exact ⟨read, rfl, proper, named, declared⟩
    · obtain ⟨known, same, knownProper, knownNames, before⟩ := supplied.slots key other found
      exact ⟨known, same, knownProper, knownNames, moves.settles.declared _ _ before⟩
  · intro line member
    obtain ⟨known, place, same, deferred, told, spelled⟩ := supplied.reads line member
    exact ⟨known, place, same, deferred, moves.settles.slots _ _ told, spelled⟩
  · exact fun code member => (supplied.permitted code member).imp fun _ permitted => permitted.stays moves
  · change (a.slots.put read.key slot).get? read.key = some slot
    rw [Entries.get?_put, if_pos rfl]

/-- Reads with one slot are of one sort, and fill it in one way unless all of their sort share it. -/
theorem alike_of_told {read other : Read} {slot : String}
    (told : a.slots.get? read.key = some slot) (toldToo : a.slots.get? other.key = some slot)
    (spelled : ∀ e ∈ read.inputs, e.Holds Atom.Spelled)
    (spelledToo : ∀ e ∈ other.inputs, e.Holds Atom.Spelled) :
    read.stem = other.stem ∧ read.isShared = other.isShared ∧
      (read.isShared = false → (read.action slot).code = (other.action slot).code) := by
  have keys := supplied.reached.key_eq_of_told told toldToo
  obtain ⟨stem, shared, _⟩ := Read.sort_eq_of_key keys
  exact ⟨stem, shared, fun alone => Read.code_eq_of_key alone spelled spelledToo keys slot⟩

theorem lookup?_of_block {transfer : Lowering.Transfer} {memory : Expr}
    {length : Nat} {array : String} (told : a.slots.get? (Read.block transfer memory length).key = some array)
    (spelled : ∀ e ∈ (Read.block transfer memory length).inputs, e.Holds Atom.Spelled) :
    a.lookup? array = some ⟨array, .bytes length none⟩ ∧ 1 ≤ length ∧ length ≤ 64 := by
  obtain ⟨known, key, proper, _, declared⟩ := supplied.slots _ _ told
  have alike := Read.alike_of_key proper.spelled spelled key
  cases known with
  | block other place size =>
    obtain rfl : size = length := alike.2.2
    exact ⟨declared, proper.sized size rfl⟩
  | _ => exact alike.elim

theorem ready_action {read : Read} {slot : String} (told : a.slots.get? read.key = some slot)
    (ready : ∀ e ∈ read.inputs, e.Ready names phase a) : (read.action slot).Ready names phase a := by
  have spelled : ∀ e ∈ read.inputs, e.Holds Atom.Spelled := fun e member => (ready e member).atoms
  refine ⟨Read.spelled_action_iff.2 ⟨(supplied.reached.generated_of_told told).usable.1, spelled⟩, ?_, False.elim⟩
  exact Read.uses_action (.inr ⟨read, told, spelled, rfl⟩) (fun e member => (ready e member).uses)
    (@Rules.use_pin (.ready names) phase a)

theorem hoist {read : Read} {slot : String}
    (deferred : read.isDeferred = true) (told : a.slots.get? read.key = some slot)
    (ready : ∀ e ∈ read.inputs, e.Ready names .draw a) : (a.hoist (.run (read.action slot))).Supplied names ∧
      (a.hoist (.run (read.action slot))).Filled slot := by
  obtain ⟨whole, uses, _⟩ := supplied.ready_action told ready
  have moves : Moves names.ofVariables a (a.hoist (.run (read.action slot))) := .single (.hoist _)
  unfold Draft.hoist at moves ⊢
  split
  · rename_i present
    -- An action of this text is there, and the text of an action tells what it fills.
    obtain ⟨other, member, same⟩ := List.any_eq_true.1 present
    obtain ⟨known, place, rfl, _, _, knownWhole⟩ := supplied.reads other member
    have code : (known.action place).code = (read.action slot).code :=
      (String.append_left_inj _).1 (eq_of_beq same)
    refine ⟨supplied, _, member, ?_⟩
    rw [← Read.slot_eq_of_code knownWhole whole code]
    exact known.destination?_action place
  · rename_i absent
    rw [if_neg absent] at moves
    have added : Code.Uses (a.Permits names .detached) (Code.line (.run (read.action slot))) :=
      Code.uses_line.2 (uses.imp fun _ => Permits.detached)
    have drawn := supplied.drawn.imp fun _ allowed => allowed.stays moves
    refine ⟨⟨supplied.reached.trans moves, supplied.slots, ?_, supplied.ordered.append ?_, ?_, drawn⟩, ?_⟩
    · intro line member
      rcases List.mem_append.1 member with old | new
      · exact supplied.reads line old
      · exact ⟨read, slot, List.mem_singleton.1 new, deferred, told, whole⟩
    · exact fun name reads slot => uses _ reads rfl slot
    · intro code member
      have before : code ∈ a.kept ∨ code = Code.line (.run (read.action slot)) :=
        mem_kept_hoist (by rwa [Draft.hoist, if_neg absent])
      have permitted : code.Uses (a.Permits names .detached) := by
        rcases before with old | rfl
        · exact supplied.permitted code old
        · exact added
      exact permitted.imp fun _ permitted => permitted.stays moves
    · exact ⟨_, List.mem_append_right _ (List.mem_singleton_self _), read.destination?_action slot⟩

end Supplied

end Draft

end FlipperBlocks
