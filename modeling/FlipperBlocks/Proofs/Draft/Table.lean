import FlipperBlocks.Proofs.Draft.Moves

/-! The table of a draft's storage, and where its entries come from.

Storage is made for a variable of the program or for lowering itself. Which of the two it is shows in
its type and in the slots, and stays so. -/
namespace FlipperBlocks

open C.Identifier (Usable)

def StorageType.isVariable : StorageType → Bool
  | int => true
  | text size => size == 256
  | _ => false

theorem Entries.mem_of_get? {α : Type} {entries : Entries α} {name : String} {value : α}
    (found : entries.get? name = some value) : (name, value) ∈ entries := by
  induction entries with
  | nil => contradiction
  | cons entry rest ih =>
    rw [get?_cons] at found
    split at found
    · rename_i same
      injection found with value
      rw [same, ← value]
      exact List.mem_cons_self
    · exact List.mem_cons_of_mem _ (ih found)

theorem Entries.mem_put {α : Type} {entries : Entries α} {name : String} {value : α}
    (unused : entries.get? name = none) {entry : String × α} :
    entry ∈ entries.put name value ↔ entry = (name, value) ∨ entry ∈ entries := by
  induction entries with
  | nil => simp [put]
  | cons first rest ih =>
    obtain ⟨key, old⟩ := first
    rw [get?_cons] at unused
    split at unused
    · contradiction
    · rename_i different
      rw [put]
      split
      · rw [List.mem_cons]
      · rw [List.mem_cons, ih unused, List.mem_cons]
        exact or_left_comm

namespace Draft

/-- Storage that lowering has made for itself: no variable has its type, or a slot tells its name. -/
def Made (draft : Draft) (storage : Storage) : Prop :=
  storage.type.isVariable = false ∨ storage.name ∈ draft.slots.map Prod.snd

inductive Origin (names : List String) (slots : Entries String) (storage : Storage) :
    Entries String → Prop
  | written (usable : Usable storage.name) (listed : storage.name ∈ names)
      (usual : storage.type.isVariable = true) : Origin names slots storage slots
  | generated (name : GeneratedName storage.name) (own : storage.type.isVariable = false) :
      Origin names slots storage slots
  | slot {key : String} (name : GeneratedName storage.name) (unused : slots.get? key = none) :
      Origin names slots storage (slots.put key storage.name)

inductive Grows (names : List String) (a b : Draft) : Prop
  | same (storage : b.storage = a.storage) (places : b.places = a.places) (slots : b.slots = a.slots)
  | more {new : Storage} (free : a.lookup? new.name = none)
      (storage : b.storage = a.storage ++ [new])
      (places : b.places = a.places.put new.name a.storage.length)
      (origin : Origin names a.slots new b.slots)

variable {names : List String} {a b draft : Draft}

private theorem Grows.declare {storage : Storage} (origin : Origin names draft.slots storage draft.slots) :
    Grows names draft (draft.declare storage) := by
  cases found : draft.lookup? storage.name with
  | some old =>
    rw [declare_of_declared found]
    exact .same rfl rfl rfl
  | none =>
    rw [declare_of_free found]
    exact .more found rfl rfl origin

theorem Move.grows (move : Move names a b) : Grows names a b := by
  cases move with
  | resolve usable listed asText =>
    refine .declare (.written usable listed ?_)
    cases asText <;> rfl
  | array generated free length initial => exact .declare (.generated generated rfl)
  | @slot storage key generated free unused =>
    rw [declare_of_free free]
    exact .more free rfl rfl (.slot generated unused)
  | @state output storage remembered =>
    refine .declare (.generated (.state remembered) ?_)
    rcases List.mem_pair.1 remembered with rfl | rfl <;> rfl
  | usePwm output =>
    unfold Draft.usePwm
    split <;> exact .same rfl rfl rfl
  | hoist read =>
    unfold Draft.hoist
    split <;> exact .same rfl rfl rfl
  | append phase code => cases phase <;> exact .same rfl rfl rfl
  | _ => exact .same rfl rfl rfl

/-- A table in which every name stands once and can be used in a program, is noted with its place and
found under itself, and is there if a slot tells it. -/
structure Tabled (draft : Draft) : Prop where
  distinct : (draft.storage.map Storage.name).Nodup
  usable : ∀ storage ∈ draft.storage, Usable storage.name
  placed : ∀ name place,
    draft.places.get? name = some place ↔ (draft.storage[place]?).map Storage.name = some name
  lookup : ∀ name storage,
    draft.lookup? name = some storage ↔ storage ∈ draft.storage ∧ storage.name = name
  slots : ∀ entry ∈ draft.slots, entry.2 ∈ draft.storage.map Storage.name

/-- Storage whose place is noted has a name of its own, and is what the name finds. -/
private theorem Tabled.of_noted (noted : ∀ place storage, draft.storage[place]? = some storage →
      draft.places.get? storage.name = some place) (usable : ∀ storage ∈ draft.storage, Usable storage.name)
    (slots : ∀ entry ∈ draft.slots, entry.2 ∈ draft.storage.map Storage.name) : draft.Tabled where
  distinct := by
    rw [List.nodup_iff_getElem?_ne_getElem?]
    intro first second before inside same
    rw [List.length_map] at inside
    have earlier : first < draft.storage.length := Nat.lt_trans before inside
    rw [List.getElem?_map, List.getElem?_map, List.getElem?_eq_getElem inside,
      List.getElem?_eq_getElem earlier] at same
    have one := noted first _ (List.getElem?_eq_getElem earlier)
    rw [Option.some.inj same, noted second _ (List.getElem?_eq_getElem inside)] at one
    exact Nat.ne_of_gt before (Option.some.inj one)
  usable := usable
  placed name place := by
    refine ⟨draft.placed name place, fun stands => ?_⟩
    obtain ⟨storage, found, rfl⟩ := Option.map_eq_some_iff.1 stands
    exact noted place storage found
  lookup name storage := by
    refine ⟨fun found => ⟨mem_of_lookup? found, name_of_lookup? found⟩, ?_⟩
    rintro ⟨member, rfl⟩
    obtain ⟨place, stands⟩ := List.mem_iff_getElem?.1 member
    exact lookup?_eq_some_iff.2 ⟨place, noted place storage stands, stands⟩
  slots := slots

theorem Tabled.noted (tabled : draft.Tabled) {place : Nat} {storage : Storage}
    (stands : draft.storage[place]? = some storage) : draft.places.get? storage.name = some place :=
  (tabled.placed storage.name place).2 (by rw [stands]; rfl)

theorem Tabled.lookup?_eq_none_iff (tabled : draft.Tabled) {name : String} :
    draft.lookup? name = none ↔ name ∉ draft.storage.map Storage.name := by
  rw [← not_iff_not, not_not]
  refine ⟨name_mem_of_lookup?, fun listed missing => ?_⟩
  obtain ⟨storage, member, same⟩ := List.mem_map.1 listed
  rw [(tabled.lookup name storage).2 ⟨member, same⟩] at missing
  contradiction

theorem Tabled.empty : Tabled {} :=
  .of_noted nofun nofun
    nofun

private theorem Origin.usable {slots after : Entries String} {storage : Storage}
    (origin : Origin names slots storage after) : Usable storage.name := by
  cases origin with
  | written usable _ _ => exact usable
  | generated name _ => exact name.usable
  | slot name _ => exact name.usable

private theorem Origin.mem_slots {slots after : Entries String} {storage : Storage}
    (origin : Origin names slots storage after) {entry : String × String} (member : entry ∈ after) :
    entry ∈ slots ∨ entry.2 = storage.name := by
  cases origin with
  | written _ _ _ => exact .inl member
  | generated _ _ => exact .inl member
  | slot _ unused =>
    rcases (Entries.mem_put unused).1 member with rfl | old
    · exact .inr rfl
    · exact .inl old

theorem Tabled.move (tabled : a.Tabled) (move : Move names a b) : b.Tabled := by
  cases move.grows with
  | same storage places slots =>
    refine .of_noted ?_ (storage ▸ tabled.usable) (slots ▸ storage ▸ tabled.slots)
    rw [storage, places]
    exact fun _ _ => tabled.noted
  | @more new free storage places origin =>
    refine .of_noted ?_ ?_ ?_
    · rw [storage, places]
      intro place other stands
      rw [Entries.get?_put]
      rcases Nat.lt_trichotomy place a.storage.length with inside | rfl | outside
      · rw [List.getElem?_append_left inside] at stands
        rw [if_neg, tabled.noted stands]
        rintro same
        exact tabled.lookup?_eq_none_iff.1 free (same ▸ List.mem_map_of_mem (List.mem_of_getElem? stands))
      · rw [List.getElem?_concat_length] at stands
        rw [Option.some.inj stands, if_pos rfl]
      · rw [List.getElem?_eq_none (by simp; omega)] at stands
        contradiction
    · rw [storage]
      intro other member
      rcases List.mem_append.1 member with old | last
      · exact tabled.usable other old
      · rw [List.mem_singleton.1 last]
        exact origin.usable
    · intro entry member
      rw [storage, List.map_append, List.mem_append]
      rcases origin.mem_slots member with old | same
      · exact .inl (tabled.slots entry old)
      · exact .inr (List.mem_singleton.2 same)

theorem Moves.tabled (moves : Moves names {} b) : b.Tabled := by
  induction moves with
  | refl => exact .empty
  | tail _ move tabled => exact tabled.move move

/-- Storage that lowering made has a name of its own kind, and other storage is a variable's. -/
structure Sorted (names : List String) (draft : Draft) : Prop where
  made : ∀ storage ∈ draft.storage, draft.Made storage → GeneratedName storage.name
  unmade : ∀ storage ∈ draft.storage, ¬ draft.Made storage → storage.name ∈ names

theorem made_iff_of_move (tabled : a.Tabled) (move : Move names a b) {storage : Storage}
    (declared : storage ∈ a.storage) : b.Made storage ↔ a.Made storage := by
  have named : storage.name ∈ a.storage.map Storage.name := List.mem_map_of_mem declared
  unfold Made
  cases move.grows with
  | same _ _ slots => rw [slots]
  | @more new free _ _ origin =>
    generalize b.slots = after at origin
    cases origin with
    | written _ _ _ => rfl
    | generated _ _ => rfl
    | slot _ unused =>
      have other : storage.name ≠ new.name := fun same => tabled.lookup?_eq_none_iff.1 free (same ▸ named)
      simp only [List.mem_map, Entries.mem_put unused, or_and_right, exists_or, exists_eq_left]
      refine or_congr_right (or_iff_right fun same => other same.symm)

private theorem sorted_move (tabled : a.Tabled) (sorted : a.Sorted names) (move : Move names a b) :
    b.Sorted names := by
  have stays {storage : Storage} (declared : storage ∈ a.storage) :
      b.Made storage ↔ a.Made storage := made_iff_of_move tabled move declared
  cases move.grows with
  | same storage _ _ =>
    constructor
    · rw [storage]
      exact fun other member made => sorted.made other member ((stays member).1 made)
    · rw [storage]
      exact fun other member unmade => sorted.unmade other member (mt (stays member).2 unmade)
  | @more new free storage _ origin =>
    have apart : new.name ∉ a.storage.map Storage.name := tabled.lookup?_eq_none_iff.1 free
    have first : (b.Made new → GeneratedName new.name) ∧ (¬ b.Made new → new.name ∈ names) := by
      unfold Made
      generalize b.slots = after at origin
      cases origin with
      | written _ listed usual =>
        refine ⟨fun made => ?_, fun _ => listed⟩
        -- A slot that told the new name would have told it before it was declared.
        rcases made with other | told
        · rw [usual] at other
          contradiction
        · obtain ⟨entry, member, same⟩ := List.mem_map.1 told
          exact absurd (same ▸ tabled.slots entry member) apart
      | generated name own => exact ⟨fun _ => name, fun unmade => absurd (.inl own) unmade⟩
      | @slot key name unused =>
        have told : new.name ∈ (a.slots.put key new.name).map Prod.snd :=
          List.mem_map.2 ⟨_, (Entries.mem_put unused).2 (.inl rfl), rfl⟩
        exact ⟨fun _ => name, fun unmade => absurd (.inr told) unmade⟩
    constructor
    · rw [storage]
      intro other member made
      rcases List.mem_append.1 member with old | last
      · exact sorted.made other old ((stays old).1 made)
      · rw [List.mem_singleton.1 last] at made ⊢
        exact first.1 made
    · rw [storage]
      intro other member unmade
      rcases List.mem_append.1 member with old | last
      · exact sorted.unmade other old (mt (stays old).2 unmade)
      · rw [List.mem_singleton.1 last] at unmade ⊢
        exact first.2 unmade

theorem Sorted.empty : Sorted names {} where
  made _ member := nomatch member
  unmade _ member := nomatch member

theorem Moves.sorted (moves : Moves names {} b) : b.Sorted names := by
  have both : b.Tabled ∧ b.Sorted names := by
    induction moves with
    | refl => exact ⟨.empty, .empty⟩
    | tail _ move kept => exact ⟨kept.1.move move, sorted_move kept.1 kept.2 move⟩
  exact both.2

theorem Moves.made_iff (reached : Moves names {} a) (moves : Moves names a b) {storage : Storage}
    (declared : storage ∈ a.storage) : b.Made storage ↔ a.Made storage := by
  have both : storage ∈ b.storage ∧ (b.Made storage ↔ a.Made storage) := by
    induction moves with
    | refl => exact ⟨declared, Iff.rfl⟩
    | tail first move kept =>
      have tabled := (reached.trans first).tabled
      have stays := move.extends.storage.subset kept.1
      exact ⟨stays, (made_iff_of_move tabled move kept.1).trans kept.2⟩
  exact both.2

end Draft

end FlipperBlocks
