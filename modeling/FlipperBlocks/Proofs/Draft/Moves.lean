import FlipperBlocks.Proofs.C.Names
import FlipperBlocks.Proofs.Draft.Extension
import Mathlib.Data.List.Nodup
import Mathlib.Data.List.Perm.Subperm
import Mathlib.Logic.Relation
import Mathlib.Order.Bounds.Defs

/-! The moves that lowering makes on a draft.

Whatever a block is lowered into, the draft changes by moves of a few kinds only, so that a fact about
drafts which no move breaks holds in every draft that lowering comes to. -/
namespace FlipperBlocks

open C.Identifier (isIdentifier Usable)

namespace PwmOutput

/-- The storage that remembers the state of an output. -/
def states (output : PwmOutput) : List Storage :=
  [⟨output.stateStem ++ "_freq", .unsigned32⟩, ⟨output.stateStem ++ "_duty", .unsigned8⟩]

end PwmOutput

def generatedStems : List String :=
  ["num_str", "display_buffer", "storage_buffer", "byte_stream", "i2c_reg8", "i2c_reg16",
    "i2c_read_bytes", "dht11_temp", "dht11_hum"]

inductive GeneratedName : String → Prop
  | buffer {name : String} (shared : name ∈ ["display_buffer", "storage_buffer"]) :
      GeneratedName name
  | numbered {stem : String} (listed : stem ∈ generatedStems) (number : Nat) :
      GeneratedName (Draft.numbered stem number)
  | state {output : PwmOutput} {storage : Storage} (remembered : storage ∈ output.states) :
      GeneratedName storage.name

namespace Draft

/-- What one step of lowering does to a draft of a program whose variables have the given names. -/
inductive Move (names : List String) : Draft → Draft → Prop
  | enable {draft : Draft} (features : List Feature) : Move names draft (draft.enable features)
  | resolve {draft : Draft} {name : String} (usable : Usable name) (listed : name ∈ names)
      (asText : Bool) :
      Move names draft (draft.declare ⟨name, if asText then .text 256 else .int⟩)
  | count {draft : Draft} (stem : String) :
      Move names draft (draft.advance stem (draft.freshNumber stem))
  | array {draft : Draft} {name : String} (generated : GeneratedName name)
      (free : draft.lookup? name = none) (length : Nat) (initial : Option (List UInt8)) :
      Move names draft (draft.declare ⟨name, .bytes length initial⟩)
  | slot {draft : Draft} {storage : Storage} {key : String}
      (generated : GeneratedName storage.name) (free : draft.lookup? storage.name = none)
      (unused : draft.slots.get? key = none) :
      Move names draft ((draft.declare storage).rememberSlot key storage.name)
  | state {draft : Draft} {output : PwmOutput} {storage : Storage}
      (remembered : storage ∈ output.states) : Move names draft (draft.declare storage)
  | usePin {draft : Draft} {pin : Pin} (mode : PinMode) (free : draft.mode? pin = none) :
      Move names draft (draft.usePin pin mode)
  | configurePin {draft : Draft} {setup : PinSetup} (free : draft.mode? setup.pin = none) :
      Move names draft ((draft.usePin setup.pin setup.mode).addSetup setup)
  | usePwm {draft : Draft} (output : PwmOutput) : Move names draft (draft.usePwm output)
  | hoist {draft : Draft} (read : C.Expr) : Move names draft (draft.hoist (.run read))
  | addTimer {draft : Draft} (timer : Timer) : Move names draft (draft.addTimer timer)
  | addButton {draft : Draft} (body : C.Code) : Move names draft (draft.addButton body)
  | addManifest {draft : Draft} (head : BlockHead) :
      Move names draft (draft.addManifest (.ofHead head))
  | append {draft : Draft} (phase : Phase) (code : C.Code) :
      Move names draft (draft.append phase code)

def Moves (names : List String) : Draft → Draft → Prop := Relation.ReflTransGen (Move names)

variable {names : List String} {a b c : Draft}

theorem Moves.refl (draft : Draft) : Moves names draft draft := Relation.ReflTransGen.refl

theorem Moves.trans (first : Moves names a b) (second : Moves names b c) : Moves names a c :=
  Relation.ReflTransGen.trans first second

theorem Moves.single (move : Move names a b) : Moves names a b := Relation.ReflTransGen.single move

theorem Move.extends (move : Move names a b) : a.Extends b := by
  cases move with
  | enable features => exact a.extends_enable features
  | resolve _ _ _ => exact a.extends_declare _
  | count stem => exact a.extends_advance _ _
  | array _ _ _ _ => exact a.extends_declare _
  | slot _ _ _ => exact (a.extends_declare _).trans (extends_rememberSlot _ _ _)
  | state _ => exact a.extends_declare _
  | usePin mode _ => exact a.extends_usePin _ mode
  | configurePin _ => exact (a.extends_usePin _ _).trans (extends_addSetup _ _)
  | usePwm output => exact a.extends_usePwm output
  | hoist read => exact a.extends_hoist _
  | addTimer timer => exact a.extends_addTimer timer
  | addButton body => exact a.extends_addButton body
  | addManifest head => exact a.extends_addManifest _
  | append phase code => exact a.extends_append phase code

theorem Moves.extends (moves : Moves names a b) : a.Extends b := by
  induction moves with
  | refl => exact .refl a
  | tail _ move grown => exact grown.trans move.extends

private theorem manifests_declare (draft : Draft) (storage : Storage) :
    (draft.declare storage).manifests = draft.manifests := by
  unfold declare
  split <;> rfl

theorem Moves.manifests (moves : Moves names {} b) :
    ∀ manifest ∈ b.manifests, ∃ head, manifest = Manifest.ofHead head := by
  induction moves with
  | refl => exact nofun
  | @tail a b _ move kept =>
    have same (equal : b.manifests = a.manifests) :
        ∀ manifest ∈ b.manifests, ∃ head, manifest = Manifest.ofHead head := equal ▸ kept
    cases move with
    | addManifest head =>
      intro manifest member
      rcases List.mem_append.1 member with old | new
      · exact kept manifest old
      · exact ⟨head, List.mem_singleton.1 new⟩
    | resolve _ _ _ => exact same (manifests_declare a _)
    | array _ _ _ _ => exact same (manifests_declare a _)
    | slot _ _ _ => exact same (manifests_declare a _)
    | state _ => exact same (manifests_declare a _)
    | usePwm output =>
      refine same ?_
      unfold usePwm
      split <;> rfl
    | hoist read =>
      refine same ?_
      unfold hoist
      split <;> rfl
    | append phase code => cases phase <;> exact kept
    | _ => exact kept

/-! Numbered names. -/

theorem numbered_inj {stem : String} {n m : Nat} (same : numbered stem n = numbered stem m) : n = m := by
  have letters := congrArg String.toList same
  simp only [numbered, String.toList_append, List.append_assoc, List.append_cancel_left_eq,
    Nat.toString_eq_ofList_toDigits, String.toList_ofList] at letters
  have numbers := congrArg (fun digits => Nat.ofDigitChars 10 digits 0) letters
  simpa using numbers

theorem nodup_numbered (stem : String) (count : Nat) :
    ((List.range count).map fun number => stem ++ toString number).Nodup := by
  refine List.Nodup.map (fun n m same => ?_) List.nodup_range
  have letters : stem.toList ++ (toString n).toList = stem.toList ++ (toString m).toList := by
    rw [← String.toList_append, ← String.toList_append, same]
  have digits : toString n = toString m := String.toList_inj.1 (List.append_cancel_left letters)
  have numbers : numbered stem n = numbered stem m := by rw [numbered, numbered, digits]
  exact numbered_inj numbers

theorem name_getD_lookup? (draft : Draft) (storage : Storage) :
    ((draft.lookup? storage.name).getD storage).name = storage.name := by
  cases found : draft.lookup? storage.name with
  | none => rfl
  | some other => exact name_of_lookup? found

theorem has_places {draft : Draft} {name : String} :
    draft.places.has name = true ↔ draft.lookup? name ≠ none := by
  rw [Entries.has, Option.isSome_iff_ne_none, ne_eq, ne_eq, lookup?_eq_none]

/-- The search for a free number passes only numbers whose names are declared, and stops at a free one or when
the fuel is used up. -/
private theorem firstFree_spec (draft : Draft) (stem : String) : ∀ fuel start,
    let last := draft.firstFree stem fuel start
    (start ≤ last ∧ last ≤ start + fuel) ∧
      (∀ number, start ≤ number → number < last → draft.lookup? (numbered stem number) ≠ none) ∧
      (draft.lookup? (numbered stem last) ≠ none → last = start + fuel)
  | 0, start => ⟨by simp [firstFree], fun number least below => absurd least (Nat.not_le.2 below), fun _ => rfl⟩
  | fuel + 1, start => by
    unfold firstFree
    split
    · rename_i taken
      obtain ⟨bounds, passed, stops⟩ := firstFree_spec draft stem fuel (start + 1)
      refine ⟨by omega, fun number least below => ?_, fun declared => ?_⟩
      · rcases Nat.eq_or_lt_of_le least with rfl | later
        · exact has_places.1 taken
        · exact passed number later below
      · rw [stops declared]
        omega
    · rename_i free
      exact ⟨by omega, fun number least below => absurd least (Nat.not_le.2 below),
        fun declared => absurd (has_places.2 declared) free⟩

theorem freshNumber_le (draft : Draft) (stem : String) :
    draft.freshNumber stem ≤ (draft.counters.get? stem).getD 0 + draft.storage.length :=
  (firstFree_spec draft stem _ _).1.2

theorem name_mem_of_lookup? {draft : Draft} {name : String} (declared : draft.lookup? name ≠ none) :
    name ∈ draft.storage.map Storage.name := by
  obtain ⟨storage, found⟩ := Option.ne_none_iff_exists'.1 declared
  exact name_of_lookup? found ▸ List.mem_map_of_mem (mem_of_lookup? found)

/-- The number of a new name is the first one from the counter on whose name is not declared. -/
theorem isLeast_freshNumber (draft : Draft) (stem : String) :
    IsLeast {number | (draft.counters.get? stem).getD 0 ≤ number ∧
      draft.lookup? (numbered stem number) = none} (draft.freshNumber stem) := by
  obtain ⟨bounds, passed, stops⟩ :=
    firstFree_spec draft stem draft.storage.length ((draft.counters.get? stem).getD 0)
  refine ⟨⟨bounds.1, not_not.1 fun taken => ?_⟩, fun number among => ?_⟩
  · -- All names up to the last one are declared, and these are more than there are declarations.
    let start := (draft.counters.get? stem).getD 0
    let candidates := (List.range' start (draft.storage.length + 1)).map (numbered stem)
    have distinct : candidates.Nodup := List.Nodup.map (fun _ _ => numbered_inj) List.nodup_range'
    have declared : candidates ⊆ draft.storage.map Storage.name := by
      intro name member
      obtain ⟨number, among, rfl⟩ := List.mem_map.1 member
      obtain ⟨least, below⟩ := List.mem_range'_1.1 among
      have last := stops taken
      refine name_mem_of_lookup? ?_
      rcases Nat.lt_or_ge number (start + draft.storage.length) with inner | outer
      · exact passed number least (by omega)
      · have same : number = draft.freshNumber stem := by
          unfold freshNumber
          omega
        exact same ▸ taken
    have bound := (List.subperm_of_subset distinct declared).length_le
    simp only [candidates, List.length_map, List.length_range'] at bound
    omega
  · by_contra below
    exact passed number among.1 (Nat.not_le.1 below) among.2

theorem lookup?_freshNumber (draft : Draft) (stem : String) :
    draft.lookup? (numbered stem (draft.freshNumber stem)) = none :=
  (draft.isLeast_freshNumber stem).1.2

end Draft

namespace GeneratedName

variable {name : String}

private theorem underscore (generated : GeneratedName name) : '_' ∈ name.toList := by
  cases generated with
  | buffer shared =>
    have each : ∀ name ∈ ["display_buffer", "storage_buffer"], '_' ∈ name.toList := by decide
    exact each name shared
  | numbered listed number => simp [Draft.numbered]
  | state remembered => rcases List.mem_pair.1 remembered with rfl | rfl <;> simp

private theorem isIdentifier (generated : GeneratedName name) : isIdentifier name = true := by
  cases generated with
  | buffer shared =>
    have each : ∀ name ∈ ["display_buffer", "storage_buffer"],
        C.Identifier.isIdentifier name = true := by decide
    exact each name shared
  | numbered listed number =>
    have each : ∀ stem ∈ generatedStems, C.Identifier.isIdentifier stem = true := by decide
    exact C.Identifier.isIdentifier_numbered (each _ listed) number
  | @state output storage remembered =>
    have stem : C.Identifier.isIdentifier output.stateStem = true := by cases output <;> decide
    rcases List.mem_pair.1 remembered with rfl | rfl <;>
      exact C.Identifier.isIdentifier_append stem (by simp [C.Identifier.isPart])

theorem usable (generated : GeneratedName name) : Usable name :=
  ⟨generated.isIdentifier, C.Identifier.isReserved_of_underscore generated.underscore⟩

end GeneratedName

end FlipperBlocks
