import FlipperBlocks.Proofs.Draft.Growth

/-! Slots of a draft, and the names that they tell.

No two slots tell one name, since a name is told once it has been found free. -/
namespace FlipperBlocks

def slotStems : List String :=
  ["storage_buffer", "num_str", "dht11_temp", "dht11_hum", "i2c_reg8", "i2c_reg16", "i2c_read_bytes"]

inductive SlotName : String → Prop
  | shared : SlotName "storage_buffer"
  | numbered {stem : String} (listed : stem ∈ slotStems) (number : Nat) :
      SlotName (Draft.numbered stem number)

inductive SharedName : String → Prop
  | plain {stem : String} (listed : stem ∈ ["display_buffer", "storage_buffer"]) : SharedName stem
  | numbered {stem : String} (listed : stem ∈ ["display_buffer", "storage_buffer"]) (number : Nat) :
      SharedName (Draft.numbered stem number)

namespace Draft

variable {names : List String} {a b : Draft}

theorem take_numbered {stem : String} (long : 2 ≤ stem.toList.length) (number : Nat) :
    (numbered stem number).toList.take 2 = stem.toList.take 2 := by
  rw [numbered, String.append_assoc, String.toList_append, List.take_append_of_le_length long]

theorem Moves.key_eq_of_told (moves : Moves names {} b) : ∀ {key other name : String},
    b.slots.get? key = some name → b.slots.get? other = some name → key = other := by
  induction moves with
  | refl => exact nofun
  | @tail a b before move distinct =>
    intro key other name first second
    have tabled : a.Tabled := Moves.tabled before
    cases move.grows with
    | same _ _ slots =>
      rw [slots] at first second
      exact distinct first second
    | @more new free _ _ origin =>
      generalize b.slots = after at origin first second
      cases origin with
      | written _ _ _ => exact distinct first second
      | generated _ _ => exact distinct first second
      | @slot taken _ unused =>
        -- The new name has not been declared before, and so no other slot tells it.
        have untold {key : String} (told : a.slots.get? key = some new.name) : False :=
          tabled.lookup?_eq_none_iff.1 free (tabled.slots _ (Entries.mem_of_get? told))
        rw [Entries.get?_put] at first second
        split at first <;> split at second
        · rename_i same sameToo
          rw [same, sameToo]
        · injection first with told
          exact (untold (told ▸ second)).elim
        · injection second with told
          exact (untold (told ▸ first)).elim
        · exact distinct first second

theorem Moves.generated_of_told (moves : Moves names {} b) : ∀ {key name : String},
    b.slots.get? key = some name → GeneratedName name := by
  induction moves with
  | refl => exact nofun
  | @tail a b _ move generated =>
    intro key name told
    cases move.grows with
    | same _ _ slots =>
      rw [slots] at told
      exact generated told
    | @more new _ _ _ origin =>
      generalize b.slots = after at origin told
      cases origin with
      | written _ _ _ => exact generated told
      | generated _ _ => exact generated told
      | slot named _ =>
        rw [Entries.get?_put] at told
        split at told
        · exact Option.some.inj told ▸ named
        · exact generated told

end Draft

def slotStarts : List (List Char) := [['s', 't'], ['n', 'u'], ['d', 'h'], ['i', '2']]

theorem SlotName.start {name : String} (slot : SlotName name) : name.toList.take 2 ∈ slotStarts := by
  cases slot with
  | shared => decide
  | @numbered stem listed number =>
    have each : ∀ stem ∈ slotStems, 2 ≤ stem.toList.length ∧ stem.toList.take 2 ∈ slotStarts := by decide
    obtain ⟨long, starts⟩ := each stem listed
    rw [Draft.take_numbered long]
    exact starts

theorem SharedName.start {name : String} (shared : SharedName name) :
    name.toList.take 2 ∈ [['d', 'i'], ['s', 't']] := by
  have each : ∀ stem ∈ ["display_buffer", "storage_buffer"], 2 ≤ stem.toList.length ∧
      stem.toList.take 2 ∈ [['d', 'i'], ['s', 't']] := by decide
  cases shared with
  | plain listed => exact (each name listed).2
  | @numbered stem listed number =>
    obtain ⟨long, starts⟩ := each stem listed
    rw [Draft.take_numbered long]
    exact starts

end FlipperBlocks
