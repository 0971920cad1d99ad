/-! Named entries: a list of pairs in the order of their names, each name at most once. -/
namespace FlipperBlocks

abbrev Entries (α : Type) := List (String × α)

namespace Entries

variable {α : Type}

def get? (entries : Entries α) (name : String) : Option α := List.lookup name entries

def has (entries : Entries α) (name : String) : Bool := (entries.get? name).isSome

/-- Sets the entry of a name at its place in the order, replacing the old one. -/
def put (name : String) (value : α) : Entries α → Entries α
  | [] => [(name, value)]
  | (key, old) :: rest =>
    if name < key then (name, value) :: (key, old) :: rest
    else if name = key then (name, value) :: rest
    else (key, old) :: put name value rest

/-- Entries set one after another, so that the last one of a name wins. -/
def ofPairs (pairs : List (String × α)) : Entries α :=
  pairs.foldl (fun entries pair => put pair.1 pair.2 entries) []

@[simp] theorem get?_nil (name : String) : get? ([] : Entries α) name = none := rfl

theorem get?_cons (key : String) (value : α) (rest : Entries α) (name : String) :
    get? ((key, value) :: rest) name = if name = key then some value else get? rest name := by
  simp only [get?, List.lookup_cons]
  split
  · rename_i same
    rw [if_pos (eq_of_beq same)]
  · rename_i different
    rw [if_neg (ne_of_beq_false different)]

theorem get?_map {β : Type} (change : α → β) (entries : Entries α) (name : String) :
    get? (entries.map fun entry => (entry.1, change entry.2)) name = (entries.get? name).map change := by
  induction entries with
  | nil => rfl
  | cons entry rest ih =>
    rw [List.map_cons, get?_cons, get?_cons, ih]
    split <;> rfl

theorem get?_filter (keep : String → Bool) (entries : Entries α) (name : String) :
    get? (entries.filter fun entry => keep entry.1) name = if keep name then entries.get? name else none := by
  induction entries with
  | nil => simp
  | cons entry rest ih =>
    obtain ⟨key, value⟩ := entry
    rw [List.filter_cons, get?_cons]
    by_cases same : name = key
    · subst same
      cases kept : keep name
      · simpa [kept] using ih
      · simp [get?_cons]
    · rw [if_neg same]
      split
      · rw [get?_cons, if_neg same, ih]
      · exact ih

theorem get?_put (entries : Entries α) (name other : String) (value : α) :
    (entries.put name value).get? other = if other = name then some value else entries.get? other := by
  induction entries with
  | nil => simp [put, get?_cons]
  | cons entry rest ih =>
    obtain ⟨key, old⟩ := entry
    rw [put]
    split
    · rw [get?_cons]
    · split
      · rename_i same
        subst same
        simp only [get?_cons]
        split <;> rfl
      · rename_i different
        simp only [get?_cons, ih]
        by_cases first : other = key
        · simp [first, Ne.symm different]
        · simp [first]

end Entries

end FlipperBlocks
