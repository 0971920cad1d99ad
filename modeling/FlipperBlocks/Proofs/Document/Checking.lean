import FlipperBlocks.Document.Check
import FlipperBlocks.Proofs.Document.Following
import FlipperBlocks.Proofs.Draft.Table

/-! What a shape takes of a spelled value, and what it checks of the resolved one.

Whatever is taken passes the check, with the same result. Where no name comes again in an object, both
are the same; a value whose names come again may pass the check although a record refuses the second
one, or a table an earlier one. -/
namespace FlipperBlocks

namespace Json

/-! ### Names that do not come again -/

mutual

def Distinct : Json → Prop
  | .list items => DistinctItems items
  | .object members => (members.map Prod.fst).Nodup ∧ DistinctMembers members
  | _ => True

def DistinctItems : List Json → Prop
  | [] => True
  | item :: rest => item.Distinct ∧ DistinctItems rest

def DistinctMembers : List (String × Json) → Prop
  | [] => True
  | (_, value) :: rest => value.Distinct ∧ DistinctMembers rest

end

theorem distinctItems_iff (items : List Json) : DistinctItems items ↔ ∀ item ∈ items, item.Distinct := by
  induction items with
  | nil => simp [DistinctItems]
  | cons item rest ih => simp [DistinctItems, ih]

theorem distinctMembers_iff (members : List (String × Json)) :
    DistinctMembers members ↔ ∀ member ∈ members, member.2.Distinct := by
  induction members with
  | nil => simp [DistinctMembers]
  | cons member rest ih => simp [DistinctMembers, ih]

@[simp] theorem distinct_list (items : List Json) :
    (list items).Distinct ↔ ∀ item ∈ items, item.Distinct := by
  rw [Distinct, distinctItems_iff]

@[simp] theorem distinct_object (members : List (String × Json)) : (object members).Distinct ↔
    (members.map Prod.fst).Nodup ∧ ∀ member ∈ members, member.2.Distinct := by
  rw [Distinct, distinctMembers_iff]

theorem nested {P : Json → Prop} (scalar : ∀ value : Json, value.resolved = value →
      (∀ items, value ≠ list items) → (∀ members, value ≠ object members) → P value)
    (list : ∀ items, (∀ item ∈ items, P item) → P (list items))
    (object : ∀ members, (∀ member ∈ members, P member.2) → P (object members)) : ∀ value, P value := by
  refine @Json.rec P (fun items => ∀ item ∈ items, P item)
    (fun members => ∀ member ∈ members, P member.2) (fun member => P member.2) ?_ ?_ ?_ ?_ ?_ list
    object ?_ ?_ ?_ ?_ ?_
  · exact scalar _ rfl (by simp) (by simp)
  iterate 4 · exact fun value => scalar _ rfl (by simp) (by simp)
  · exact fun item among => by cases among
  · exact fun first rest holds others => List.forall_mem_cons.2 ⟨holds, others⟩
  · exact fun member among => by cases among
  · exact fun first rest holds others => List.forall_mem_cons.2 ⟨holds, others⟩
  · exact fun name value holds => holds

end Json

namespace Entries

variable {α β : Type}

/-! ### Entries that are made one after another -/

def made (f : α → Option β) (entries : List (String × α)) : Option (List (String × β)) :=
  entries.mapM fun entry => (f entry.2).map fun value => (entry.1, value)

@[simp] theorem made_nil (f : α → Option β) : made f [] = some [] := rfl

@[simp] theorem made_cons (f : α → Option β) (name : String) (value : α)
    (rest : List (String × α)) : made f ((name, value) :: rest) =
      (f value).bind fun first => (made f rest).map fun others => (name, first) :: others := by
  simp only [made, List.mapM_cons]
  cases f value with
  | none => rfl
  | some first => cases rest.mapM fun entry => (f entry.2).map fun value => (entry.1, value) <;> rfl

variable {entries : Entries α}

theorem made_put {f : α → Option β} {results : Entries β} {value : α}
    {result : β} (known : made f entries = some results) (new : f value = some result)
    (name : String) : made f (put name value entries) = some (put name result results) := by
  induction entries generalizing results with
  | nil =>
    cases known
    simp [put, new]
  | cons entry rest ih =>
    obtain ⟨key, old⟩ := entry
    rw [made_cons] at known
    obtain ⟨first, start, known⟩ := Option.bind_eq_some_iff.1 known
    obtain ⟨others, more, rfl⟩ := Option.map_eq_some_iff.1 known
    unfold put
    split
    · simp [start, more, new]
    · split
      · simp [more, new]
      · simp [start, ih more]

theorem made_put_fresh (f : α → Option β) {name : String}
    (fresh : entries.get? name = none) (value : α) : made f (put name value entries) =
      (made f entries).bind fun results => (f value).map fun result => put name result results := by
  induction entries with
  | nil => cases new : f value <;> simp [put, new]
  | cons entry rest ih =>
    obtain ⟨key, old⟩ := entry
    rw [get?_cons] at fresh
    have different : name ≠ key := by
      rintro rfl
      rw [if_pos rfl] at fresh
      cases fresh
    rw [if_neg different] at fresh
    by_cases before : name < key
    · simp only [put, if_pos before, made_cons]
      generalize f value = new, f old = first, made f rest = others
      cases new <;> cases first <;> cases others <;> simp [put, before]
    · simp only [put, if_neg before, if_neg different, made_cons, ih fresh]
      generalize f value = new, f old = first, made f rest = others
      cases new <;> cases first <;> cases others <;> simp [put, before, different]

def putAll (pairs : List (String × α)) (entries : Entries α) : Entries α :=
  pairs.foldl (fun entries pair => put pair.1 pair.2 entries) entries

variable {γ : Type} {f : β → Option γ} {g : α → Option γ} {h : α → β}

variable {pairs : List (String × α)} {entries : Entries β}

theorem made_putAll
    (passes : ∀ pair ∈ pairs, ∀ result, g pair.2 = some result → f (h pair.2) = some result)
    {results : Entries γ} {others : List (String × γ)}
    (known : made f entries = some results) (taken : made g pairs = some others) :
    made f (putAll (pairs.map fun pair => (pair.1, h pair.2)) entries) = some (putAll others results) := by
  induction pairs generalizing entries results others with
  | nil =>
    cases taken
    exact known
  | cons pair pairs ih =>
    obtain ⟨name, value⟩ := pair
    rw [made_cons] at taken
    obtain ⟨first, start, taken⟩ := Option.bind_eq_some_iff.1 taken
    obtain ⟨rest, more, rfl⟩ := Option.map_eq_some_iff.1 taken
    obtain ⟨passed, others⟩ := List.forall_mem_cons.1 passes
    have next : made f (put name (h value) entries) = some (put name first results) :=
      made_put known (passed first start) name
    exact @ih (put name (h value) entries) others (put name first results) rest next more

theorem made_putAll_distinct (same : ∀ pair ∈ pairs, g pair.2 = f (h pair.2))
    (distinct : (pairs.map Prod.fst).Nodup) (fresh : ∀ pair ∈ pairs, entries.get? pair.1 = none) :
    made f (putAll (pairs.map fun pair => (pair.1, h pair.2)) entries) = (made f entries).bind fun results =>
        (made g pairs).map fun others => putAll others results := by
  induction pairs generalizing entries with
  | nil =>
    change made f entries = (made f entries).bind some
    exact (Option.bind_fun_some _).symm
  | cons pair pairs ih =>
    obtain ⟨name, value⟩ := pair
    obtain ⟨absent, distinct⟩ := List.nodup_cons.1 distinct
    obtain ⟨first, others⟩ := List.forall_mem_cons.1 same
    obtain ⟨new, later⟩ := List.forall_mem_cons.1 fresh
    have still : ∀ pair ∈ pairs, (entries.put name (h value)).get? pair.1 = none := by
      intro pair member
      have different : pair.1 ≠ name := fun equal => absent (List.mem_map.2 ⟨pair, member, equal⟩)
      rw [get?_put, if_neg different, later pair member]
    change made f (putAll _ (put name (h value) entries)) = _
    rw [ih others distinct still, made_put_fresh f new, made_cons, show g value = _ from first]
    cases made f entries with
    | none => rfl
    | some results =>
      cases f (h value) with
      | none => rfl
      | some result => cases made g pairs <;> rfl

end Entries

namespace Document

open Json

/-! ### Items, entries and positions -/

variable {α β : Type} {form : Form} {name : String} {entries : Entries Json} {value : Json}
  {store : Store} {members : List Member} {values : List Json}

private theorem toOption_bind {ε : Type} (first : Except ε α) (next : α → Except ε β) :
    (first >>= next).toOption = first.toOption.bind fun a => (next a).toOption := by
  cases first <;> rfl

def Shape.checked (shape : Shape) (value : Json) : Option shape.Carrier := (shape.check value).toOption

theorem Shape.checkItems_toOption (item : Shape) (values : List Json) :
    (item.checkItems values).toOption = values.mapM item.checked := by
  induction values with
  | nil => rfl
  | cons value rest ih =>
    rw [checkItems, toOption_bind, List.mapM_cons]
    simp only [toOption_bind, ih]
    rfl

theorem Shape.checkEntries_toOption (entry : Shape) (members : List (String × Json)) :
    (entry.checkEntries members).toOption = Entries.made entry.checked members := by
  induction members with
  | nil => rfl
  | cons member rest ih =>
    obtain ⟨name, value⟩ := member
    rw [checkEntries, toOption_bind, Entries.made_cons]
    simp only [toOption_bind, ih]
    change (entry.checked value).bind _ = _
    generalize Entries.made entry.checked rest = others
    cases entry.checked value with
    | none => rfl
    | some first => cases others <;> rfl

theorem Member.given_resolved (member : Member) (made : Option member.shape.Carrier) (value : Json) :
    member.given made value.resolved = member.given made value := by
  cases value <;> simp [Member.given, resolved]

private theorem toOption_given (member : Member) (value : Json)
    (next : Option member.shape.Carrier → Except Fault β) : (match member.nullable, value with
      | true, .null => next none
      | _, value => do
        let given ← member.shape.check value
        next (some given)).toOption =
      (member.given (member.shape.checked value) value).bind fun given => (next given).toOption := by
  have taken (value : Json) : (do
      let given ← member.shape.check value
      next (some given)).toOption =
        ((member.shape.checked value).map some).bind fun given => (next given).toOption := by
    rw [toOption_bind]
    unfold Shape.checked
    cases (member.shape.check value).toOption <;> rfl
  cases nullable : member.nullable with
  | false =>
    cases value with
    | null =>
      rw [Member.given, nullable]
      exact taken _
    | _ => exact taken _
  | true =>
    cases value with
    | null =>
      rw [Member.given, nullable]
      rfl
    | _ => exact taken _

theorem Form.checkMembers_known {member : Member}
    (known : form.member? name = some member) (store : Store) (value : Json)
    (rest : List (String × Json)) : (form.checkMembers store ((name, value) :: rest)).toOption =
      (member.given (member.shape.checked value) value).bind fun given =>
        (form.checkMembers (store.set member given) rest).toOption := by
  rw [checkMembers, known]
  exact toOption_given member value fun given => form.checkMembers (store.set member given) rest

theorem Form.checkMembers_unknown (unknown : form.member? name = none)
    (store : Store) (value : Json) (rest : List (String × Json)) :
    form.checkMembers store ((name, value) :: rest) = form.checkMembers store rest := by
  rw [checkMembers, unknown]

theorem Form.checkPositions_cons (form : Form) (member : Member) (members : List Member)
    (index : Nat) (store : Store) (value : Json) (rest : List Json) :
    (form.checkPositions (member :: members) index store (value :: rest)).toOption =
      (member.given (member.shape.checked value) value).bind fun given =>
        (form.checkPositions members (index + 1) (store.set member given) rest).toOption := by
  conv_lhs => unfold checkPositions
  exact toOption_given member value fun given =>
    form.checkPositions members (index + 1) (store.set member given) rest

/-! ### Stores -/

theorem Store.set_comm (store : Store) {first second : Member} (different : first ≠ second)
    (a : Option first.shape.Carrier) (b : Option second.shape.Carrier) :
    (store.set first a).set second b = (store.set second b).set first a := by
  funext other
  unfold set
  by_cases isFirst : other = first
  · subst isFirst
    simp [different]
  · simp [isFirst]

theorem Store.has_set (store : Store) (member other : Member) (given : Option member.shape.Carrier) :
    (store.set member given).has other = (decide (other = member) || store.has other) := by
  unfold has set
  by_cases same : other = member
  · subst same
    simp
  · simp [same]

theorem Form.key_of_member? {member : Member}
    (known : form.member? name = some member) : member.key = name := by
  have found := List.find?_some known
  exact eq_of_beq found

theorem Form.checkMembers_set {member : Member} {entries : List (String × Json)}
    (absent : ∀ entry ∈ entries, form.member? entry.1 ≠ some member) (store : Store)
    (given : Option member.shape.Carrier) : (form.checkMembers (store.set member given) entries).toOption =
      (form.checkMembers store entries).toOption.map fun store => store.set member given := by
  induction entries generalizing store with
  | nil => rfl
  | cons entry rest ih =>
    obtain ⟨name, value⟩ := entry
    obtain ⟨other, others⟩ := List.forall_mem_cons.1 absent
    cases known : form.member? name with
    | none => rw [checkMembers_unknown known, checkMembers_unknown known, ih others]
    | some second =>
      have different : member ≠ second := by
        rintro rfl
        exact other known
      rw [checkMembers_known known, checkMembers_known known]
      cases second.given (second.shape.checked value) value with
      | none => rfl
      | some made =>
        simp only [Option.bind_some]
        rw [store.set_comm different, ih others]

theorem Form.checkMembers_put_unknown
    (unknown : form.member? name = none) (store : Store) (value : Json) (entries : Entries Json) :
    (form.checkMembers store (entries.put name value)).toOption =
      (form.checkMembers store entries).toOption := by
  induction entries generalizing store with
  | nil => rw [Entries.put, checkMembers_unknown unknown]
  | cons entry rest ih =>
    obtain ⟨key, old⟩ := entry
    unfold Entries.put
    split
    · rw [checkMembers_unknown unknown]
    · split
      · rename_i same
        subst same
        rw [checkMembers_unknown unknown, checkMembers_unknown unknown]
      · cases known : form.member? key with
        | none => rw [checkMembers_unknown known, checkMembers_unknown known, ih]
        | some member => simp only [checkMembers_known known, ih]

private theorem name_ne_of_fresh {entries : Entries α}
    (fresh : entries.get? name = none) : ∀ entry ∈ entries, entry.1 ≠ name := by
  induction entries with
  | nil => exact fun entry among => by cases among
  | cons entry rest ih =>
    obtain ⟨key, value⟩ := entry
    rw [Entries.get?_cons] at fresh
    split at fresh
    · cases fresh
    · rename_i different
      exact List.forall_mem_cons.2 ⟨Ne.symm different, ih fresh⟩

theorem Form.checkMembers_put_known {member : Member} (known : form.member? name = some member)
    (fresh : entries.get? name = none) (store : Store) (value : Json) :
    (form.checkMembers store (entries.put name value)).toOption =
      (form.checkMembers store entries).toOption.bind fun store =>
        (member.given (member.shape.checked value) value).map fun given => store.set member given := by
  induction entries generalizing store with
  | nil =>
    rw [Entries.put, checkMembers_known known]
    cases member.given (member.shape.checked value) value <;> rfl
  | cons entry rest ih =>
    have absent : ∀ other ∈ entry :: rest, form.member? other.1 ≠ some member := by
      intro other among equal
      have same : other.1 = name := (key_of_member? equal).symm.trans (key_of_member? known)
      exact name_ne_of_fresh fresh other among same
    obtain ⟨key, old⟩ := entry
    rw [Entries.get?_cons] at fresh
    have different : name ≠ key := by
      rintro rfl
      rw [if_pos rfl] at fresh
      cases fresh
    rw [if_neg different] at fresh
    by_cases before : name < key
    · rw [Entries.put, if_pos before, checkMembers_known known]
      simp only [checkMembers_set absent]
      cases member.given (member.shape.checked value) value <;>
        cases (form.checkMembers store ((key, old) :: rest)).toOption <;> rfl
    · rw [Entries.put, if_neg before, if_neg different]
      cases other : form.member? key with
      | none => rw [checkMembers_unknown other, checkMembers_unknown other, ih fresh]
      | some second =>
        rw [checkMembers_known other, checkMembers_known other]
        cases second.given (second.shape.checked old) old with
        | none => rfl
        | some made => exact ih fresh _

theorem Form.has_of_checkMembers {entries : List (String × Json)} {before after : Store}
    (passed : (form.checkMembers before entries).toOption = some after) (member : Member) :
    after.has member = true ↔
      before.has member = true ∨ ∃ entry ∈ entries, form.member? entry.1 = some member := by
  induction entries generalizing before with
  | nil =>
    cases passed
    simp
  | cons entry rest ih =>
    obtain ⟨name, value⟩ := entry
    cases known : form.member? name with
    | none =>
      rw [checkMembers_unknown known] at passed
      rw [ih passed]
      simp [known]
    | some other =>
      rw [checkMembers_known known] at passed
      obtain ⟨given, _, passed⟩ := Option.bind_eq_some_iff.1 passed
      rw [ih passed, Store.has_set, Bool.or_eq_true, decide_eq_true_iff]
      simp only [List.mem_cons, exists_eq_or_imp, known, Option.some_inj]
      constructor
      · rintro ((rfl | had) | later)
        · exact .inr (.inl rfl)
        · exact .inl had
        · exact .inr (.inr later)
      · rintro (had | rfl | later)
        · exact .inl (.inr had)
        · exact .inl (.inl rfl)
        · exact .inr later

/-! ### What is taken passes the check -/

abbrev resolvedPairs (members : List (String × Json)) : List (String × Json) :=
  members.map fun member => (member.1, member.2.resolved)

def Passes (value : Json) : Prop :=
  ∀ shape : Shape, ∀ result, shape.take value = some result → shape.checked value.resolved = some result

def Agrees (value : Json) : Prop := ∀ shape : Shape, shape.take value = shape.checked value.resolved

theorem Member.given_of_take {member : Member} (passes : Passes value) {given : Option member.shape.Carrier}
    (taken : member.given (member.shape.take value) value = some given) :
    member.given (member.shape.checked value.resolved) value.resolved = some given := by
  rw [given_resolved]
  cases made : member.shape.take value with
  | some result => rwa [passes _ _ made, ← made]
  | none =>
    rw [made] at taken
    cases value with
    | null =>
      cases nullable : member.nullable with
      | true =>
        rw [Member.given, nullable] at taken ⊢
        exact taken
      | false =>
        rw [Member.given, nullable] at taken
        cases taken
    | _ => cases taken

theorem Form.fresh_of_store {member : Member} (known : (form.checkMembers .empty entries).toOption = some store)
    (listed : form.member? name = some member) (new : ¬store.has member = true) :
    entries.get? name = none := by
  cases found : entries.get? name with
  | none => rfl
  | some value =>
    have among := Entries.mem_of_get? found
    exact absurd ((has_of_checkMembers known member).2 (.inr ⟨_, among, listed⟩)) new

theorem Form.checkMembers_of_take {members : List (String × Json)}
    (passes : ∀ member ∈ members, Passes member.2) {result : Store}
    (known : (form.checkMembers .empty entries).toOption = some store)
    (taken : form.takeMembers store members = some result) :
    (form.checkMembers .empty (Entries.putAll (resolvedPairs members) entries)).toOption = some result := by
  induction members generalizing entries store with
  | nil =>
    cases taken
    exact known
  | cons member members ih =>
    obtain ⟨name, value⟩ := member
    obtain ⟨passed, others⟩ := List.forall_mem_cons.1 passes
    rw [takeMembers] at taken
    change (form.checkMembers .empty (Entries.putAll _ (entries.put name value.resolved))).toOption = _
    cases listed : form.member? name with
    | none =>
      rw [listed] at taken
      exact ih others (by rw [checkMembers_put_unknown listed, known]) taken
    | some member =>
      rw [listed] at taken
      by_cases again : store.has member = true
      · simp [again] at taken
      · simp only [again, Bool.false_eq_true, if_false] at taken
        obtain ⟨given, first, taken⟩ := Option.bind_eq_some_iff.1 taken
        refine ih others ?_ taken
        rw [checkMembers_put_known listed (fresh_of_store known listed again), known,
          Option.bind_some, Member.given_of_take passed first, Option.map_some]

theorem Form.checkMembers_distinct {members : List (String × Json)}
    (agrees : ∀ member ∈ members, Agrees member.2) (distinct : (members.map Prod.fst).Nodup)
    (fresh : ∀ member ∈ members, entries.get? member.1 = none) :
    (form.checkMembers .empty (Entries.putAll (resolvedPairs members) entries)).toOption =
      (form.checkMembers .empty entries).toOption.bind fun store => form.takeMembers store members := by
  induction members generalizing entries with
  | nil => exact (Option.bind_fun_some _).symm
  | cons member members ih =>
    obtain ⟨name, value⟩ := member
    obtain ⟨absent, distinct⟩ := List.nodup_cons.1 distinct
    obtain ⟨agree, others⟩ := List.forall_mem_cons.1 agrees
    obtain ⟨new, later⟩ := List.forall_mem_cons.1 fresh
    have still : ∀ member ∈ members, (entries.put name value.resolved).get? member.1 = none := by
      intro member among
      have different : member.1 ≠ name := fun equal => absent (List.mem_map.2 ⟨member, among, equal⟩)
      rw [Entries.get?_put, if_neg different, later member among]
    change (form.checkMembers .empty (Entries.putAll _ (entries.put name value.resolved))).toOption = _
    rw [ih others distinct still]
    simp only [takeMembers]
    cases listed : form.member? name with
    | none => rw [checkMembers_put_unknown listed]
    | some member =>
      rw [checkMembers_put_known listed new]
      cases known : (form.checkMembers .empty entries).toOption with
      | none => rfl
      | some store =>
        have unset : ¬store.has member = true := by
          intro had
          rcases (has_of_checkMembers known member).1 had with none_ | ⟨entry, among, same⟩
          · cases none_
          · have equal : entry.1 = name := (key_of_member? same).symm.trans (key_of_member? listed)
            exact name_ne_of_fresh new entry among equal
        simp only [Option.bind_some, unset, Bool.false_eq_true, if_false]
        rw [Member.given_resolved, ← agree member.shape]
        cases member.given (member.shape.take value) value <;> rfl

theorem Form.checkPositions_of_take (passes : ∀ value ∈ values, Passes value) {result : Store}
    (taken : form.takePositions members store values = some result) (index : Nat) :
    values.length ≤ members.length ∧
      (form.checkPositions members index store (values.map resolved)).toOption = some result := by
  induction values generalizing members store index with
  | nil =>
    rw [takePositions] at taken
    refine ⟨Nat.zero_le _, ?_⟩
    rw [List.map_nil, checkPositions]
    split at taken
    · cases taken
    · rename_i complete
      rw [if_neg complete]
      exact taken
  | cons value values ih =>
    obtain ⟨passed, others⟩ := List.forall_mem_cons.1 passes
    cases members with
    | nil => cases taken
    | cons member members =>
      rw [takePositions] at taken
      obtain ⟨given, first, taken⟩ := Option.bind_eq_some_iff.1 taken
      obtain ⟨shorter, checked⟩ := ih others taken (index + 1)
      refine ⟨Nat.succ_le_succ shorter, ?_⟩
      rw [List.map_cons, checkPositions_cons, Member.given_of_take passed first, Option.bind_some, checked]

theorem Form.checkPositions_distinct (agrees : ∀ value ∈ values, Agrees value)
    (shorter : values.length ≤ members.length) (store : Store) (index : Nat) :
    (form.checkPositions members index store (values.map resolved)).toOption =
      form.takePositions members store values := by
  induction values generalizing members store index with
  | nil =>
    rw [takePositions, List.map_nil, checkPositions]
    split <;> rfl
  | cons value values ih =>
    obtain ⟨agree, others⟩ := List.forall_mem_cons.1 agrees
    cases members with
    | nil => cases shorter
    | cons member members =>
      rw [takePositions, List.map_cons, checkPositions_cons, Member.given_resolved, ← agree member.shape]
      simp only [ih others (Nat.le_of_succ_le_succ shorter)]

theorem Form.takePositions_long (form : Form) (longer : members.length < values.length) (store : Store) :
    form.takePositions members store values = none := by
  induction values generalizing members store with
  | nil => cases longer
  | cons value values ih =>
    cases members with
    | nil => rfl
    | cons member members =>
      rw [takePositions]
      apply Option.bind_eq_none_iff.2
      intro given _
      exact ih (Nat.lt_of_succ_lt_succ longer) _

/-! ### Every shape -/

theorem agrees_of_scalar (same : value.resolved = value)
    (noList : ∀ items, value ≠ list items) (noObject : ∀ members, value ≠ object members) : Agrees value := by
  intro shape
  rw [same]
  cases value with
  | list items => exact absurd rfl (noList items)
  | object members => exact absurd rfl (noObject members)
  | _ => cases shape <;> rfl

theorem agree_anything (value : Json) :
    Shape.anything.take value = Shape.anything.checked value.resolved := by
  rw [Shape.take_anything]
  cases value.resolved <;> rfl

section

variable {items : List Json} {members : List (String × Json)}

theorem checked_items (shape : Shape) :
    (Shape.list shape).checked (list items).resolved = (items.map resolved).mapM shape.checked := by
  rw [resolved_list]
  exact shape.checkItems_toOption _

theorem take_items (shape : Shape) : (Shape.list shape).take (list items) = items.mapM shape.take :=
  shape.takeItems_eq items

theorem checked_table (shape : Shape) : (Shape.table shape).checked (object members).resolved =
    Entries.made shape.checked (Entries.putAll (resolvedPairs members) []) := by
  rw [resolved_object]
  exact shape.checkEntries_toOption _

theorem take_table (shape : Shape) : (Shape.table shape).take (object members) =
    (Entries.made shape.take members).map fun made => Entries.putAll made [] := by
  rw [Shape.take, shape.takeEntries_eq]
  rfl

theorem checked_object (form : Form) : (Shape.record form).checked (object members).resolved =
    (form.checkMembers .empty (Entries.putAll (resolvedPairs members) [])).toOption.bind
      fun store => (form.build store).toOption := by
  rw [resolved_object]
  exact toOption_bind _ _

theorem checked_positions (form : Form) : (Shape.record form).checked (list items).resolved =
    (form.checkPositions form.members 0 .empty (items.map resolved)).toOption.bind fun store =>
      (form.build store).toOption.bind fun record =>
        if form.members.length < items.length then none else some record := by
  rw [resolved_list, Shape.checked, Shape.check, toOption_bind]
  simp only [toOption_bind, List.length_map, apply_ite Except.toOption]
  rfl

end

variable {items : List Json} {members : List (String × Json)}

theorem passes_list (passes : ∀ item ∈ items, Passes item) : Passes (list items) := by
  intro shape result taken
  cases shape with
  | list shape =>
    rw [take_items] at taken
    rw [checked_items, List.mapM_map]
    induction items generalizing result with
    | nil => exact taken
    | cons item items ih =>
      obtain ⟨passed, others⟩ := List.forall_mem_cons.1 passes
      rw [List.mapM_cons] at taken ⊢
      obtain ⟨first, start, taken⟩ := Option.bind_eq_some_iff.1 taken
      obtain ⟨rest, more, taken⟩ := Option.bind_eq_some_iff.1 taken
      rw [Function.comp_apply, passed shape first start, ih others rest more]
      exact taken
  | anything => rwa [agree_anything] at taken
  | record form =>
    obtain ⟨store, positions, built⟩ := Option.bind_eq_some_iff.1 taken
    obtain ⟨shorter, checked⟩ := Form.checkPositions_of_take passes positions 0
    rw [checked_positions, checked, Option.bind_some, built, Option.bind_some, if_neg (Nat.not_lt.2 shorter)]
  | text => cases taken
  | table shape => cases taken

theorem passes_object (passes : ∀ member ∈ members, Passes member.2) : Passes (object members) := by
  intro shape result taken
  cases shape with
  | table shape =>
    rw [take_table] at taken
    obtain ⟨made, all, rfl⟩ := Option.map_eq_some_iff.1 taken
    rw [checked_table]
    exact Entries.made_putAll (fun member among => passes member among shape) rfl all
  | anything => rwa [agree_anything] at taken
  | record form =>
    obtain ⟨store, listed, built⟩ := Option.bind_eq_some_iff.1 taken
    rw [checked_object, Form.checkMembers_of_take passes rfl listed, Option.bind_some, built]
  | text => cases taken
  | list shape => cases taken

theorem passes_all (value : Json) : Passes value := by
  refine Json.nested ?_ ?_ ?_ value
  · intro value same noList noObject shape result taken
    rwa [agrees_of_scalar same noList noObject shape] at taken
  · intro items passes
    exact passes_list passes
  · intro members passes
    exact passes_object passes

theorem agrees_list (agrees : ∀ item ∈ items, Agrees item) : Agrees (list items) := by
  intro shape
  cases shape with
  | list shape =>
    rw [take_items, checked_items, List.mapM_map]
    induction items with
    | nil => rfl
    | cons item items ih =>
      obtain ⟨agree, others⟩ := List.forall_mem_cons.1 agrees
      rw [List.mapM_cons, List.mapM_cons, ih others, Function.comp_apply, agree shape]
  | anything => exact agree_anything _
  | record form =>
    rw [checked_positions]
    by_cases longer : form.members.length < items.length
    · simp only [if_pos longer, Option.bind_fun_none, Shape.take, form.takePositions_long longer]
      rfl
    · rw [Form.checkPositions_distinct agrees (Nat.le_of_not_lt longer)]
      simp only [if_neg longer, Option.bind_fun_some]
      rfl
  | text => rfl
  | table shape => rfl

theorem agrees_object (distinct : (members.map Prod.fst).Nodup)
    (agrees : ∀ member ∈ members, Agrees member.2) : Agrees (object members) := by
  intro shape
  cases shape with
  | table shape =>
    rw [take_table, checked_table]
    have same := @Entries.made_putAll_distinct _ _ _ shape.checked shape.take resolved members []
      (fun member among => agrees member among shape) distinct fun _ _ => rfl
    exact same.symm
  | anything => exact agree_anything _
  | record form =>
    rw [checked_object, Form.checkMembers_distinct agrees distinct fun _ _ => rfl]
    rfl
  | text => rfl
  | list shape => rfl

theorem agrees_of_distinct (value : Json) : value.Distinct → Agrees value := by
  refine @Json.nested (fun value => value.Distinct → Agrees value) ?_ ?_ ?_ value
  · intro value same noList noObject _
    exact agrees_of_scalar same noList noObject
  · intro items agrees distinct
    rw [distinct_list] at distinct
    exact agrees_list fun item among => agrees item among (distinct item among)
  · intro members agrees distinct
    rw [distinct_object] at distinct
    exact agrees_object distinct.1 fun member among => agrees member among (distinct.2 member among)

end Document

end FlipperBlocks
