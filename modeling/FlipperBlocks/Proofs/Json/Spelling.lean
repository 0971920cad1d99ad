import FlipperBlocks.Proofs.Json.Reading

/-! Values as they are spelled.

A value is read with the members of its objects as they stand in the text, names that come again
included; what is read otherwise follows from it by resolving them to the last. Whatever passes
through a text level by level, with a budget greater than the number of bytes, does so along the
value that is spelled there. -/
namespace FlipperBlocks.Json

open Byte

/-! ### Names that come again -/

mutual

/-- The value with names that come again resolved to the last, in every object. -/
def resolved : Json → Json
  | .list items => .list (resolvedItems items)
  | .object members => .object (Entries.ofPairs (resolvedMembers members))
  | value => value

def resolvedItems : List Json → List Json
  | [] => []
  | item :: rest => item.resolved :: resolvedItems rest

def resolvedMembers : List (String × Json) → List (String × Json)
  | [] => []
  | (name, value) :: rest => (name, value.resolved) :: resolvedMembers rest

end

theorem resolvedItems_eq (items : List Json) : resolvedItems items = items.map resolved := by
  induction items with
  | nil => rfl
  | cons item rest ih => rw [resolvedItems, ih, List.map_cons]

theorem resolvedMembers_eq (members : List (String × Json)) :
    resolvedMembers members = members.map fun member => (member.1, member.2.resolved) := by
  induction members with
  | nil => rfl
  | cons member rest ih => rw [resolvedMembers, ih, List.map_cons]

@[simp] theorem resolved_list (items : List Json) : (list items).resolved = list (items.map resolved) := by
  rw [resolved, resolvedItems_eq]

@[simp] theorem resolved_object (members : List (String × Json)) : (object members).resolved =
    object (Entries.ofPairs (members.map fun member => (member.1, member.2.resolved))) := by
  rw [resolved, resolvedMembers_eq]

namespace Reader

variable {α : Type}

def spelled : Nat → Reader Json
  | 0 => throw .endOfValue
  | budget + 1 => do
    match ← peek with
    | none => throw .endOfValue
    | some b =>
      if b = openList then skip; return list (← listOf budget (spelled budget))
      else if b = openObject then skip; return object (← objectOf budget (spelled budget))
      else scalar b

/-- A value stands at the start of bytes, and the bytes after it. -/
def Spells (budget : Nat) (bytes : List UInt8) (tree : Json) (rest : List UInt8) : Prop :=
  accepts (spelled budget) bytes = some (tree, rest)

/-! ### The loops of lists and objects -/

/-- Elements stand one after the other, up to the closing bracket. -/
inductive Sequence (next : Bool → Reader Bool) (ends : UInt8) (element : List UInt8 → α → List UInt8 → Prop) :
    Bool → List UInt8 → List α → List UInt8 → Prop
  | nil {first : Bool} {bytes tail : List UInt8} (closed : trim bytes = ends :: tail) :
      Sequence next ends element first bytes [] (ends :: tail)
  | cons {first : Bool} {bytes left between rest : List UInt8} {tree : α} {trees : List α}
      (opened : accepts (next first) bytes = some (true, left)) (head : element left tree between)
      (more : Sequence next ends element false between trees rest) :
      Sequence next ends element first bytes (tree :: trees) rest

/-- A member of an object stands at the start of bytes, after the opening quote of its name. -/
inductive Named (value : List UInt8 → Json → List UInt8 → Prop) (bytes : List UInt8) :
    String × Json → List UInt8 → Prop
  | mk {after start rest : List UInt8} {name : String} {tree : Json}
      (named : accepts Reader.text bytes = some (name, after))
      (parted : accepts colon after = some ((), start)) (head : value start tree rest) :
      Named value bytes (name, tree) rest

abbrev Items (value : List UInt8 → Json → List UInt8 → Prop) := Sequence nextItem closeList value

abbrev Members (value : List UInt8 → Json → List UInt8 → Prop) :=
  Sequence nextMember closeObject (Named value)

variable {bytes tail left : List UInt8} {first : Bool}

theorem nextItem_of_closed (closed : trim bytes = closeList :: tail)
    (first : Bool) : accepts (nextItem first) bytes = some (false, closeList :: tail) := by
  unfold nextItem
  simp [closed]

private theorem accepts_nextItem {b : UInt8}
    (start : trim bytes = b :: left) (first : Bool) : accepts (nextItem first) bytes =
      if b = closeList then some (false, b :: left) else if first then some (true, b :: left)
      else if b = comma ∧ (trim left).head?.any (· != closeList) then some (true, trim left) else none := by
  unfold nextItem
  cases next : trim left with
  | nil => simp [start, next]
  | cons c tail => by_cases closed : c = closeList <;> simp [start, next, closed]

theorem closed_of_nextItem (ended : accepts (nextItem first) bytes = some (false, left)) :
    ∃ tail, trim bytes = closeList :: tail ∧ left = closeList :: tail := by
  cases start : trim bytes with
  | nil =>
    unfold nextItem at ended
    simp [start] at ended
  | cons b tail =>
    rw [accepts_nextItem start] at ended
    split at ended
    · rename_i closed
      cases ended
      exact ⟨tail, by rw [closed], by rw [closed]⟩
    · split at ended
      · cases ended
      · split at ended <;> cases ended

theorem opened_of_nextItem (opened : accepts (nextItem first) bytes = some (true, left)) :
    (∃ b tail, left = b :: tail ∧ b ≠ closeList) ∧ if first then left = trim bytes
      else ∃ tail, trim bytes = comma :: tail ∧ left = trim tail := by
  cases start : trim bytes with
  | nil =>
    unfold nextItem at opened
    simp [start] at opened
  | cons b tail =>
    rw [accepts_nextItem start] at opened
    split at opened
    · cases opened
    rename_i more
    split at opened
    · rename_i isFirst
      cases opened
      exact ⟨⟨b, tail, rfl, more⟩, by rw [if_pos isFirst]⟩
    · rename_i later
      split at opened
      · rename_i comma
        obtain ⟨rfl, inside⟩ := comma
        cases opened
        cases next : trim tail with
        | nil => simp [next] at inside
        | cons c after =>
          refine ⟨⟨c, after, rfl, by simpa [next] using inside⟩, ?_⟩
          rw [if_neg later]
          exact ⟨tail, rfl, next.symm⟩
      · cases opened

theorem length_nextItem
    (opened : accepts (nextItem first) bytes = some (true, left)) : left.length ≤ bytes.length := by
  obtain ⟨-, start⟩ := opened_of_nextItem opened
  have trimmed := length_trim bytes
  split at start
  · rw [start]
    exact trimmed
  · obtain ⟨tail, comma, rfl⟩ := start
    have again := length_trim tail
    rw [comma, List.length_cons] at trimmed
    omega

theorem nextMember_of_closed (closed : trim bytes = closeObject :: tail) (first : Bool) :
    accepts (nextMember first) bytes = some (false, closeObject :: tail) := by
  unfold nextMember
  simp [closed]

private theorem accepts_nextMember {b : UInt8}
    (start : trim bytes = b :: left) (first : Bool) : accepts (nextMember first) bytes =
      if b = closeObject then some (false, b :: left)
      else if first then if b = quote then some (true, left) else none
      else if b = comma ∧ (trim left).head? = some quote then some (true, (trim left).tail) else none := by
  unfold nextMember
  cases next : trim left with
  | nil => simp [start, next]
  | cons c tail => by_cases quoted : c = quote <;> simp [start, next, quoted]

theorem closed_of_nextMember (ended : accepts (nextMember first) bytes = some (false, left)) :
    ∃ tail, trim bytes = closeObject :: tail ∧ left = closeObject :: tail := by
  cases start : trim bytes with
  | nil =>
    unfold nextMember at ended
    simp [start] at ended
  | cons b tail =>
    rw [accepts_nextMember start] at ended
    split at ended
    · rename_i closed
      cases ended
      exact ⟨tail, by rw [closed], by rw [closed]⟩
    · split at ended
      · split at ended <;> cases ended
      · split at ended <;> cases ended

theorem opened_of_nextMember (opened : accepts (nextMember first) bytes = some (true, left)) :
    if first then trim bytes = quote :: left
    else ∃ tail, trim bytes = comma :: tail ∧ trim tail = quote :: left := by
  cases start : trim bytes with
  | nil =>
    unfold nextMember at opened
    simp [start] at opened
  | cons b tail =>
    rw [accepts_nextMember start] at opened
    split at opened
    · cases opened
    split at opened
    · rename_i isFirst
      rw [if_pos isFirst]
      split at opened
      · rename_i quoted
        cases opened
        rw [quoted]
      · cases opened
    · rename_i later
      rw [if_neg later]
      split at opened
      · rename_i comma
        cases next : trim tail with
        | nil => simp [next] at comma
        | cons c after =>
          rw [next] at comma opened
          obtain ⟨rfl, quoted⟩ := comma
          cases quoted
          cases opened
          exact ⟨tail, rfl, next⟩
      · cases opened

theorem length_nextMember (opened : accepts (nextMember first) bytes = some (true, left)) :
    left.length < bytes.length := by
  have start := opened_of_nextMember opened
  have trimmed := length_trim bytes
  split at start
  · rw [start, List.length_cons] at trimmed
    omega
  · obtain ⟨tail, comma, quoted⟩ := start
    have again := length_trim tail
    rw [comma, List.length_cons] at trimmed
    rw [quoted, List.length_cons] at again
    omega

theorem length_colon (parted : accepts colon bytes = some ((), left)) : left.length < bytes.length := by
  unfold colon at parted
  have trimmed := length_trim bytes
  cases start : trim bytes with
  | nil => simp [start] at parted
  | cons b tail =>
    simp only [accepts_bind, accepts_peek, Option.bind_some, start, List.head?_cons, accepts_ite,
      accepts_skip, accepts_throw, List.drop_succ_cons, List.drop_zero] at parted
    rw [start, List.length_cons] at trimmed
    split at parted
    · cases parted
      omega
    · cases parted

/-- The loop goes on in the way that the closing bracket tells. -/
structure Brackets (next : Bool → Reader Bool) (ends : UInt8) : Prop where
  closed {bytes tail : List UInt8} : trim bytes = ends :: tail →
    ∀ first, accepts (next first) bytes = some (false, ends :: tail)
  ended {first : Bool} {bytes left : List UInt8} : accepts (next first) bytes = some (false, left) →
    ∃ tail, trim bytes = ends :: tail ∧ left = ends :: tail
  shorter {first : Bool} {bytes left : List UInt8} : accepts (next first) bytes = some (true, left) →
    left.length ≤ bytes.length

theorem brackets_nextItem : Brackets nextItem closeList :=
  ⟨nextItem_of_closed, closed_of_nextItem, length_nextItem⟩

theorem brackets_nextMember : Brackets nextMember closeObject :=
  ⟨nextMember_of_closed, closed_of_nextMember, fun opened => (length_nextMember opened).le⟩

section

variable {next : Bool → Reader Bool} {ends : UInt8} {element : List UInt8 → α → List UInt8 → Prop}
  {cut : Fault}

variable {first : Bool} {bytes rest : List UInt8} {trees : List α}

theorem sequence_of_accepts (brackets : Brackets next ends) {reader : Reader α}
    (reads : ∀ {bytes tree rest}, accepts reader bytes = some (tree, rest) → element bytes tree rest)
    {budget : Nat} (read : accepts (each cut next reader budget first) bytes = some (trees, rest)) :
    Sequence next ends element first bytes trees rest := by
  induction budget generalizing first bytes trees with
  | zero => cases read
  | succ budget ih =>
    rw [each, accepts_bind] at read
    obtain ⟨⟨another, left⟩, next, read⟩ := Option.bind_eq_some_iff.1 read
    cases another with
    | false =>
      cases read
      obtain ⟨tail, closed, rfl⟩ := brackets.ended next
      exact .nil closed
    | true =>
      simp only [if_true, accepts_bind] at read
      obtain ⟨⟨tree, between⟩, head, read⟩ := Option.bind_eq_some_iff.1 read
      obtain ⟨⟨more, after⟩, others, equal⟩ := Option.bind_eq_some_iff.1 read
      cases equal
      exact .cons next (reads head) (ih others)

theorem Sequence.closed {first : Bool} {bytes rest : List UInt8} {trees : List α}
    (all : Sequence next ends element first bytes trees rest) : ∃ tail, rest = ends :: tail := by
  induction all with
  | nil closed => exact ⟨_, rfl⟩
  | cons _ _ _ ih => exact ih

/-! ### Progress -/

theorem Sequence.length
    (all : Sequence next ends element first bytes trees rest) (brackets : Brackets next ends)
    (shorter : ∀ {bytes tree rest}, element bytes tree rest → rest.length < bytes.length) :
    rest.length ≤ bytes.length := by
  induction all with
  | @nil first bytes tail closed => exact closed ▸ length_trim bytes
  | cons opened head _ ih =>
    have next := brackets.shorter opened
    have item := shorter head
    omega

theorem Sequence.follows {first : Bool} {bytes rest : List UInt8} {trees : List α}
    (all : Sequence next ends element first bytes trees rest) (brackets : Brackets next ends)
    (shorter : ∀ {bytes tree rest}, element bytes tree rest → rest.length < bytes.length)
    {β : Type} {reader : Reader β} {meaning : α → Option β} {more most : Nat}
    (follows : ∀ {bytes tree rest}, element bytes tree rest → bytes.length < more →
      accepts reader bytes = (meaning tree).map fun made => (made, rest))
    (enough : bytes.length < more) (room : bytes.length < most) :
    accepts (each cut next reader most first) bytes = (trees.mapM meaning).map fun made => (made, rest) := by
  induction all generalizing most with
  | @nil first bytes tail closed =>
    obtain _ | most := most
    · omega
    rw [each, accepts_bind, brackets.closed closed]
    rfl
  | @cons first bytes left between rest tree trees opened head _ ih =>
    obtain _ | most := most
    · omega
    have started := brackets.shorter opened
    have item := shorter head
    rw [each, accepts_bind, opened, Option.bind_some]
    simp only [if_true, accepts_bind, accepts_pure, List.mapM_cons]
    rw [follows head (by omega)]
    cases meaning tree with
    | none => rfl
    | some made =>
      rw [Option.map_some, Option.bind_some, ih (by omega) (by omega)]
      cases trees.mapM meaning <;> rfl

end

theorem each_map {next : Bool → Reader Bool} {cut : Fault} {reader other : Reader α} (f : α → α)
    (same : ∀ bytes, accepts other bytes = (accepts reader bytes).map fun read => (f read.1, read.2))
    (budget : Nat) (first : Bool) (bytes : List UInt8) : accepts (each cut next other budget first) bytes =
      (accepts (each cut next reader budget first) bytes).map fun read => (read.1.map f, read.2) := by
  induction budget generalizing first bytes with
  | zero => rfl
  | succ budget ih =>
    simp only [each, accepts_bind, accepts_ite, accepts_pure, same, ih]
    cases accepts (next first) bytes with
    | none => rfl
    | some next' =>
      obtain ⟨another, left⟩ := next'
      cases another with
      | false => rfl
      | true =>
        simp only [Option.bind_some, if_true]
        cases accepts reader left with
        | none => rfl
        | some head =>
          simp only [Option.bind_some, Option.map_some]
          cases accepts (each cut next reader budget false) head.2 <;> rfl

variable {reader : Reader Json} {budget : Nat}

theorem named_of_accepts {bytes rest : List UInt8} {tree : String × Json}
    (read : accepts (member reader) bytes = some (tree, rest)) :
    Named (fun bytes tree rest => accepts reader bytes = some (tree, rest)) bytes tree rest := by
  simp only [member, accepts_bind] at read
  obtain ⟨⟨name, after⟩, named, read⟩ := Option.bind_eq_some_iff.1 read
  obtain ⟨⟨_, start⟩, parted, read⟩ := Option.bind_eq_some_iff.1 read
  obtain ⟨⟨tree, rest⟩, head, equal⟩ := Option.bind_eq_some_iff.1 read
  cases equal
  exact .mk named parted head

theorem Named.length {value : List UInt8 → Json → List UInt8 → Prop}
    (shorter : ∀ {bytes tree rest}, value bytes tree rest → rest.length < bytes.length)
    {bytes rest : List UInt8} {tree : String × Json} (member : Named value bytes tree rest) :
    rest.length < bytes.length := by
  obtain ⟨named, parted, head⟩ := member
  have name := length_skip_text (skip_text named)
  have colon := length_colon parted
  have value := shorter head
  omega

theorem member_map {other : Reader Json} {f : Json → Json}
    (same : ∀ bytes, accepts other bytes = (accepts reader bytes).map fun read => (f read.1, read.2))
    (bytes : List UInt8) : accepts (member other) bytes =
      (accepts (member reader) bytes).map fun read => ((read.1.1, f read.1.2), read.2) := by
  simp only [member, accepts_bind, accepts_pure, same, Option.map_bind, Option.bind_map, Function.comp_def]
  rfl

theorem accepts_endList (tail : List UInt8) : accepts endList (closeList :: tail) = some ((), tail) := rfl

/-! ### One level of a value -/

inductive Level (value : List UInt8 → Json → List UInt8 → Prop) (bytes : List UInt8) :
    Json → List UInt8 → Prop
  | scalar {b : UInt8} {left rest : List UInt8} {tree : Json} (start : trim bytes = b :: left)
      (noList : b ≠ openList) (noObject : b ≠ openObject)
      (read : accepts (scalar b) (b :: left) = some (tree, rest)) : Level value bytes tree rest
  | list {left tail : List UInt8} {trees : List Json} (start : trim bytes = openList :: left)
      (all : Items value true left trees (closeList :: tail)) :
      Level value bytes (.list trees) tail
  | object {left tail : List UInt8} {trees : List (String × Json)}
      (start : trim bytes = openObject :: left)
      (all : Members value true left trees (closeObject :: tail)) :
      Level value bytes (.object trees) tail

theorem level_of_spells {bytes rest : List UInt8} {tree : Json}
    (spells : Spells (budget + 1) bytes tree rest) : Level (Spells budget) bytes tree rest := by
  unfold Spells at spells
  rw [spelled, accepts_bind, accepts_peek, Option.bind_some] at spells
  cases start : trim bytes with
  | nil =>
    rw [start] at spells
    cases spells
  | cons b left =>
    rw [start] at spells
    simp only [List.head?_cons, accepts_ite, accepts_bind, accepts_skip, Option.bind_some,
      List.drop_succ_cons, List.drop_zero, accepts_pure] at spells
    by_cases isList : b = openList
    · rw [if_pos isList] at spells
      subst isList
      obtain ⟨⟨trees, tail⟩, read, equal⟩ := Option.bind_eq_some_iff.1 spells
      cases equal
      rw [listOf, accepts_bind] at read
      obtain ⟨⟨trees, left⟩, read, read'⟩ := Option.bind_eq_some_iff.1 read
      have all := sequence_of_accepts brackets_nextItem id read
      obtain ⟨tail, rfl⟩ := all.closed
      rw [accepts_bind, accepts_endList] at read'
      cases read'
      exact .list start all
    rw [if_neg isList] at spells
    by_cases isObject : b = openObject
    · rw [if_pos isObject] at spells
      subst isObject
      obtain ⟨⟨trees, tail⟩, read, equal⟩ := Option.bind_eq_some_iff.1 spells
      cases equal
      rw [objectOf, accepts_bind] at read
      obtain ⟨⟨trees, left⟩, read, read'⟩ := Option.bind_eq_some_iff.1 read
      have all := sequence_of_accepts brackets_nextMember named_of_accepts read
      obtain ⟨tail, rfl⟩ := all.closed
      cases read'
      exact .object start all
    · rw [if_neg isObject] at spells
      exact .scalar start isList isObject spells

theorem length_spells {bytes rest : List UInt8} {tree : Json}
    (spells : Spells budget bytes tree rest) : rest.length < bytes.length := by
  induction budget generalizing bytes tree rest with
  | zero => cases spells
  | succ budget ih =>
    have trimmed := length_trim bytes
    cases level_of_spells spells with
    | scalar start _ _ read =>
      have passed := (scalar_passed read).2.1
      rw [start, List.length_cons] at trimmed
      omega
    | list start all =>
      have passed := all.length brackets_nextItem ih
      rw [start, List.length_cons] at trimmed
      rw [List.length_cons] at passed
      omega
    | object start all =>
      have passed := all.length brackets_nextMember (Named.length ih)
      rw [start, List.length_cons] at trimmed
      rw [List.length_cons] at passed
      omega

/-! ### Readers that follow a value -/

/-- With a budget greater than the number of bytes, a reader makes of a value that stands there what
the function tells, and leaves the bytes after it. -/
def Follows (budget : Nat) (reader : Nat → Reader α) (meaning : Json → Option α) : Prop :=
  ∀ {bytes tree rest}, Spells budget bytes tree rest → ∀ more, bytes.length < more →
    accepts (reader more) bytes = (meaning tree).map fun made => (made, rest)

section

variable {budget : Nat} {reader : Nat → Reader α} {meaning : Json → Option α}
  (follows : Follows budget reader meaning)

include follows

variable {bytes tail : List UInt8} {more most : Nat}

theorem listOf_follows {trees : List Json} (all : Items (Spells budget) true bytes trees (closeList :: tail))
    (enough : bytes.length < more) (room : bytes.length < most) : accepts (listOf most (reader more)) bytes =
      (trees.mapM meaning).map fun made => (made, tail) := by
  rw [listOf, accepts_bind,
    all.follows brackets_nextItem length_spells (fun spells => follows spells more) enough room]
  cases trees.mapM meaning <;> rfl

private theorem member_follows {rest : List UInt8} {tree : String × Json}
    (member : Named (Spells budget) bytes tree rest) (enough : bytes.length < more) :
    accepts (Reader.member (reader more)) bytes =
      ((meaning tree.2).map fun made => (tree.1, made)).map fun made => (made, rest) := by
  obtain ⟨named, parted, head⟩ := member
  have quoted := length_skip_text (skip_text named)
  have divided := length_colon parted
  simp only [Reader.member, accepts_bind, named, parted, Option.bind_some, follows head more (by omega)]
  cases meaning _ <;> rfl

theorem objectOf_follows {trees : List (String × Json)}
    (all : Members (Spells budget) true bytes trees (closeObject :: tail))
    (enough : bytes.length < more) (room : bytes.length < most) :
    accepts (objectOf most (reader more)) bytes =
      (trees.mapM fun tree => (meaning tree.2).map fun made => (tree.1, made)).map
        fun made => (made, tail) := by
  rw [objectOf, accepts_bind, all.follows brackets_nextMember (Named.length length_spells)
    (member_follows follows) enough room]
  cases trees.mapM fun tree => (meaning tree.2).map fun made => (tree.1, made) <;> rfl

end

theorem spelled_follows (budget : Nat) : Follows budget spelled some := by
  induction budget with
  | zero => exact fun spells => by cases spells
  | succ budget ih =>
    intro bytes tree rest spells more enough
    obtain _ | more := more
    · omega
    have trimmed := length_trim bytes
    rw [spelled, accepts_bind, accepts_peek, Option.bind_some]
    cases level_of_spells spells with
    | scalar start noList noObject read =>
      simp only [start, List.head?_cons, if_neg noList, if_neg noObject]
      exact read
    | @list left tail trees start all =>
      rw [start, List.length_cons] at trimmed
      have short : left.length < more := by omega
      have inner := listOf_follows ih all short short
      have same : trees.mapM some = some (trees.map id) := List.mapM_pure
      rw [same] at inner
      simp [start, inner]
    | @object left tail trees start all =>
      rw [start, List.length_cons] at trimmed
      have short : left.length < more := by omega
      have inner := objectOf_follows ih all short short
      have same : (trees.mapM fun tree => (some tree.2).map fun made => (tree.1, made)) =
          some (trees.map id) := List.mapM_pure
      rw [same] at inner
      have different : openObject ≠ openList := by decide
      simp [start, inner, different]

/-! ### Reading and resolving -/

theorem resolved_of_scalar {b : UInt8} {left rest : List UInt8} {tree : Json}
    (scalar : Scalar b left tree rest) : tree.resolved = tree := by
  cases scalar with
  | null _ _ => rfl
  | text _ _ => rfl
  | truth _ _ => rfl
  | number _ _ numeric => cases numeric <;> rfl

theorem accepts_value (budget : Nat) (bytes : List UInt8) : accepts (value budget) bytes =
      (accepts (spelled budget) bytes).map fun read => (read.1.resolved, read.2) := by
  induction budget generalizing bytes with
  | zero => rfl
  | succ budget ih =>
    rw [value, spelled, accepts_bind, accepts_bind, accepts_peek]
    simp only [Option.bind_some]
    cases start : trim bytes with
    | nil => rfl
    | cons b left =>
      simp only [List.head?_cons, accepts_ite, accepts_bind, accepts_skip, Option.bind_some,
        List.drop_succ_cons, List.drop_zero, accepts_pure, listOf, objectOf, each_map resolved ih,
        each_map (fun tree : String × Json => (tree.1, tree.2.resolved)) (member_map ih)]
      by_cases isList : b = openList
      · simp only [if_pos isList]
        cases accepts (each .endOfList nextItem (spelled budget) budget true) left with
        | none => rfl
        | some read =>
          simp only [Option.map_some, Option.bind_some]
          cases accepts endList read.2 with
          | none => rfl
          | some ended => simp
      simp only [if_neg isList]
      by_cases isObject : b = openObject
      · simp only [if_pos isObject]
        cases accepts (each .endOfObject nextMember (member (spelled budget)) budget true) left with
        | none => rfl
        | some read => simp
      · simp only [if_neg isObject]
        cases read : accepts (scalar b) (b :: left) with
        | none => rfl
        | some pair => rw [Option.map_some, resolved_of_scalar (scalar_passed read).1]

theorem accepts_finish (bytes : List UInt8) :
    accepts finish bytes = if trim bytes = [] then some ((), []) else none := by
  unfold finish
  cases start : trim bytes <;> simp [start]

theorem run'_eq_ok_iff {reader : Reader α} {bytes : List UInt8} {a : α} :
    StateT.run' reader bytes = .ok a ↔ ∃ rest, accepts reader bytes = some (a, rest) := by
  have run : StateT.run' reader bytes = (reader bytes).map Prod.fst := rfl
  rw [run]
  unfold accepts
  cases reader bytes with
  | error fault => simp [Except.map, Except.toOption]
  | ok read =>
    obtain ⟨b, rest⟩ := read
    simp [Except.map, Except.toOption]

end Reader

def Spelling (bytes : List UInt8) (tree : Json) : Prop :=
  ∃ budget rest, Reader.Spells budget bytes tree rest ∧ Reader.trim rest = []

open Reader in
theorem read_eq_ok_iff {bytes : List UInt8} {value : Json} :
    read bytes = .ok value ↔ ∃ tree, Spelling bytes tree ∧ value = tree.resolved := by
  unfold read
  rw [run'_eq_ok_iff]
  simp only [accepts_bind, accepts_pure, accepts_value, accepts_finish]
  constructor
  · rintro ⟨rest, all⟩
    cases spells : accepts (spelled (bytes.length + 1)) bytes with
    | none =>
      rw [spells] at all
      cases all
    | some read =>
      obtain ⟨tree, left⟩ := read
      rw [spells] at all
      simp only [Option.map_some, Option.bind_some] at all
      split at all
      · rename_i blank
        cases all
        exact ⟨tree, ⟨_, left, spells, blank⟩, rfl⟩
      · cases all
  · rintro ⟨tree, ⟨budget, left, spells, blank⟩, rfl⟩
    refine ⟨[], ?_⟩
    rw [spelled_follows budget spells _ (Nat.lt_succ_self _)]
    simp [blank]

end FlipperBlocks.Json
