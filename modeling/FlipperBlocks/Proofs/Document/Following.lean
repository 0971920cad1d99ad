import FlipperBlocks.Document.Read
import FlipperBlocks.Proofs.Json.Spelling

/-! Reading a document follows the value that it spells.

What a shape takes of a value as it is spelled is said on the value itself, and reading the shape from
bytes gives just that. Members that a record does not know are passed over. -/
namespace FlipperBlocks

open Json Json.Reader

namespace Json.Reader

/-! ### Values that are passed over -/

theorem accepts_skip_trim (budget : Nat) (bytes : List UInt8) :
    accepts (Skip.value budget) (trim bytes) = accepts (Skip.value budget) bytes := by
  cases budget with
  | zero => rfl
  | succ budget => rw [Skip.value, accepts_bind, accepts_bind, accepts_peek, accepts_peek, trim_trim]

theorem skip_name {left after start bytes : List UInt8} {name : String}
    (quoted : trim bytes = Byte.quote :: left) (named : accepts Reader.text left = some (name, after))
    (parted : accepts colon after = some ((), start)) : accepts Skip.name bytes = some ((), start) := by
  unfold Skip.name
  simp [quoted, skip_text named, parted]

/-- Where an element stands, the other reader passes over it from before the name that it may have. -/
def Passes {α : Type} (next : Bool → Reader Bool) (ends : UInt8) (element : List UInt8 → α → List UInt8 → Prop)
    (skipper : Reader Unit) (more : Nat) : Prop :=
  ∀ first bytes left tree between, accepts (next first) bytes = some (true, left) →
    element left tree between → bytes.length < more → between.length < bytes.length ∧
      ∃ start, accepts skipper start = some ((), between) ∧
        if first then trim bytes = start ∧ ∃ b tail, start = b :: tail ∧ b ≠ ends
        else trim bytes = Byte.comma :: start

section

variable {α : Type} {next : Bool → Reader Bool} {ends : UInt8} {element : List UInt8 → α → List UInt8 → Prop}
  {cut unended : Fault} {skipper : Reader Unit} {more : Nat}

theorem Passes.others (passes : Passes next ends element skipper more) (different : Byte.comma ≠ ends)
    {bytes tail : List UInt8} {trees : List α} (all : Sequence next ends element false bytes trees (ends :: tail))
    {most : Nat} (enough : bytes.length < more) (room : bytes.length < most) :
    accepts (Skip.others ends cut unended skipper most) bytes = some ((), tail) := by
  generalize isFirst : false = first, ended : ends :: tail = rest at all
  induction all generalizing most with
  | @nil first bytes tail closed =>
    cases ended
    obtain _ | most := most
    · omega
    rw [Skip.others]
    simp [closed]
  | @cons first bytes left between rest tree trees opened head _ ih =>
    subst isFirst
    obtain _ | most := most
    · omega
    obtain ⟨shorter, start, passed, comma⟩ := passes _ _ _ _ _ opened head enough
    have others := @ih most (by omega) (by omega) rfl ended
    rw [if_neg Bool.false_ne_true] at comma
    rw [Skip.others]
    simp [comma, different, passed, others]

theorem Passes.each (passes : Passes next ends element skipper more) (different : Byte.comma ≠ ends)
    {bytes tail : List UInt8} {trees : List α} (all : Sequence next ends element true bytes trees (ends :: tail))
    (enough : bytes.length < more) :
    accepts (Skip.each ends cut unended more skipper) bytes = some ((), tail) := by
  unfold Skip.each
  cases all with
  | nil closed => simp [closed]
  | cons opened head others =>
    obtain ⟨shorter, start, passed, first⟩ := passes _ _ _ _ _ opened head enough
    rw [if_pos rfl] at first
    obtain ⟨same, b, left, rfl, open_⟩ := first
    have rest := @Passes.others _ _ _ _ cut unended _ _ passes different _ _ _ others more (by omega) (by omega)
    simp [same, open_, passed, rest]

end

section

variable {budget more : Nat} (follows : Follows budget Skip.value fun _ => some ())

include follows

theorem passes_items : Passes nextItem Byte.closeList (Spells budget) (Skip.value more) more := by
  intro first bytes left tree between opened head enough
  have started := length_nextItem opened
  have item := length_spells head
  have passed := follows head more (by omega)
  obtain ⟨inside, same⟩ := opened_of_nextItem opened
  refine ⟨by omega, ?_⟩
  cases first with
  | true => exact ⟨left, passed, same.symm, inside⟩
  | false =>
    obtain ⟨start, comma, rfl⟩ := same
    exact ⟨start, (accepts_skip_trim more start).symm.trans passed, comma⟩

theorem passes_members : Passes nextMember Byte.closeObject (Named (Spells budget))
    (do Skip.name; Skip.value more) more := by
  intro first bytes left tree between opened member enough
  have started := length_nextMember opened
  obtain ⟨named, parted, head⟩ := member
  have quoted := length_skip_text (skip_text named)
  have divided := length_colon parted
  have value := length_spells head
  have passed (start : List UInt8) (quote : trim start = Byte.quote :: left) :
      accepts (do Skip.name; Skip.value more) start = some ((), between) := by
    simp [skip_name quote named parted, follows head more (by omega)]
  have quote := opened_of_nextMember opened
  refine ⟨by omega, ?_⟩
  cases first with
  | true => exact ⟨_, passed _ ((congrArg trim quote).symm.trans ((trim_trim bytes).trans quote)), quote, _, _, rfl,
      by decide⟩
  | false =>
    obtain ⟨start, comma, quote⟩ := quote
    exact ⟨start, passed start quote, comma⟩

end

theorem skip_follows (budget : Nat) : Follows budget Skip.value fun _ => some () := by
  induction budget with
  | zero => exact fun spells => by cases spells
  | succ budget ih =>
    intro bytes tree rest spells more enough
    obtain _ | more := more
    · omega
    have trimmed := length_trim bytes
    cases level_of_spells spells with
    | scalar start noList noObject read => exact (scalar_passed read).2.2 more bytes start
    | list start all =>
      rw [start, List.length_cons] at trimmed
      rw [accepts_skip_value more start]
      exact (passes_items ih).each (by decide) all (by omega)
    | object start all =>
      rw [start, List.length_cons] at trimmed
      rw [accepts_skip_value more start]
      exact (passes_members ih).each (by decide) all (by omega)

theorem accepts_spelled_trim (budget : Nat) (bytes : List UInt8) :
    accepts (spelled budget) (trim bytes) = accepts (spelled budget) bytes := by
  cases budget with
  | zero => rfl
  | succ budget => rw [spelled, accepts_bind, accepts_bind, accepts_peek, accepts_peek, trim_trim]

theorem accepts_unexpected (b : UInt8) (expected : String) (bytes : List UInt8) {α : Type} :
    accepts (unexpected b expected : Reader α) bytes = none := by
  unfold unexpected
  simp

theorem null_of_spells {budget : Nat} {bytes left rest : List UInt8} {tree : Json}
    (spells : Spells budget bytes tree rest) (start : trim bytes = Byte.lowerN :: left) :
    tree = .null ∧ accepts (word Byte.afterN) left = some ((), rest) := by
  cases budget with
  | zero => cases spells
  | succ budget =>
    cases level_of_spells spells with
    | scalar other _ _ read =>
      rw [start] at other
      cases other
      cases (scalar_passed read).1 with
      | null _ read => exact ⟨rfl, read⟩
      | text quoted _ => cases quoted
      | truth noNull _ => exact absurd rfl noNull
      | number noNull _ _ => exact absurd rfl noNull
    | list other _ | object other _ =>
      rw [start] at other
      cases other

theorem start_of_null {budget : Nat} {bytes rest : List UInt8}
    (spells : Spells budget bytes .null rest) : (trim bytes).head? = some Byte.lowerN := by
  cases budget with
  | zero => cases spells
  | succ budget =>
    cases level_of_spells spells with
    | scalar start _ _ read =>
      cases (scalar_passed read).1 with
      | null first _ => rw [start, first, List.head?_cons]
      | number _ _ numeric => cases numeric

end Json.Reader

namespace Document

/-! ### What a shape takes -/

def Member.given (member : Member) (made : Option member.shape.Carrier) :
    Json → Option (Option member.shape.Carrier)
  | .null => if member.nullable then some none else made.map some
  | _ => made.map some

/-- Only a place for anything takes a scalar that is no text. -/
def Shape.takeScalar (shape : Shape) (value : Json) : Option shape.Carrier :=
  match shape with
  | .anything => some value
  | _ => none

mutual

def Shape.take (shape : Shape) : Json → Option shape.Carrier
  | .text contents =>
    match shape with
    | .text => some contents
    | .anything => some (.text contents)
    | _ => none
  | .list values =>
    match shape with
    | .list item => item.takeItems values
    | .anything => some (Json.list values).resolved
    | .record form =>
      (form.takePositions form.members .empty values).bind fun store => (form.build store).toOption
    | _ => none
  | .object members =>
    match shape with
    | .table entry => (entry.takeEntries members).map Entries.ofPairs
    | .anything => some (Json.object members).resolved
    | .record form => (form.takeMembers .empty members).bind fun store => (form.build store).toOption
    | _ => none
  | .null => shape.takeScalar .null
  | .truth value => shape.takeScalar (.truth value)
  | .integer value => shape.takeScalar (.integer value)
  | .float value => shape.takeScalar (.float value)

def Shape.takeItems (item : Shape) : List Json → Option (List item.Carrier)
  | [] => some []
  | value :: rest => do
    let head ← item.take value
    return head :: (← item.takeItems rest)

def Shape.takeEntries (entry : Shape) : List (String × Json) → Option (List (String × entry.Carrier))
  | [] => some []
  | (name, value) :: rest => do
    let head ← entry.take value
    return (name, head) :: (← entry.takeEntries rest)

def Form.takeMembers (form : Form) (store : Store) : List (String × Json) → Option Store
  | [] => some store
  | (name, value) :: rest =>
    match form.member? name with
    | none => form.takeMembers store rest
    | some member =>
      if store.has member then none
      else (member.given (member.shape.take value) value).bind fun given =>
        form.takeMembers (store.set member given) rest

def Form.takePositions (form : Form) (members : List Member) (store : Store) : List Json → Option Store
  | [] => if members.any Member.requiredInList then none else some store
  | value :: rest =>
    match members with
    | [] => none
    | member :: members =>
      (member.given (member.shape.take value) value).bind fun given =>
        form.takePositions members (store.set member given) rest

end

theorem Shape.takeItems_eq (item : Shape) (values : List Json) :
    item.takeItems values = values.mapM item.take := by
  induction values with
  | nil => rfl
  | cons value rest ih => rw [takeItems, ih, List.mapM_cons]

theorem Shape.takeEntries_eq (entry : Shape) (members : List (String × Json)) : entry.takeEntries members =
      members.mapM fun member => (entry.take member.2).map fun made => (member.1, made) := by
  induction members with
  | nil => rfl
  | cons member rest ih =>
    rw [takeEntries, ih, List.mapM_cons]
    cases entry.take member.2 <;> rfl

theorem Shape.take_anything (value : Json) : Shape.anything.take value = some value.resolved := by
  cases value <;> rfl

/-! ### Reading takes what the shape takes -/

section

variable {budget : Nat}

theorem Member.read_follows (member : Member) {reader : Nat → Reader member.shape.Carrier}
    {meaning : Json → Option member.shape.Carrier} (follows : Follows budget reader meaning) :
    Follows budget (fun more => member.read (reader more))
      (fun tree => member.given (meaning tree) tree) := by
  intro bytes tree rest spells more enough
  have trimmed := length_trim bytes
  have within := follows (show Spells budget (trim bytes) tree rest by
    unfold Spells
    rw [accepts_spelled_trim]
    exact spells) more (by omega)
  unfold Member.read
  simp only [accepts_bind, accepts_peek, Option.bind_some, accepts_ite, accepts_skip, accepts_pure, within]
  by_cases absent : (member.nullable && decide ((trim bytes).head? = some Byte.lowerN)) = true
  · rw [if_pos absent]
    obtain ⟨nullable, start⟩ := Bool.and_eq_true_iff.1 absent
    have start := of_decide_eq_true start
    cases opened : trim bytes with
    | nil =>
      rw [opened] at start
      cases start
    | cons b left =>
      rw [opened] at start
      cases start
      obtain ⟨rfl, word⟩ := null_of_spells spells opened
      simp [Member.given, nullable, word]
  · rw [if_neg absent]
    have kept : member.given (meaning tree) tree = (meaning tree).map some := by
      cases tree with
      | null =>
        rw [start_of_null spells, decide_eq_true rfl, Bool.and_true] at absent
        rw [Member.given, if_neg absent]
      | _ => rfl
    rw [kept]
    cases meaning tree <;> rfl

variable (follows : ∀ shape : Shape, Follows budget shape.read shape.take)

include follows

theorem Form.readMembers_follows (form : Form) {first : Bool} {bytes rest : List UInt8}
    {trees : List (String × Json)} (all : Members (Spells budget) first bytes trees rest)
    {more most : Nat} (enough : bytes.length < more) (room : bytes.length < most) (store : Store) :
    accepts (form.readMembers (fun member => member.shape.read more) (Skip.value more) most first
      store) bytes = (form.takeMembers store trees).map fun made => (made, rest) := by
  induction all generalizing most store with
  | @nil first bytes tail closed =>
    obtain _ | most := most
    · omega
    rw [Form.readMembers, accepts_bind, nextMember_of_closed closed]
    rfl
  | @cons first bytes left next rest member trees opened member _ ih =>
    obtain _ | most := most
    · omega
    obtain @⟨after, start, _, name, tree, named, parted, head⟩ := member
    have started := length_nextMember opened
    have quoted := length_skip_text (skip_text named)
    have divided := length_colon parted
    have value := length_spells head
    rw [Form.readMembers, accepts_bind, opened, Option.bind_some, Form.takeMembers]
    simp only [if_true, accepts_bind]
    rw [named, Option.bind_some]
    cases known : form.member? name with
    | none =>
      have passed := skip_follows budget head more (by omega)
      have others := ih (show next.length < more by omega) (show next.length < most by omega) store
      simp [parted, passed, others]
    | some member =>
      by_cases again : store.has member = true
      · simp [again]
      · have given : accepts (member.read (member.shape.read more)) start =
            (member.given (member.shape.take tree) tree).map fun made => (made, next) :=
          member.read_follows (follows member.shape) head more (by omega)
        simp only [again, Bool.false_eq_true, if_false, accepts_bind, parted, Option.bind_some]
        rw [given]
        cases member.given (member.shape.take tree) tree with
        | none => rfl
        | some made => exact @ih most (by omega) (by omega) _

theorem Form.readObject_follows (form : Form) {bytes tail : List UInt8} {trees : List (String × Json)}
    (all : Members (Spells budget) true bytes trees (Byte.closeObject :: tail)) {more : Nat}
    (enough : bytes.length < more) :
    accepts (form.readObject more fun member => member.shape.read more) bytes =
      ((form.takeMembers .empty trees).bind fun store => (form.build store).toOption).map
        fun made => (made, tail) := by
  rw [Form.readObject, accepts_bind, form.readMembers_follows follows all enough enough]
  cases form.takeMembers .empty trees with
  | none => rfl
  | some store =>
    simp only [Option.map_some, Option.bind_some, accepts_bind, accepts_lift]
    cases form.build store <;> rfl

theorem Form.readItems_follows (form : Form) {more : Nat} (members : List Member) {index : Nat}
    {bytes tail : List UInt8} {trees : List Json} (store : Store)
    (all : Items (Spells budget) (index == 0) bytes trees (Byte.closeList :: tail))
    (begun : members = [] → index ≠ 0) (enough : bytes.length < more) : accepts (do
        let store ← form.readItems (fun member => member.shape.read more) members index store
        let record ← form.build store
        endList
        return record) bytes =
      ((form.takePositions members store trees).bind fun store =>
        (form.build store).toOption).map fun made => (made, tail) := by
  induction members generalizing index bytes trees store with
  | nil =>
    have later : (index == 0) = false := beq_false_of_ne (begun rfl)
    rw [later] at all
    rw [Form.readItems, accepts_bind, accepts_pure, Option.bind_some]
    simp only [accepts_bind, accepts_lift]
    cases all with
    | nil closed =>
      have ended : accepts endList bytes = some ((), tail) := by
        unfold endList
        simp [closed]
      rw [Form.takePositions, List.any_nil, if_neg Bool.false_ne_true, Option.bind_some]
      cases form.build store with
      | error fault => rfl
      | ok record => simp [Except.toOption, ended]
    | cons opened _ _ =>
      obtain ⟨-, after, comma, -⟩ := opened_of_nextItem opened
      have different : Byte.comma ≠ Byte.closeList := by decide
      have unended : accepts endList bytes = none := by
        unfold endList
        simp [comma, different]
      rw [Form.takePositions]
      cases form.build store with
      | error fault => rfl
      | ok record => simp [Except.toOption, unended]
  | cons member members ih =>
    simp only [accepts_bind] at ih
    simp only [Form.readItems, accepts_bind]
    cases all with
    | nil closed =>
      have again : trim (Byte.closeList :: tail) = Byte.closeList :: tail := rfl
      have shorter : (Byte.closeList :: tail).length ≤ bytes.length := closed ▸ length_trim bytes
      have others := @ih (index + 1) _ [] store (.nil again) (fun _ => Nat.succ_ne_zero _) (by omega)
      rw [nextItem_of_closed closed, Form.takePositions, List.any_cons]
      cases required : member.requiredInList with
      | true => rfl
      | false => exact others
    | @cons _ _ left next _ tree trees opened head rest =>
      have started := length_nextItem opened
      have item := length_spells head
      have given : accepts (member.read (member.shape.read more)) left =
          (member.given (member.shape.take tree) tree).map fun made => (made, next) :=
        member.read_follows (follows member.shape) head more (by omega)
      rw [opened, Form.takePositions]
      simp only [Option.bind_some, if_true, accepts_bind, given]
      cases member.given (member.shape.take tree) tree with
      | none => rfl
      | some made =>
        exact @ih (index + 1) next _ (store.set member made) rest (fun _ => Nat.succ_ne_zero _) (by omega)

theorem Form.readList_follows (form : Form) {bytes tail : List UInt8} {trees : List Json}
    (all : Items (Spells budget) true bytes trees (Byte.closeList :: tail)) {more : Nat}
    (enough : bytes.length < more) : accepts (form.readList fun member => member.shape.read more) bytes =
      ((form.takePositions form.members .empty trees).bind fun store =>
        (form.build store).toOption).map fun made => (made, tail) :=
  form.readItems_follows follows form.members .empty all (by cases form <;> simp [Form.members])
    enough

end

theorem Shape.take_scalar {b : UInt8} {left rest : List UInt8} {tree : Json}
    (scalar : Scalar b left tree rest) {shape : Shape} (noText : shape ≠ .text)
    (something : shape ≠ .anything) : shape.take tree = none := by
  have nothing (value : Json) : shape.takeScalar value = none := by
    cases shape <;> first | rfl | exact absurd rfl something
  cases scalar with
  | null _ _ => exact nothing _
  | truth _ _ => exact nothing _
  | number _ _ numeric => cases numeric <;> exact nothing _
  | text _ _ => cases shape <;> first | rfl | exact absurd rfl noText | exact absurd rfl something

theorem Shape.read_follows (budget : Nat) (shape : Shape) : Follows budget shape.read shape.take := by
  induction budget generalizing shape with
  | zero => exact fun spells => by cases spells
  | succ budget ih =>
    intro bytes tree rest spells more enough
    obtain _ | more := more
    · omega
    have trimmed := length_trim bytes
    have level := level_of_spells spells
    change accepts (shape.read (more + 1)) bytes = _
    cases shape with
    | anything =>
      rw [Shape.read, accepts_value, spelled_follows _ spells _ enough, take_anything]
      rfl
    | text =>
      rw [Shape.read, accepts_bind, accepts_peek, Option.bind_some]
      cases level with
      | scalar start _ _ read =>
        simp only [start, List.head?_cons, accepts_ite, accepts_bind, accepts_skip, Option.bind_some,
          List.drop_succ_cons, List.drop_zero, accepts_unexpected]
        cases (scalar_passed read).1 with
        | null first _ => rw [if_neg (by rw [first]; decide)]; rfl
        | text quoted read => rw [if_pos quoted, read]; rfl
        | truth _ noText => rw [if_neg noText]; rfl
        | number _ noText numeric => rw [if_neg noText]; cases numeric <;> rfl
      | @list left _ _ start _ =>
        rw [start]
        exact accepts_unexpected Byte.openList _ (Byte.openList :: left)
      | @object left _ _ start _ =>
        rw [start]
        exact accepts_unexpected Byte.openObject _ (Byte.openObject :: left)
    | list item =>
      rw [Shape.read, accepts_bind, accepts_peek, Option.bind_some]
      cases level with
      | scalar start noList _ read =>
        rw [take_scalar (scalar_passed read).1 (by simp) (by simp)]
        simp [start, noList, accepts_unexpected]
      | @list left _ _ start all =>
        rw [start, List.length_cons] at trimmed
        have short : left.length < more := by omega
        have inner := listOf_follows (ih item) all short short
        rw [start, Shape.take, takeItems_eq]
        exact inner
      | @object left _ _ start _ =>
        rw [start]
        exact accepts_unexpected Byte.openObject _ (Byte.openObject :: left)
    | table entry =>
      rw [Shape.read, accepts_bind, accepts_peek, Option.bind_some]
      cases level with
      | scalar start _ noObject read =>
        rw [take_scalar (scalar_passed read).1 (by simp) (by simp)]
        simp [start, noObject, accepts_unexpected]
      | @list left _ _ start _ =>
        rw [start]
        exact accepts_unexpected Byte.openList _ (Byte.openList :: left)
      | @object left _ trees start all =>
        rw [start, List.length_cons] at trimmed
        have short : left.length < more := by omega
        have inner := objectOf_follows (ih entry) all short short
        rw [start, Shape.take, takeEntries_eq]
        simp only [List.head?_cons, if_true, accepts_bind, accepts_skip, Option.bind_some,
          List.drop_succ_cons, List.drop_zero, accepts_pure, inner]
        cases trees.mapM fun tree => (entry.take tree.2).map fun made => (tree.1, made) <;> rfl
    | record form =>
      rw [Shape.read, accepts_bind, accepts_peek, Option.bind_some]
      cases level with
      | scalar start noList noObject read =>
        rw [take_scalar (scalar_passed read).1 (by simp) (by simp)]
        simp [start, noList, noObject, accepts_unexpected]
      | @list left _ _ start all =>
        rw [start, List.length_cons] at trimmed
        rw [start]
        exact form.readList_follows ih all (by omega)
      | @object left _ _ start all =>
        rw [start, List.length_cons] at trimmed
        rw [start]
        exact form.readObject_follows ih all (by omega)

end Document

end FlipperBlocks
