import FlipperBlocks.Block.Load
import FlipperBlocks.Proofs.Document.Checking

/-! The two ways to load a program: from the text of a document, and from a value that was read before.

Both follow the value that the text spells. The text keeps every member of an object, the value read
from it only the last of each name; so the text loads whatever its value does as long as no name comes
again. -/
namespace FlipperBlocks

open Json Json.Reader Document

theorem Json.Spelling.unique {bytes : List UInt8} {tree other : Json} (spells : Spelling bytes tree)
    (again : Spelling bytes other) : other = tree := by
  obtain ⟨budget, rest, spells, -⟩ := spells
  obtain ⟨second, left, again, -⟩ := again
  have here := spelled_follows budget spells _ (Nat.lt_succ_self bytes.length)
  have there := spelled_follows second again _ (Nat.lt_succ_self bytes.length)
  rw [here, Option.map_some, Option.map_some] at there
  cases there
  rfl

theorem Json.object_of_resolved {tree : Json} {members : List (String × Json)}
    (same : tree.resolved = object members) : ∃ members, tree = object members := by
  cases tree with
  | object members => exact ⟨members, rfl⟩
  | list items => rw [resolved_list] at same; cases same
  | _ => cases same

namespace Document

variable {bytes rest : List UInt8} {budget more : Nat}

theorem readRoot_object {members : List (String × Json)}
    (spells : Spells budget bytes (object members) rest) (blank : trim rest = [])
    (enough : bytes.length < more) : accepts (readRoot more) bytes =
      ((Shape.record .workspace).take (object members)).map fun workspace => (some workspace, []) := by
  have read := Shape.read_follows budget (.record .workspace) spells (more + 1) (by omega)
  cases budget with
  | zero => cases spells
  | succ budget =>
    cases level_of_spells spells with
    | scalar _ _ _ read => cases (scalar_passed read).1 with
      | number _ _ numeric => cases numeric
    | @object left tail _ start all =>
      change accepts (Shape.read (more + 1) _) bytes = _ at read
      rw [Shape.read, accepts_bind, accepts_peek, Option.bind_some, start] at read
      rw [readRoot, accepts_bind, accepts_peek, Option.bind_some, start]
      simp only [List.head?_cons, if_true, accepts_bind, accepts_skip, Option.bind_some,
        List.drop_succ_cons, List.drop_zero, accepts_finish, accepts_pure] at read ⊢
      rw [read]
      cases (Shape.record .workspace).take (object members) with
      | none => rfl
      | some workspace => simp [blank]

private theorem mapM_some {α β : Type} (values : List α) (b : β) :
    ∃ made, values.mapM (fun _ => some b) = some made := by
  induction values with
  | nil => exact ⟨[], rfl⟩
  | cons value values ih =>
    obtain ⟨made, all⟩ := ih
    refine ⟨b :: made, ?_⟩
    rw [List.mapM_cons, all]
    rfl

theorem readRoot_other {tree : Json} (spells : Spells budget bytes tree rest)
    (blank : trim rest = []) (enough : bytes.length < more) (other : ∀ members, tree ≠ object members) :
    accepts (readRoot more) bytes = some (none, []) := by
  have trimmed := length_trim bytes
  cases budget with
  | zero => cases spells
  | succ budget =>
    rw [readRoot, accepts_bind, accepts_peek, Option.bind_some]
    cases level_of_spells spells with
    | scalar start noList noObject read =>
      simp [start, noObject, readOther, noList, read, accepts_finish, blank]
    | @list left tail items start all =>
      rw [start, List.length_cons] at trimmed
      have short : left.length < more := by omega
      have skipped := listOf_follows (skip_follows budget) all short short
      obtain ⟨made, every⟩ := mapM_some items ()
      rw [every] at skipped
      simp [start, readOther, skipped, accepts_finish, blank, Byte.openList, Byte.openObject]
    | object start all => exact absurd rfl (other _)

end Document

namespace Program

theorem ofBytes_eq_ok_iff {bytes : List UInt8} {program : Program} :
    ofBytes bytes = .ok program ↔ ∃ workspace rest,
      accepts (readRoot (bytes.length + 1)) bytes = some (some workspace, rest) ∧
        ofWorkspace workspace = program := by
  unfold ofBytes
  constructor
  · intro loaded
    split at loaded
    · cases loaded
    · cases loaded
    · rename_i workspace run
      obtain ⟨rest, read⟩ := run'_eq_ok_iff.1 run
      exact ⟨workspace, rest, read, by cases loaded; rfl⟩
  · rintro ⟨workspace, rest, read, rfl⟩
    rw [run'_eq_ok_iff.2 ⟨rest, read⟩]

theorem ofBytes_eq_notAnObject_iff {bytes : List UInt8} : ofBytes bytes = .error .notAnObject ↔
    ∃ rest, accepts (readRoot (bytes.length + 1)) bytes = some (none, rest) := by
  unfold ofBytes
  constructor
  · intro refused
    split at refused
    · cases refused
    · rename_i run
      exact run'_eq_ok_iff.1 run
    · cases refused
  · intro read
    rw [run'_eq_ok_iff.2 read]

theorem ofJson_eq_ok_iff {members : List (String × Json)} {program : Program} :
    ofJson (object members) = .ok program ↔ ∃ workspace,
      (Shape.record .workspace).checked (object members) = some workspace ∧
        ofWorkspace workspace = program := by
  unfold Shape.checked
  constructor
  · intro loaded
    rw [ofJson] at loaded
    split at loaded
    · cases loaded
    · rename_i workspace checked
      rw [checked]
      exact ⟨workspace, rfl, by cases loaded; rfl⟩
  · rintro ⟨workspace, passed, rfl⟩
    cases checked : (Shape.record .workspace).check (object members) with
    | error fault =>
      rw [checked] at passed
      cases passed
    | ok made =>
      rw [checked] at passed
      cases passed
      rw [ofJson, checked]

section

variable {bytes : List UInt8}

theorem ofBytes_object {members : List (String × Json)} (spelling : Spelling bytes (object members)) :
    (∀ program, ofBytes bytes = .ok program ↔ ∃ workspace,
      (Shape.record .workspace).take (object members) = some workspace ∧
        ofWorkspace workspace = program) ∧ ofBytes bytes ≠ .error .notAnObject := by
  obtain ⟨budget, rest, spells, blank⟩ := spelling
  have root := readRoot_object spells blank (Nat.lt_succ_self bytes.length)
  refine ⟨fun program => ?_, ?_⟩
  · rw [ofBytes_eq_ok_iff, root]
    constructor
    · rintro ⟨workspace, _, read, rfl⟩
      obtain ⟨made, taken, same⟩ := Option.map_eq_some_iff.1 read
      cases same
      exact ⟨workspace, taken, rfl⟩
    · rintro ⟨workspace, taken, rfl⟩
      exact ⟨workspace, [], by rw [taken, Option.map_some], rfl⟩
  · intro refused
    obtain ⟨rest, read⟩ := ofBytes_eq_notAnObject_iff.1 refused
    rw [root] at read
    obtain ⟨made, _, same⟩ := Option.map_eq_some_iff.1 read
    cases same

theorem ofBytes_other {tree : Json} (spelling : Spelling bytes tree)
    (other : ∀ members, tree ≠ object members) : ofBytes bytes = .error .notAnObject := by
  obtain ⟨budget, rest, spells, blank⟩ := spelling
  have root := readRoot_other spells blank (Nat.lt_succ_self bytes.length) other
  exact ofBytes_eq_notAnObject_iff.2 ⟨[], root⟩

theorem ofJson_other {value : Json} (other : ∀ members, value ≠ object members) :
    ofJson value = .error .notAnObject := by
  cases value with
  | object members => exact absurd rfl (other members)
  | _ => rfl

end

/-- A text loads as the value that it is read as, apart from names that come again. -/
theorem loaders_agree {text : String} {value : Json} (read : Json.read text.toUTF8.toList = .ok value) :
    ∃ tree, (∀ other, Spelling text.toUTF8.toList other ↔ other = tree) ∧ value = tree.resolved ∧
      (∀ program, ofText text = .ok program → ofJson value = .ok program) ∧
      (tree.Distinct → ∀ program, ofJson value = .ok program → ofText text = .ok program) ∧
      (ofText text = .error .notAnObject ↔ ∀ members, value ≠ object members) := by
  obtain ⟨tree, spelling, rfl⟩ := read_eq_ok_iff.1 read
  refine ⟨tree, fun other => ⟨spelling.unique, fun same => same ▸ spelling⟩, rfl, ?_⟩
  unfold ofText
  by_cases isObject : ∃ members, tree = object members
  · obtain ⟨members, rfl⟩ := isObject
    obtain ⟨loads, noRefusal⟩ := ofBytes_object spelling
    rw [resolved_object]
    refine ⟨?_, ?_, fun refused => absurd refused noRefusal, fun none_ => absurd rfl (none_ _)⟩
    · intro program loaded
      obtain ⟨workspace, taken, rfl⟩ := (loads program).1 loaded
      have passed := passes_all _ _ _ taken
      rw [resolved_object] at passed
      exact ofJson_eq_ok_iff.2 ⟨workspace, passed, rfl⟩
    · intro distinct program loaded
      obtain ⟨workspace, passed, rfl⟩ := ofJson_eq_ok_iff.1 loaded
      have agree := agrees_of_distinct _ distinct (.record .workspace)
      rw [resolved_object, passed] at agree
      exact (loads _).2 ⟨workspace, agree, rfl⟩
  · have refused : ofBytes _ = .error .notAnObject :=
      ofBytes_other spelling fun members same => isObject ⟨members, same⟩
    have noObject : ∀ members, tree.resolved ≠ object members := by
      intro members same
      exact isObject (object_of_resolved same)
    rw [refused, ofJson_other noObject]
    simp [noObject]

def nestedDocument : String :=
  "\x7b\"blocks\":\x7b\"blocks\":[\x7b\"fields\":\x7b\"OP\":\"ADD\"\x7d,\"inputs\":\x7b\"A\":" ++
    "\x7b\"block\":\x7b\"fields\":\x7b\"V\":true\x7d,\"type\":\"y\"\x7d\x7d\x7d,\"type\":\"x\"\x7d]\x7d\x7d"

def nestedValue : Json :=
  let inner := object [("fields", object [("V", .truth true)]), ("type", .text "y")]
  let outer := object [("fields", object [("OP", .text "ADD")]),
    ("inputs", object [("A", object [("block", inner)])]), ("type", .text "x")]
  object [("blocks", object [("blocks", list [outer])])]

set_option maxRecDepth 2000 in
theorem nestedDocument_loads : Json.read nestedDocument.toUTF8.toList = .ok nestedValue ∧
    ofText nestedDocument = .ok ⟨[[.mk { kind := .ofName "x", fields := [("OP", .text "ADD")] }
      [("A", [.mk { kind := .ofName "y", fields := [("V", .truth true)] } [] []])] []]]⟩ := by
  have bytes : nestedDocument.toUTF8.toList =
      [123, 34, 98, 108, 111, 99, 107, 115, 34, 58, 123, 34, 98, 108, 111, 99, 107, 115, 34, 58, 91, 123,
        34, 102, 105, 101, 108, 100, 115, 34, 58, 123, 34, 79, 80, 34, 58, 34, 65, 68, 68, 34, 125, 44, 34,
        105, 110, 112, 117, 116, 115, 34, 58, 123, 34, 65, 34, 58, 123, 34, 98, 108, 111, 99, 107, 34, 58,
        123, 34, 102, 105, 101, 108, 100, 115, 34, 58, 123, 34, 86, 34, 58, 116, 114, 117, 101, 125, 44, 34,
        116, 121, 112, 101, 34, 58, 34, 121, 34, 125, 125, 125, 44, 34, 116, 121, 112, 101, 34, 58, 34, 120,
        34, 125, 93, 125, 125] := by decide +kernel
  have read : Json.read nestedDocument.toUTF8.toList = .ok nestedValue := by
    rw [bytes]
    rfl
  have spelling : Spelling nestedDocument.toUTF8.toList nestedValue := by
    rw [bytes]
    refine ⟨40, [], ?_, rfl⟩
    unfold Spells
    rfl
  have distinct : nestedValue.Distinct := by simp [nestedValue, Distinct, DistinctItems, DistinctMembers]
  obtain ⟨tree, spelled, -, -, back, -⟩ := loaders_agree read
  rw [← (spelled nestedValue).1 spelling] at back
  exact ⟨read, back distinct _ rfl⟩

end Program

end FlipperBlocks
