import FlipperBlocks.Proofs.Application.Manifests

/-! The names that an application's text declares, and the members it reaches. -/
namespace FlipperBlocks

namespace Application

open C (Token Closes)

structure Declared where
  name : String
  isPointer : Bool
  deriving DecidableEq

/-- Whether a mark may come after the name in a declaration. -/
def endsName (mark : List Char) : Bool := mark == [';'] || mark == ['[']

/-- The declaration at the start of some tokens: a type, a star for a pointer, and the name. -/
def declaredIn : List Token → Option Declared
  | .word _ :: .word name :: .mark mark :: _ =>
    if endsName mark then some ⟨String.ofList name, false⟩ else none
  | .word _ :: .mark ['*'] :: .word name :: .mark mark :: _ =>
    if endsName mark then some ⟨String.ofList name, true⟩ else none
  | _ => none

def declared? (row : String) : Option Declared := declaredIn (C.tokens row)

theorem tokens_append {a b : String} {first : List Token} (closes : Closes a first) :
    C.tokens (a ++ b) = first ++ C.tokens b := by
  unfold C.tokens
  rw [String.toList_append, C.Scan.run_append_closed closes]
  simp [C.Scan.found]

theorem closes_ended {name : String} (named : C.Identifier.isIdentifier name = true) :
    Closes (name ++ ";") [.word name.toList, .mark [';']] :=
  C.Reads.append_closes (C.Reads.name named) ⟨';', by decide, rfl⟩ (by decide)

def Declares (text : String) (declared : Declared) : Prop :=
  ∃ start found rest, text = start ++ rest ∧ Closes start found ∧
    ∀ more, declaredIn (found ++ more) = some declared

namespace Declares

variable {text name front : String} {declared : Declared} {type : List Char}

theorem append (declares : Declares text declared) (more : String) :
    Declares (text ++ more) declared := by
  obtain ⟨start, found, rest, rfl, closes, read⟩ := declares
  exact ⟨start, found, rest ++ more, String.append_assoc, closes, read⟩

theorem of_closes {found : List Token} (closes : Closes text found)
    (read : ∀ more, declaredIn (found ++ more) = some declared) : Declares text declared :=
  ⟨text, found, "", String.append_empty.symm, closes, read⟩

theorem plain (closes : Closes front [.word type]) (named : C.Identifier.isIdentifier name = true) :
    Declares (front ++ name ++ ";") ⟨name, false⟩ := by
  rw [String.append_assoc]
  refine of_closes (closes.append (closes_ended named)) fun more => ?_
  simp [declaredIn, endsName]

theorem array (closes : Closes front [.word type]) (named : C.Identifier.isIdentifier name = true) :
    Declares (front ++ name ++ "[") ⟨name, false⟩ := by
  rw [String.append_assoc]
  refine of_closes (closes.append (C.Closes.name_bracket named)) fun more => ?_
  simp [declaredIn, endsName]

theorem pointer (closes : Closes front [.word type, .mark ['*']])
    (named : C.Identifier.isIdentifier name = true) : Declares (front ++ (name ++ ";")) ⟨name, true⟩ := by
  refine of_closes (closes.append (closes_ended named)) fun more => ?_
  simp [declaredIn, endsName]

theorem declared?_row (declares : Declares text declared) : declared? (row text) = some declared := by
  obtain ⟨start, found, rest, same, closes, read⟩ := declares.append "\n"
  rw [row, declared?, same, tokens_append closes, read]

theorem declared?_bodyRow (declares : Declares text declared) :
    declared? (bodyRow text) = some declared := by
  have blanks : Closes "    " [] := by decide
  have row := declares.declared?_row
  rwa [declared?, ← List.nil_append (C.tokens _), ← tokens_append blanks, Application.row,
    ← String.append_assoc] at row

end Declares

theorem declares_declaration {storage : Storage}
    (named : C.Identifier.isIdentifier storage.name = true) :
    Declares storage.declaration ⟨storage.name, false⟩ := by
  have int : Closes "int " [.word "int".toList] := by decide
  have unsigned8 : Closes "uint8_t " [.word "uint8_t".toList] := by decide
  have unsigned16 : Closes "uint16_t " [.word "uint16_t".toList] := by decide
  have unsigned32 : Closes "uint32_t " [.word "uint32_t".toList] := by decide
  have char : Closes "char " [.word "char".toList] := by decide
  unfold Storage.declaration
  dsimp only
  split
  · exact .plain int named
  · exact .plain unsigned8 named
  · exact .plain unsigned16 named
  · exact .plain unsigned32 named
  · exact ((Declares.array char named).append _).append _
  · exact ((Declares.array unsigned8 named).append _).append _
  · exact ((((Declares.array unsigned8 named).append _).append _).append _).append _

theorem declares_timer (number : Nat) :
    Declares ("FuriTimer* timer_" ++ toString number ++ ";") ⟨"timer_" ++ toString number, true⟩ := by
  have front : Closes "FuriTimer* " [.word "FuriTimer".toList, .mark ['*']] := by decide
  have split : "FuriTimer* timer_" ++ toString number ++ ";" =
      "FuriTimer* " ++ ("timer_" ++ toString number ++ ";") := by
    rw [← String.append_assoc, ← String.append_assoc]
    rfl
  rw [split]
  exact .pointer front (isIdentifier_numberedName (by decide) number)

variable {draft : Draft}

theorem filterMap_rows {α : Type} {list : List α} {write : α → String} {meant : α → Declared}
    (each : ∀ item ∈ list, declared? (write item) = some (meant item)) :
    (list.map write).filterMap declared? = list.map meant := by
  rw [List.filterMap_map, ← List.filterMap_eq_map]
  exact List.filterMap_congr each

section

variable (named : ∀ storage ∈ draft.storage, C.Identifier.isIdentifier storage.name = true)

include named

theorem declared_globalPieces : (globalPieces draft).filterMap declared? =
      (storageIn .program draft).map fun storage => ⟨storage.name, false⟩ := by
  have rows : ((storageIn .program draft).map fun storage => row storage.declaration).filterMap
      declared? = (storageIn .program draft).map fun storage => ⟨storage.name, false⟩ :=
    filterMap_rows fun storage member =>
      (declares_declaration (named storage (List.mem_of_mem_filter member))).declared?_row
  have opening : declared? (row "// Global storage generated from blocks") = none := by decide
  have empty : declared? emptyRow = none := by decide
  unfold globalPieces
  split
  · rename_i none
    rw [none]
    rfl
  · rw [List.filterMap_append, List.filterMap_append, rows]
    simp [opening, empty]

theorem declared_structurePieces : (structurePieces draft).filterMap declared? =
      [⟨"view_dispatcher", true⟩, ⟨"widget", true⟩] ++
        (if draft.features.has .notifications then [⟨"notif", true⟩] else []) ++
          (timerNumbers draft).map (fun number => ⟨"timer_" ++ toString number, true⟩) ++
            (storageIn .application draft).map fun storage => ⟨storage.name, false⟩ := by
  have rows : ((storageIn .application draft).map fun storage =>
      bodyRow storage.declaration).filterMap declared? =
        (storageIn .application draft).map fun storage => ⟨storage.name, false⟩ :=
    filterMap_rows fun storage member =>
      (declares_declaration (named storage (List.mem_of_mem_filter member))).declared?_bodyRow
  have timers : ((timerNumbers draft).map fun number =>
      bodyRow ("FuriTimer* timer_" ++ toString number ++ ";")).filterMap declared? =
        (timerNumbers draft).map fun number => ⟨"timer_" ++ toString number, true⟩ :=
    filterMap_rows fun number _ => (declares_timer number).declared?_bodyRow
  have opening : [row "typedef struct \x7b", bodyRow "ViewDispatcher* view_dispatcher;",
      bodyRow "Widget* widget;"].filterMap declared? =
        [⟨"view_dispatcher", true⟩, ⟨"widget", true⟩] := by decide
  have notif : (if draft.features.has .notifications then [bodyRow "NotificationApp* notif;"]
      else []).filterMap declared? =
        if draft.features.has .notifications then [⟨"notif", true⟩] else [] := by
    split <;> decide
  have closing : [row "\x7d App;", emptyRow].filterMap declared? = [] := by decide
  rw [structurePieces, List.filterMap_append, List.filterMap_append, List.filterMap_append,
    List.filterMap_append, opening, notif, timers, rows, closing, List.append_nil]

def structureNames (draft : Draft) : List String :=
  ((structurePieces draft).filterMap declared?).map Declared.name

theorem structureNames_eq : structureNames draft = draft.members := by
  have notif : (if draft.features.has .notifications then [⟨"notif", true⟩] else []).map
      Declared.name = if draft.features.has .notifications then ["notif"] else [] := by
    split <;> rfl
  rw [structureNames, declared_structurePieces named, Draft.members, List.map_append,
    List.map_append, List.map_append, notif, List.map_map, List.map_map]
  rfl

/-- The names of the storage that the text declares in a scope. The structure's other members are
pointers. -/
def declaredNames (draft : Draft) : Scope → List String
  | .program => ((globalPieces draft).filterMap declared?).map Declared.name
  | .application => (((structurePieces draft).filterMap declared?).filter fun declared =>
      !declared.isPointer).map Declared.name

theorem declaredNames_eq
    (scope : Scope) : declaredNames draft scope = (storageIn scope draft).map Storage.name := by
  cases scope with
  | program =>
    rw [declaredNames, declared_globalPieces named, List.map_map]
    rfl
  | application =>
    have pointers : (([⟨"view_dispatcher", true⟩, ⟨"widget", true⟩] ++
        (if draft.features.has .notifications then [⟨"notif", true⟩] else []) ++
          (timerNumbers draft).map fun number => ⟨"timer_" ++ toString number, true⟩) :
            List Declared).filter (fun declared => !declared.isPointer) = [] := by
      rw [List.filter_eq_nil_iff]
      intro declared member
      simp only [List.mem_append, List.mem_cons, List.not_mem_nil, or_false, List.mem_map] at member
      rcases member with ((rfl | rfl) | notif) | ⟨number, _, rfl⟩
      · decide
      · decide
      · split at notif
        · rw [List.mem_singleton.1 notif]
          decide
        · contradiction
      · simp
    have numbers : ((storageIn .application draft).map fun storage =>
        (⟨storage.name, false⟩ : Declared)).filter (fun declared => !declared.isPointer) =
          (storageIn .application draft).map fun storage => ⟨storage.name, false⟩ := by
      rw [List.filter_eq_self]
      intro declared member
      obtain ⟨storage, _, rfl⟩ := List.mem_map.1 member
      rfl
    rw [declaredNames, declared_structurePieces named, List.filter_append, pointers, numbers,
      List.nil_append, List.map_map]
    rfl

end

theorem storageIn_perm :
    (storageIn .program draft ++ storageIn .application draft).Perm draft.storage := by
  have other : (storageIn .application draft) =
      draft.storage.filter fun storage => !decide (storage.scope = .program) := by
    unfold storageIn
    congr 1
    funext storage
    cases storage.scope <;> rfl
  rw [other]
  exact List.filter_append_perm _ _

theorem count_declaredNames (tabled : draft.Tabled) (name : String) :
    (declaredNames draft .program ++ declaredNames draft .application).count name =
      if (draft.lookup? name).isSome then 1 else 0 := by
  have named (storage) (member : storage ∈ draft.storage) := (tabled.usable storage member).1
  have found : (draft.lookup? name).isSome = true ↔ name ∈ draft.storage.map Storage.name := by
    rw [← Option.ne_none_iff_isSome, ne_eq, tabled.lookup?_eq_none_iff, not_not]
  rw [declaredNames_eq named, declaredNames_eq named, ← List.map_append,
    (storageIn_perm.map Storage.name).count_eq, tabled.distinct.count]
  simp only [found]

theorem name_mem_declaredNames (tabled : draft.Tabled) {storage : Storage}
    (declared : storage ∈ draft.storage) : storage.name ∈ declaredNames draft storage.scope := by
  rw [declaredNames_eq fun storage member => (tabled.usable storage member).1]
  exact List.mem_map_of_mem (List.mem_filter.2 ⟨declared, by simp⟩)

theorem linked_text (sound : draft.Sound draft)
    (each : ∀ manifest ∈ draft.manifests, ∃ head, manifest = .ofHead head) :
    C.Linked (fun field => String.ofList field ∈ draft.members) (C.tokens (text draft)) := by
  obtain ⟨program, rows, reached⟩ := (tidy_source sound).rows
  obtain ⟨comment, closes, noArrow⟩ := Artifact.closes_comment each
  have whole : C.Scan.run .code (text draft).toList = (program ++ comment, .code) := by
    rw [toList_text]
    exact C.Scan.run_append_of_eq rows.scan closes
  have tokens : C.tokens (text draft) = program ++ comment := by
    rw [C.tokens, whole]
    exact List.append_nil _
  rw [tokens]
  exact reached.append (.of_not_mem noArrow)

end Application

/-- Every member of the application that the text of a program reaches is written in the structure,
which has the views, the notifications if there are any, a member for each timer, and the numbers. -/
theorem Program.reaches_written_members (program : Program) :
    Application.structureNames program.lowered.draft = program.lowered.draft.members ∧
      C.Linked (fun field => String.ofList field ∈ Application.structureNames program.lowered.draft)
        (C.tokens program.compile.text) := by
  have sound := program.lowered_sound
  have names := Application.structureNames_eq sound.storage
  refine ⟨names, ?_⟩
  rw [names, program.text_compile]
  exact Application.linked_text sound program.moves_lowered.manifests

def Program.drawnBytes : Program :=
  ⟨[[.mk { kind := .app } [] [("DRAW", [.mk { kind := .drawText }
    [("TEXT", [.mk { kind := .byteStream } [] []])] []])]]]⟩

def noteStorage (_ : BlockHead) (meaning : Meaning) : Meaning where
  kind := meaning.kind
  id := meaning.id
  statement := meaning.statement
  value wantsText c :=
    let result := meaning.value wantsText c
    if result.2.draft.storage = [] then result
    else (result.1, (Lowering.degrade (.bytesAsValue "") result.2).2)

end FlipperBlocks
