import FlipperBlocks.Proofs.Application.Definitions
import Mathlib.Data.List.Flatten

/-! Variables that share a name with something of the application's own.

A variable keeps the name that it is given, also if the application's structure has a member or its text
a function of that name. Names that lowering makes are others. -/
namespace FlipperBlocks

open Application

def Draft.ownMembers (draft : Draft) : List String :=
  ["view_dispatcher", "widget"] ++ (if draft.features.has .notifications then ["notif"] else []) ++
    (List.range draft.timers.length).map fun index => "timer_" ++ toString index

def singleNames : List String :=
  ["view_dispatcher", "widget", "notif"] ++ (driverNames ++
    ["update_render", "app_custom_event_callback", "app_input_callback", "app_navigation_callback",
      "app_view_navigation_callback"] ++ ["app_alloc", "app_free", Manifest.entryPoint])

def numberedStems : List String := ["timer_", "app_timer_callback_", "app_button_cb_"]

def generatedStarts : List String :=
  generatedStems ++ [PwmOutput.timer1.stateStem, PwmOutput.lowPowerTimer2.stateStem]

/-- No name starts as one of the others, and no start is the start of another. -/
structure Separate (names starts : List (List Char)) : Prop where
  distinct : names.Nodup
  apart : ∀ name ∈ names, ∀ start ∈ starts, ¬ start <+: name
  incomparable : starts.Pairwise fun a b => ¬ a <+: b ∧ ¬ b <+: a

theorem separate_of_letters {names starts : List (List Char)}
    (first : Application.Letters singleNames names)
    (second : Application.Letters (numberedStems ++ generatedStarts) starts)
    (checked : names.Nodup ∧ (∀ name ∈ names, ∀ start ∈ starts, ¬ start <+: name) ∧
      starts.Pairwise fun a b => ¬ a <+: b ∧ ¬ b <+: a) : Separate (singleNames.map String.toList)
      ((numberedStems ++ generatedStarts).map String.toList) := by
  rw [first.toList_eq, second.toList_eq]
  exact ⟨checked.1, checked.2.1, checked.2.2⟩

theorem names_separate : Separate (singleNames.map String.toList)
    ((numberedStems ++ generatedStarts).map String.toList) := by
  apply separate_of_letters
  iterate 2
    · repeat constructor
  · decide +kernel

def OwnName (name : String) : Prop :=
  name ∈ singleNames ∨ ∃ stem ∈ numberedStems, ∃ number : Nat, name = stem ++ toString number

theorem starts_numbered (stem : String) (number : Nat) :
    stem.toList <+: (stem ++ toString number).toList := by
  rw [String.toList_append]
  exact List.prefix_append _ _

theorem GeneratedName.starts {name : String} (generated : GeneratedName name) :
    ∃ start ∈ generatedStarts, start.toList <+: name.toList := by
  cases generated with
  | buffer shared =>
    have each : ∀ name ∈ ["display_buffer", "storage_buffer"], name ∈ generatedStarts := by decide
    exact ⟨name, each name shared, List.prefix_refl _⟩
  | @numbered stem listed number =>
    refine ⟨stem, List.mem_append_left _ listed, ?_⟩
    rw [Draft.numbered, String.append_assoc, String.toList_append]
    exact List.prefix_append _ _
  | @state output storage remembered =>
    refine ⟨output.stateStem, List.mem_append_right _ (by cases output <;> simp), ?_⟩
    rcases List.mem_pair.1 remembered with rfl | rfl
    all_goals
      rw [String.toList_append]
      exact List.prefix_append _ _

theorem GeneratedName.not_own {name : String} (generated : GeneratedName name) : ¬ OwnName name := by
  obtain ⟨start, listed, starts⟩ := generated.starts
  have among : start.toList ∈ (numberedStems ++ generatedStarts).map String.toList :=
    List.mem_map_of_mem (List.mem_append_right _ listed)
  rintro (single | ⟨stem, numbered, number, rfl⟩)
  · exact names_separate.apart _ (List.mem_map_of_mem single) _ among starts
  · -- Both starts of the name are there, so that one of them starts the other.
    have apart := names_separate.incomparable
    rw [List.map_append, List.pairwise_append] at apart
    obtain ⟨first, second⟩ := apart.2.2 _ (List.mem_map_of_mem numbered) _ (List.mem_map_of_mem listed)
    rcases List.prefix_or_prefix_of_prefix (starts_numbered stem number) starts with short | long
    · exact first short
    · exact second long

namespace Draft

variable (draft : Draft)

theorem members_eq : draft.members =
    draft.ownMembers ++ (storageIn .application draft).map Storage.name := rfl

theorem ownName_of_mem_ownMembers {name : String} (member : name ∈ draft.ownMembers) : OwnName name := by
  unfold ownMembers at member
  simp only [List.mem_append, List.mem_map] at member
  rcases member with (fixed | notif) | ⟨number, _, rfl⟩
  · have subset : ["view_dispatcher", "widget"] ⊆ ["view_dispatcher", "widget", "notif"] := by decide
    exact .inl (List.mem_append_left _ (subset fixed))
  · split at notif
    · have subset : ["notif"] ⊆ ["view_dispatcher", "widget", "notif"] := by decide
      exact .inl (List.mem_append_left _ (subset notif))
    · contradiction
  · exact .inr ⟨"timer_", by decide, number, rfl⟩

def singleFunctions : List String :=
  (routinesFor draft.features).flatMap Application.Routine.functions ++
    ["update_render", "app_custom_event_callback", "app_input_callback", "app_navigation_callback",
      "app_view_navigation_callback"] ++ ["app_alloc", "app_free", Manifest.entryPoint]

def numberedFunctions : List String :=
  (timerNumbers draft).map (fun number => "app_timer_callback_" ++ toString number) ++
    (buttonNumbers draft).map fun number => "app_button_cb_" ++ toString number

theorem functions_perm : draft.functions.Perm (draft.singleFunctions ++ draft.numberedFunctions) := by
  have split : draft.functions = (routinesFor draft.features).flatMap
      Application.Routine.functions ++ ["update_render", "app_custom_event_callback",
        "app_input_callback", "app_navigation_callback", "app_view_navigation_callback"] ++
      draft.numberedFunctions ++ ["app_alloc", "app_free", Manifest.entryPoint] := by
    simp only [functions, numberedFunctions, List.append_assoc]
  rw [split, singleFunctions, List.append_assoc, List.append_assoc _ ["app_alloc", _, _]]
  exact List.perm_append_comm.append_left _

theorem sublist_singleFunctions : draft.singleFunctions.Sublist singleNames := by
  have drivers : driverNames =
      routines.flatMap Application.Routine.functions := by
    rw [driverNames, List.flatMap_def, List.flatMap_def, routines_functions]
  have wanted : ((routinesFor draft.features).flatMap
      Application.Routine.functions).Sublist driverNames := by
    rw [drivers]
    exact List.Sublist.flatMap List.filter_sublist _
  refine List.Sublist.trans ?_ (List.sublist_append_right _ _)
  exact (wanted.append_right _).append_right _

theorem ownName_of_mem_functions {name : String} (member : name ∈ draft.functions) : OwnName name := by
  rw [draft.functions_perm.mem_iff, List.mem_append] at member
  rcases member with single | numbered
  · exact .inl (draft.sublist_singleFunctions.subset single)
  · unfold numberedFunctions at numbered
    simp only [List.mem_append, List.mem_map] at numbered
    rcases numbered with ⟨number, _, rfl⟩ | ⟨number, _, rfl⟩
    · exact .inr ⟨"app_timer_callback_", by decide, number, rfl⟩
    · exact .inr ⟨"app_button_cb_", by decide, number, rfl⟩

/-! Each member and each function of the application's own is there once. -/

theorem ne_numbered {name stem : String} (single : name ∈ singleNames)
    (listed : stem ∈ numberedStems) (number : Nat) : name ≠ stem ++ toString number := by
  rintro rfl
  refine names_separate.apart _ (List.mem_map_of_mem single) stem.toList ?_ (starts_numbered stem number)
  exact List.mem_map_of_mem (List.mem_append_left _ listed)

theorem nodup_ownMembers : draft.ownMembers.Nodup := by
  have fixed : (["view_dispatcher", "widget"] ++
      if draft.features.has .notifications then ["notif"] else []).Sublist
        ["view_dispatcher", "widget", "notif"] := by
    split <;> decide
  unfold ownMembers
  rw [List.nodup_append]
  refine ⟨List.Nodup.sublist fixed (by decide), nodup_numbered _ _, ?_⟩
  intro name member other numbered
  obtain ⟨number, _, rfl⟩ := List.mem_map.1 numbered
  exact ne_numbered (List.mem_append_left _ (fixed.subset member)) (by decide) number

theorem timer_ne_button (n m : Nat) :
    "app_timer_callback_" ++ toString n ≠ "app_button_cb_" ++ toString m := by
  intro same
  have first := starts_numbered "app_timer_callback_" n
  rw [same] at first
  rcases List.prefix_or_prefix_of_prefix first (starts_numbered "app_button_cb_" m) with short | long
  · exact absurd short (by decide)
  · exact absurd long (by decide)

theorem nodup_functions : draft.functions.Nodup := by
  have single : singleNames.Nodup := List.Nodup.of_map _ names_separate.distinct
  rw [draft.functions_perm.nodup_iff, List.nodup_append]
  refine ⟨single.sublist draft.sublist_singleFunctions, ?_, ?_⟩
  · rw [numberedFunctions, List.nodup_append]
    refine ⟨nodup_numbered _ _, nodup_numbered _ _, ?_⟩
    intro name timer other button
    obtain ⟨n, _, rfl⟩ := List.mem_map.1 timer
    obtain ⟨m, _, rfl⟩ := List.mem_map.1 button
    exact timer_ne_button n m
  · intro name member other numbered
    have listed := draft.sublist_singleFunctions.subset member
    rcases List.mem_append.1 numbered with timer | button
    · obtain ⟨number, _, rfl⟩ := List.mem_map.1 timer
      exact ne_numbered listed (by decide) number
    · obtain ⟨number, _, rfl⟩ := List.mem_map.1 button
      exact ne_numbered listed (by decide) number

theorem mem_functions_button {number : Nat} :
    "app_button_cb_" ++ toString number ∈ draft.functions ↔ number < draft.buttons.length := by
  rw [draft.functions_perm.mem_iff, numberedFunctions]
  constructor
  · intro member
    rcases List.mem_append.1 member with single | numbered
    · exact absurd rfl (ne_numbered (draft.sublist_singleFunctions.subset single)
        (show "app_button_cb_" ∈ numberedStems by decide) number)
    rcases List.mem_append.1 numbered with timer | button
    · obtain ⟨other, _, same⟩ := List.mem_map.1 timer
      exact absurd same (timer_ne_button other number)
    · obtain ⟨other, among, same⟩ := List.mem_map.1 button
      rw [← @numbered_inj "app_button_cb" other number same]
      exact List.mem_range.1 among
  · intro small
    refine List.mem_append_right _ (List.mem_append_right _ ?_)
    exact List.mem_map_of_mem (List.mem_range.2 small)

theorem nodup_members_iff (distinct : (draft.storage.map Storage.name).Nodup) : draft.members.Nodup ↔
      ∀ storage ∈ storageIn .application draft, storage.name ∉ draft.ownMembers := by
  have stored : ((storageIn .application draft).map Storage.name).Nodup :=
    distinct.sublist (List.filter_sublist.map _)
  rw [members_eq, List.nodup_append]
  constructor
  · rintro ⟨_, _, apart⟩ storage among own
    exact apart _ own _ (List.mem_map_of_mem among) rfl
  · intro free
    refine ⟨draft.nodup_ownMembers, stored, ?_⟩
    rintro name own other member rfl
    obtain ⟨storage, among, rfl⟩ := List.mem_map.1 member
    exact free storage among own

end Draft

namespace Program

open Application

/-- Where the text of a program defines a name twice: only where a variable has the name of a member or
a function of the application's own. -/
structure DefinitionsInOrder (program : Program) : Prop where
  members : structureNames program.lowered.draft =
    program.lowered.draft.ownMembers ++ declaredNames program.lowered.draft .application
  functions : functionNames program.lowered.draft = program.lowered.draft.functions
  /-- Its own members are distinct, and so is storage. -/
  membersOnce : (structureNames program.lowered.draft).Nodup ↔
    ∀ name ∈ declaredNames program.lowered.draft .application,
      name ∉ program.lowered.draft.ownMembers
  /-- Functions are distinct, and so are the names that stand beside them in the text. -/
  globalsOnce :
    (declaredNames program.lowered.draft .program ++ functionNames program.lowered.draft).Nodup ↔
      ∀ name ∈ declaredNames program.lowered.draft .program,
        name ∉ functionNames program.lowered.draft
  /-- Storage that has the name of a member or a function is a variable's, never lowering's own. -/
  fromVariables : ∀ storage ∈ program.lowered.draft.storage,
    storage.name ∈ program.lowered.draft.ownMembers ++ functionNames program.lowered.draft →
      ¬ program.lowered.draft.Made storage ∧ storage.name ∈ program.variableNames
  /-- If the variables have other names, nothing is defined twice. -/
  avoided : (∀ name ∈ program.variableNames,
      name ∉ program.lowered.draft.ownMembers ++ functionNames program.lowered.draft) →
    (structureNames program.lowered.draft).Nodup ∧
      (declaredNames program.lowered.draft .program ++ functionNames program.lowered.draft).Nodup

section

variable (program : Program)

theorem nodup_globals_iff :
    (declaredNames program.lowered.draft .program ++ functionNames program.lowered.draft).Nodup ↔
      ∀ name ∈ declaredNames program.lowered.draft .program, name ∉ functionNames program.lowered.draft := by
  have stored : (declaredNames program.lowered.draft .program).Nodup := by
    rw [declaredNames_eq program.lowered_sound.storage]
    exact program.moves_lowered.tabled.distinct.sublist (List.filter_sublist.map _)
  have functions : (functionNames program.lowered.draft).Nodup := by
    rw [functionNames_eq]
    exact Draft.nodup_functions _
  rw [List.nodup_append', List.disjoint_left]
  exact ⟨fun distinct _ declared => distinct.2.2 declared,
    fun apart => ⟨stored, functions, fun name declared => apart name declared⟩⟩

theorem variable_of_own {storage : Storage} (declared : storage ∈ program.lowered.draft.storage)
    (own : storage.name ∈ program.lowered.draft.ownMembers ++ functionNames program.lowered.draft) :
    ¬ program.lowered.draft.Made storage ∧ storage.name ∈ program.variableNames := by
  have sorted := program.moves_lowered.sorted
  have ownName : OwnName storage.name := by
    rw [functionNames_eq] at own
    rcases List.mem_append.1 own with member | function
    · exact Draft.ownName_of_mem_ownMembers _ member
    · exact Draft.ownName_of_mem_functions _ function
  have unmade : ¬ program.lowered.draft.Made storage := fun made =>
    (sorted.made storage declared made).not_own ownName
  exact ⟨unmade, sorted.unmade storage declared unmade⟩

theorem declared_avoids (other : ∀ name ∈ program.variableNames,
      name ∉ program.lowered.draft.ownMembers ++ functionNames program.lowered.draft)
    (scope : Scope) : ∀ name ∈ declaredNames program.lowered.draft scope,
      name ∉ program.lowered.draft.ownMembers ++ functionNames program.lowered.draft := by
  rw [declaredNames_eq program.lowered_sound.storage]
  intro name member own
  obtain ⟨storage, among, rfl⟩ := List.mem_map.1 member
  have fromVariable := program.variable_of_own (List.mem_of_mem_filter among) own
  exact other _ fromVariable.2 own

theorem definitions_in_order : program.DefinitionsInOrder := by
  have named := program.lowered_sound.storage
  have members : structureNames program.lowered.draft =
      program.lowered.draft.ownMembers ++ declaredNames program.lowered.draft .application := by
    rw [structureNames_eq named, declaredNames_eq named, Draft.members_eq]
  have membersOnce : (structureNames program.lowered.draft).Nodup ↔
      ∀ name ∈ declaredNames program.lowered.draft .application,
        name ∉ program.lowered.draft.ownMembers := by
    rw [structureNames_eq named, declaredNames_eq named, List.forall_mem_map]
    exact Draft.nodup_members_iff _ program.moves_lowered.tabled.distinct
  have globalsOnce := program.nodup_globals_iff
  refine ⟨members, functionNames_eq _, membersOnce, globalsOnce,
    fun storage declared => program.variable_of_own declared, fun other => ⟨?_, ?_⟩⟩
  · rw [membersOnce]
    intro name declared own
    exact program.declared_avoids other _ name declared (List.mem_append_left _ own)
  · rw [globalsOnce]
    intro name declared function
    exact program.declared_avoids other _ name declared (List.mem_append_right _ function)

end

def settingVariable (name : String) (value : List (String × List Block)) : Program :=
  ⟨[[.mk { kind := .app } [] [("LOOP",
    [.mk { kind := .setVariable, fields := [("VAR", .text name)] } value []])]]]⟩

def scoreVariable : Program := settingVariable "score" []

def widgetVariable : Program := settingVariable "widget" []

def renderVariable : Program := settingVariable "update_render" [("VALUE", [.mk { kind := .text } [] []])]

theorem scoreVariable_definitions_in_order : ((structureNames scoreVariable.lowered.draft).Nodup ∧
      (declaredNames scoreVariable.lowered.draft .program ++
        functionNames scoreVariable.lowered.draft).Nodup) ∧
    ¬ widgetVariable.lowered.draft.Made ⟨"widget", .int⟩ ∧ "widget" ∈ widgetVariable.variableNames := by
  refine ⟨scoreVariable.definitions_in_order.avoided ?_,
    widgetVariable.definitions_in_order.fromVariables ⟨"widget", .int⟩ (by decide +kernel) ?_⟩
  · rw [functionNames_eq]
    decide +kernel
  · rw [functionNames_eq]
    decide +kernel

/-- A number may have the name of a member, and a text that of a function. -/
theorem variables_clash : ¬ (structureNames widgetVariable.lowered.draft).Nodup ∧
      "update_render" ∈ declaredNames renderVariable.lowered.draft .program ∧
        "update_render" ∈ functionNames renderVariable.lowered.draft := by
  refine ⟨by decide +kernel, by decide +kernel, ?_⟩
  rw [functionNames_eq]
  decide +kernel

end Program

end FlipperBlocks
