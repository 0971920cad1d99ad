import FlipperBlocks.Proofs.Application.Allocation

/-! Every call of an application finds its driver.

The texts of an application call functions of routines, and functions that some header declares. The
features of its draft bring in both. -/
namespace FlipperBlocks.Application

variable {draft : Draft} {features : Features} {function : String}

inductive Takes : String → String → Prop
  | power : Takes "pow" "math.h"
  | notification : Takes "notification_message" "notification/notification.h"
  | messages : Takes "notification_message" "notification/notification_messages.h"
  | pwm (rest : String) : Takes ("furi_hal_pwm_" ++ rest) "furi_hal_pwm.h"
  | lowPowerTimer (rest : String) : Takes ("LL_LPTIM_" ++ rest) "stm32wbxx_ll_lptim.h"
  | file {routine : Routine} {function : String}
      (among : routine ∈ [.readFile, .writeFile, .fileExists, .createFile, .deleteFile])
      (defined : function ∈ routine.functions) : Takes function "storage/storage.h"
  | analog {function : String} (defined : function ∈ Routine.readAnalog.functions) :
      Takes function "furi_hal_adc.h"
  | channel {function : String} (defined : function ∈ Routine.readAnalog.functions) :
      Takes function "furi_hal_resources.h"
  | bus {routine : Routine} {function : String}
      (among : routine ∈ [.resolveBus, .readRegister8, .writeRegister8, .readRegister16,
        .writeRegister16, .writeMemory, .readMemory, .deviceReady])
      (defined : function ∈ routine.functions) : Takes function "furi_hal_i2c.h"

/-- What an application calls is there. -/
structure Supported (draft : Draft) : Prop where
  fragments : ∀ fragment ∈ fragments draft, ∀ function ∈ C.calls fragment, ∀ routine ∈ routines,
    function ∈ routine.functions → routine ∈ routinesFor draft.features
  start : ∀ function ∈ C.calls ("".intercalate (allocationPieces draft)), ∀ routine ∈ routines,
    function ∈ routine.functions → routine ∈ routinesFor draft.features
  drivers : ∀ caller ∈ routinesFor draft.features, ∀ function ∈ caller.calls,
    ∀ routine ∈ routines, function ∈ routine.functions → routine ∈ routinesFor draft.features
  headers : ∀ fragment ∈ Application.fragments draft, ∀ function ∈ C.calls fragment, ∀ name,
    Takes function name → ∃ header ∈ headersFor draft.features, header.name = name
  closed : ∀ feature, draft.features.has feature = true → ∀ other ∈ feature.requires,
    draft.features.has other = true
  outputs : draft.pwm ≠ [] → draft.features.has .pwm = true

theorem Served.mem_routinesFor (served : Served features function) {routine : Routine}
    (member : routine ∈ routines) (defined : function ∈ routine.functions) : routine ∈ routinesFor features :=
  List.mem_filter.2 ⟨member, served routine member defined⟩

theorem served_of_calls {caller : Routine} (member : caller ∈ routines)
    (wanted : isWanted caller.wantedBy features = true)
    (closed : ∀ feature, features.has feature = true → ∀ other ∈ feature.requires, features.has other = true)
    (called : function ∈ caller.calls) : Served features function := by
  intro routine among defined
  obtain ⟨feature, wants, has⟩ := (isWanted_iff member).1 wanted
  obtain ⟨other, related, wantsOther⟩ := wantedBy_of_calls member among called defined wants
  rcases List.mem_cons.1 related with same | required
  · exact (isWanted_iff among).2 ⟨other, wantsOther, same ▸ has⟩
  · exact (isWanted_iff among).2 ⟨other, wantsOther, closed feature has other required⟩

theorem exists_header {feature : Feature} {name : String} (listed : ⟨[feature], name⟩ ∈ headers)
    (has : features.has feature = true) : ∃ header ∈ headersFor features, header.name = name := by
  refine ⟨⟨[feature], name⟩, List.mem_filter.2 ⟨listed, ?_⟩, rfl⟩
  simp [isWanted, Features.hasAny, has]

def callable : List (String × List Feature) :=
  C.Line.keywords.map (fun word => (word, [])) ++ vocabulary

theorem callable_of_fits {code : C.Code} (fits : code.Fits draft) (called : function ∈ code.calls) :
    ∃ needs, (function, needs) ∈ callable ∧ ∀ feature ∈ needs, draft.features.has feature = true := by
  rcases fits.holds.call called with keyword | ⟨needs, listed, enabled⟩
  · have listed := List.mem_map_of_mem (f := fun word => (word, ([] : List Feature))) keyword
    exact ⟨[], List.mem_append_left _ listed, nofun⟩
  · exact ⟨needs, List.mem_append_right _ listed, enabled⟩

theorem callable_needs : ∀ entry ∈ callable, (entry.1 = "pow" → Feature.math ∈ entry.2) ∧
      (entry.1 = "notification_message" → Feature.notifications ∈ entry.2) ∧
        ("furi_hal_pwm_".toList <+: entry.1.toList → Feature.pwm ∈ entry.2) ∧
          ("LL_LPTIM_".toList <+: entry.1.toList → Feature.servoLowPower ∈ entry.2) := by
  decide +kernel

theorem has_of_served (needed : Feature) {family : List Routine}
    (listed : ∀ routine ∈ family, routine ∈ routines)
    (wants : ∀ routine ∈ family, ∀ feature ∈ routine.wantedBy, needed ∈ feature :: feature.requires)
    (closed : ∀ feature, features.has feature = true → ∀ other ∈ feature.requires, features.has other = true)
    (served : Served features function) {routine : Routine} (among : routine ∈ family)
    (defined : function ∈ routine.functions) : features.has needed = true := by
  have member := listed routine among
  obtain ⟨feature, wanted, has⟩ := (isWanted_iff member).1 (served routine member defined)
  rcases List.mem_cons.1 (wants routine among feature wanted) with same | required
  · exact same ▸ has
  · exact closed feature has needed required

theorem exists_header_of_fits {code : C.Code} (fits : code.Fits draft)
    (closed : ∀ feature, draft.features.has feature = true → ∀ other ∈ feature.requires,
      draft.features.has other = true)
    (called : function ∈ code.calls) {name : String} (takes : Takes function name) :
    ∃ header ∈ headersFor draft.features, header.name = name := by
  have served := served_of_fits fits called
  obtain ⟨needs, listed, enabled⟩ := callable_of_fits fits called
  obtain ⟨math, notifications, pwm, lowPower⟩ := callable_needs _ listed
  cases takes with
  | power => exact exists_header (by simp [headers]) (enabled .math (math rfl))
  | notification | messages =>
    exact exists_header (by simp [headers]) (enabled .notifications (notifications rfl))
  | pwm rest =>
    have begins : "furi_hal_pwm_".toList <+: ("furi_hal_pwm_" ++ rest).toList := by
      rw [String.toList_append]
      exact List.prefix_append _ _
    exact exists_header (by simp [headers]) (enabled .pwm (pwm begins))
  | lowPowerTimer rest =>
    have begins : "LL_LPTIM_".toList <+: ("LL_LPTIM_" ++ rest).toList := by
      rw [String.toList_append]
      exact List.prefix_append _ _
    exact exists_header (by simp [headers]) (enabled .servoLowPower (lowPower begins))
  | file among defined =>
    have has := has_of_served .files (by simp [routines]) (by decide) closed served among defined
    exact exists_header (by simp [headers]) has
  | analog defined | channel defined =>
    have has := has_of_served .analog (by simp [routines]) (by decide) closed served
      (List.mem_singleton_self Routine.readAnalog) defined
    exact exists_header (by simp [headers]) has
  | bus among defined =>
    have has := has_of_served .bus (by simp [routines]) (by decide) closed served among defined
    exact exists_header (by simp [headers]) has

end FlipperBlocks.Application

namespace FlipperBlocks.Program

open Application

/-- Whatever is called in the application of a program is part of it. -/
theorem lowered_supported (program : Program) : Supported program.lowered.draft where
  fragments fragment member function called routine among defined := by
    obtain ⟨code, fits, rows⟩ := fits_of_fragment program.lowered_sound member
    rw [calls_of_rows rows] at called
    exact (served_of_fits fits called).mem_routinesFor among defined
  start function called routine among defined :=
    (served_allocation program.lowered_sound function called).mem_routinesFor among defined
  drivers caller brought function called routine among defined := by
    obtain ⟨member, wanted⟩ := List.mem_filter.1 brought
    have served := served_of_calls member wanted program.lowered_sound.closed called
    exact served.mem_routinesFor among defined
  headers fragment member function called name takes := by
    obtain ⟨code, fits, rows⟩ := fits_of_fragment program.lowered_sound member
    rw [calls_of_rows rows] at called
    exact exists_header_of_fits fits program.lowered_sound.closed called takes
  closed := program.lowered_sound.closed
  outputs := program.lowered_sound.outputs

def single (name : String) (block : Block) : Program :=
  ⟨[[.mk { kind := .app } [] [(name, [block])]]]⟩

def printed (block : Block) : Block := .mk { kind := .print } [("TEXT", [block])] []

def random : Block := .mk { kind := .randomNumber } [] []

def registerReader : Program := single "LOOP" (printed (.mk { kind := .readRegister8 } [] []))

theorem registerReader_supported : (∃ fragment ∈ fragments registerReader.lowered.draft,
      "kb_i2c_read_reg8" ∈ C.calls fragment) ∧
      Routine.readRegister8 ∈ routinesFor registerReader.lowered.draft.features ∧
        ∃ header ∈ headersFor registerReader.lowered.draft.features, header.name = "furi_hal_i2c.h" := by
  have listed : Routine.readRegister8 ∈ routines := by simp [routines]
  have defined : "kb_i2c_read_reg8" ∈ Routine.readRegister8.functions := by
    have profile : (Routine.readRegister8, ["kb_i2c_read_reg8"], ["_resolve_i2c_handle"]) ∈
        catalogue := by simp [catalogue, routines, profiles]
    rw [(describes_catalogue _ profile).functions]
    exact List.mem_singleton_self _
  have kept : "kb_i2c_read_reg8" ∈ registerReader.lowered.draft.calls := by decide +kernel
  obtain ⟨fragment, member, calls⟩ := (mem_calls_fragments registerReader.lowered_sound).2 kept
  have supported := registerReader.lowered_supported
  exact ⟨⟨fragment, member, calls⟩, supported.fragments _ member _ calls _ listed defined,
    supported.headers _ member _ calls _ (.bus (by simp) defined)⟩

/-- Every routine of the application of a program has a caller, or one of its functions is called in
the code of an input that a block of the program has no use for, and holds a block in. -/
theorem routine_called_or_left_out (program : Program) :
    (∀ routine ∈ routinesFor program.lowered.draft.features, ∃ function ∈ routine.functions,
      function ∈ Application.inner ∨
        (∃ fragment ∈ fragments program.lowered.draft, function ∈ C.calls fragment) ∨
          program.LeavesOut function) ∧
    ∀ function, program.LeavesOut function → ∃ root ∈ program.roots, ∃ block ∈ root, block.HoldsIdle := by
  refine ⟨fun routine brought => ?_, fun function => ?_⟩
  · obtain ⟨member, wanted⟩ := List.mem_filter.1 brought
    obtain ⟨function, defined, owed | called | within | left⟩ := program.lowered_serves routine member wanted
    · contradiction
    · exact ⟨function, defined, .inr (.inl ((mem_calls_fragments program.lowered_sound).2 called))⟩
    · exact ⟨function, defined, .inl within⟩
    · exact ⟨function, defined, .inr (.inr left)⟩
  · rintro ⟨root, member, block, there, left⟩
    exact ⟨root, member, block, there, left.holdsIdle⟩

/-- No block of the program has an input without use, so that the routine has a caller. -/
theorem registerReader_routine_called :
    Routine.readRegister8 ∈ routinesFor registerReader.lowered.draft.features ∧
      ∃ function ∈ Routine.readRegister8.functions, function ∈ Application.inner ∨
        ∃ fragment ∈ fragments registerReader.lowered.draft, function ∈ C.calls fragment := by
  have brought : Routine.readRegister8 ∈ routinesFor registerReader.lowered.draft.features :=
    List.mem_filter.2 ⟨by simp [routines], by decide +kernel⟩
  have busy : ∀ root ∈ registerReader.roots, ∀ block ∈ root, ∀ part ∈ block.parts,
      part.head.kind.idleInputs = [] := by decide
  obtain ⟨served, only⟩ := registerReader.routine_called_or_left_out
  obtain ⟨function, defined, inner | called | left⟩ := served _ brought
  · exact ⟨brought, function, defined, .inl inner⟩
  · exact ⟨brought, function, defined, .inr called⟩
  · obtain ⟨root, member, block, there, part, inside, input, idle, _⟩ := only function left
    rw [busy root member block there part inside] at idle
    exact absurd idle List.not_mem_nil

def randomLine : Program := single "DRAW" (.mk { kind := .drawLine } [("X", [random])] [])

def randomLength : Program := single "LOOP" (printed (.mk { kind := .readBytes } [("LEN", [random])] []))

def countedBytes : Program :=
  single "LOOP" (printed (.mk { kind := .streamLength } [("STREAM", [.mk { kind := .readBytes } [] []])] []))

/-- A routine is part of an application, and none of its fragments calls it. -/
def Orphaned (draft : Draft) (routine : Routine) : Prop :=
  routine ∈ routinesFor draft.features ∧ ∀ function ∈ routine.functions,
    function ∉ Application.inner ∧ ∀ fragment ∈ fragments draft, function ∉ C.calls fragment

theorem orphaned_of_calls {program : Program} {routine : Routine} {name : String}
    (member : routine ∈ routines) (functions : routine.functions = [name])
    (wanted : isWanted routine.wantedBy program.lowered.draft.features = true)
    (outer : name ∉ Application.inner) (uncalled : name ∉ program.lowered.draft.calls) :
    Orphaned program.lowered.draft routine := by
  refine ⟨List.mem_filter.2 ⟨member, wanted⟩, fun function defined => ?_⟩
  rw [functions, List.mem_singleton] at defined
  rw [defined]
  exact ⟨outer, fun fragment among called =>
    uncalled ((mem_calls_fragments program.lowered_sound).1 ⟨fragment, among, called⟩)⟩

/-- Each of the inputs that blocks have no use for can bring in a routine without a caller. -/
theorem idle_inputs_orphan_routines : Orphaned randomLine.lowered.draft .randomRange ∧
      Orphaned randomLength.lowered.draft .randomRange ∧ Orphaned countedBytes.lowered.draft .readMemory := by
  have range : Routine.randomRange ∈ routines := by simp [routines]
  have memory : Routine.readMemory ∈ routines := by simp [routines]
  have ranges : Routine.randomRange.functions = ["random_range"] :=
    (describes_catalogue (.randomRange, ["random_range"], [])
      (by simp [catalogue, routines, profiles])).functions
  have memories : Routine.readMemory.functions = ["kb_i2c_read_mem_bytes"] :=
    (describes_catalogue (.readMemory, ["kb_i2c_read_mem_bytes"], ["_resolve_i2c_handle"])
      (by simp [catalogue, routines, profiles])).functions
  refine ⟨orphaned_of_calls range ranges ?_ ?_ ?_, orphaned_of_calls range ranges ?_ ?_ ?_,
    orphaned_of_calls memory memories ?_ ?_ ?_⟩
  all_goals decide +kernel

end FlipperBlocks.Program
