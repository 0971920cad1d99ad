import FlipperBlocks.Proofs.Application.Routines
import FlipperBlocks.Proofs.C.Calls
import FlipperBlocks.Proofs.C.Names

/-! The words that generated code is made of.

Names, numbers and types are spelled as what they are. The functions that code calls come from a
closed list, where each stands with the features that bring in what it needs, and the members of the
application that code reaches are those that the last draft has. -/
namespace FlipperBlocks

open C.Identifier
open C (Atom)

def vocabulary : List (String × List Feature) :=
  [("sizeof", []),
    ("snprintf", []),
    ("strcmp", []),
    ("strlen", []),
    ("strncpy", []),
    ("furi_delay_ms", []),
    ("furi_hal_gpio_init", []),
    ("furi_hal_gpio_read", []),
    ("furi_hal_gpio_write", []),
    ("view_dispatcher_send_custom_event", []),
    ("widget_add_button_element", []),
    ("widget_add_circle_element", []),
    ("widget_add_line_element", []),
    ("widget_add_rect_element", []),
    ("widget_add_string_element", []),
    ("widget_add_text_box_element", []),
    ("widget_add_text_scroll_element", []),
    ("FURI_LOG_E", []),
    ("FURI_LOG_W", []),
    ("FURI_LOG_I", []),
    ("FURI_LOG_D", []),
    ("FURI_LOG_T", []),
    ("pow", [.math]),
    ("notification_message", [.notifications]),
    ("random_range", [.random]),
    ("extract_number_from_string", [.textToNumber]),
    ("storage_simple_read", [.files, .fileRead]),
    ("storage_simple_write", [.files, .fileWrite]),
    ("storage_simple_exists", [.files, .fileExists]),
    ("storage_simple_create", [.files, .fileCreate]),
    ("storage_simple_delete", [.files, .fileDelete]),
    ("adc_read_raw_on_gpio", [.analog]),
    ("adc_raw_to_mv_scale", [.analog]),
    ("hc_sr04_measure_cm", [.distance]),
    ("dht11_read_temperature_c", [.dht11]),
    ("dht11_read_humidity_percent", [.dht11]),
    ("furi_hal_pwm_is_running", [.pwm]),
    ("furi_hal_pwm_start", [.pwm]),
    ("furi_hal_pwm_set_params", [.pwm]),
    ("furi_hal_pwm_stop", [.pwm]),
    ("servo_angle_to_compare", [.servoTimer1]),
    ("servo_custom_pwm_set_params", [.servoTimer1]),
    ("servo_angle_to_lptim_compare", [.servoLowPower]),
    ("servo_lptim2_set_params", [.servoLowPower]),
    ("LL_LPTIM_GetAutoReload", [.servoLowPower]),
    ("kb_i2c_device_ready", [.bus, .busReady]),
    ("kb_i2c_read_reg8", [.bus, .busRead8]),
    ("kb_i2c_write_reg8", [.bus, .busWrite8]),
    ("kb_i2c_read_reg16", [.bus, .busRead16]),
    ("kb_i2c_write_reg16", [.bus, .busWrite16]),
    ("kb_i2c_read_mem_bytes", [.bus, .busReadBytes]),
    ("kb_i2c_write_mem_bytes", [.bus, .busWriteBytes])]

def Draft.members (draft : Draft) : List String :=
  ["view_dispatcher", "widget"] ++ (if draft.features.has .notifications then ["notif"] else []) ++
    ((List.range draft.timers.length).map fun index => "timer_" ++ toString index) ++
      (draft.storage.filter fun storage => storage.scope = .application).map Storage.name

def Allowed (last : Draft) : Atom → Prop
  | .number digits => C.isNumeral digits.toList = true
  | .name text => isIdentifier text = true
  | .member object field =>
    isIdentifier object = true ∧ isIdentifier field = true ∧
      (object = "app" → field ∈ last.members)
  | .type text => isIdentifier text = true ∨ text = "void*"
  | .call function => ∃ needs, (function, needs) ∈ vocabulary ∧
    ∀ feature ∈ needs, last.features.has feature = true
  | .counter text => ∃ number, text = Draft.numbered "i" number
  | .remark text => '*' ∉ text.toList ∧ '\n' ∉ text.toList ∧ '\r' ∉ text.toList

variable {last : Draft}

theorem allowed_number {digits : String}
    (numeral : C.isNumeral digits.toList = true) : Allowed last (.number digits) := numeral

theorem allowed_name {text : String} (named : isIdentifier text = true) : Allowed last (.name text) := named

theorem allowed_type {text : String}
    (named : isIdentifier text = true) : Allowed last (.type text) := .inl named

theorem allowed_free {function : String}
    (listed : (function, []) ∈ vocabulary) : Allowed last (.call function) :=
  ⟨[], listed, nofun⟩

private theorem vocabulary_identifiers : ∀ entry ∈ vocabulary, isIdentifier entry.1 = true := by
  decide +kernel

private theorem vocabulary_drivers : ∀ entry ∈ vocabulary, ∀ described ∈ Application.catalogue,
      entry.1 ∈ described.2.1 → ∃ feature ∈ entry.2, feature ∈ described.1.wantedBy := by
  decide +kernel

theorem Allowed.spelled {atom : Atom} (allowed : Allowed last atom) : atom.Spelled := by
  cases atom with
  | call function =>
    obtain ⟨needs, listed, _⟩ := allowed
    exact vocabulary_identifiers _ listed
  | member object field => exact ⟨allowed.1, allowed.2.1⟩
  | counter text =>
    obtain ⟨number, rfl⟩ := allowed
    exact isIdentifier_numbered (by decide) number
  | _ => exact allowed

theorem isWanted_of_allowed {function : String}
    (allowed : Allowed last (.call function)) {routine : Application.Routine}
    (member : routine ∈ Application.routines) (defined : function ∈ routine.functions) :
    Application.isWanted routine.wantedBy last.features = true := by
  obtain ⟨needs, listed, enabled⟩ := allowed
  obtain ⟨profile, paired, describes⟩ := Application.exists_profile routine member
  rw [describes.functions] at defined
  obtain ⟨feature, needed, wanted⟩ := vocabulary_drivers _ listed _ paired defined
  exact (Application.isWanted_iff member).2 ⟨feature, wanted, enabled feature needed⟩

end FlipperBlocks
