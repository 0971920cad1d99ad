import FlipperBlocks.Proofs.Lowering.OrderlyCode
import FlipperBlocks.Proofs.Lowering.PinConflicts

/-! The modes that the code of a program sets its pins to.

A pin has the mode that it was first asked for. Blocks that set up a pin do so in any case, so that code
may set a pin to another mode, and then the conflict is on record. -/
namespace FlipperBlocks

open Application Lowering
open C (Code)

namespace Draft

variable {names : List String} {draft : Draft}

theorem mem_kept {code : Code} : code ∈ draft.kept ↔ (∃ setup ∈ draft.setups, code = Code.line setup.line) ∨
      (∃ line ∈ draft.beforeDraw, code = Code.line line) ∨ ∃ phase, (phase, code) ∈ draft.bodies := by
  have all : draft.kept = draft.setups.map (fun setup => Code.line setup.line) ++
      (draft.beforeDraw.map Code.line ++ draft.bodies.map Prod.snd) := by
    rw [← codes_eq]
    rfl
  rw [all]
  simp [eq_comm]

def Sets (draft : Draft) (setting : String × String) : Prop := ∃ line ∈ draft.lines, setting ∈ line.settings

theorem sets_iff {setting : String × String} :
    draft.Sets setting ↔ ∃ body ∈ draft.bodies, setting ∈ body.2.settings := by
  have inCode {code : Code} :
      setting ∈ code.settings ↔ ∃ line ∈ code.lines, setting ∈ line.settings := by
    simp [Code.settings, Code.lines]
  simp only [Sets, mem_lines, codes_eq, List.mem_map, inCode]
  constructor
  · rintro ⟨line, ⟨_, ⟨body, member, rfl⟩, there⟩, sets⟩
    exact ⟨body, member, line, there, sets⟩
  · rintro ⟨body, member, line, there, sets⟩
    exact ⟨line, ⟨_, ⟨body, member, rfl⟩, there⟩, sets⟩

theorem Orderly.kept (orderly : draft.Orderly names) {code : Code} (member : code ∈ draft.kept) :
    ∃ phase : Phase, code.Orderly phase.objects ∧ ∀ setting ∈ code.settings,
      setting ∈ startSetups draft ∨ draft.Sets setting := by
  rcases mem_kept.1 member with ⟨setup, there, rfl⟩ | ⟨line, there, rfl⟩ | ⟨phase, body⟩
  · refine ⟨.loop, C.Code.orderly_setup setup, fun setting among => .inl ?_⟩
    rw [C.Code.settings_line, C.settings_setup, List.mem_singleton] at among
    rw [startSetups_eq, among]
    exact List.mem_map_of_mem there
  · have ordinary : (Code.line line).Ordinary Phase.draw.objects :=
      C.Code.ordinary_line.2 (orderly.beforeDraw line there).ordinary
    refine ⟨.draw, ordinary.orderly, fun setting among => ?_⟩
    rw [ordinary.settings_eq] at among
    contradiction
  · exact ⟨phase, orderly.bodies _ body, fun setting among => .inr (sets_iff.2 ⟨_, body, among⟩)⟩

end Draft

namespace Application

variable {names : List String} {draft : Draft}

theorem pinSetups_of_fragment {last : Draft} (sound : draft.Sound last) (orderly : draft.Orderly names)
    {fragment : String} (member : fragment ∈ fragments draft) :
    (C.calls fragment).count "furi_hal_gpio_init" = (C.pinSetups fragment).length ∧
      ∀ setting ∈ C.pinSetups fragment, setting ∈ startSetups draft ∨ draft.Sets setting := by
  obtain ⟨code, kept, rows⟩ := exists_kept_of_fragment sound member
  obtain ⟨phase, inOrder, sources⟩ := orderly.kept kept
  have read : C.pinSetups fragment = code.settings := by
    rw [C.pinSetups, tokens_of_rows rows, inOrder.setupsIn_tokens]
  rw [read, calls_of_rows rows]
  exact ⟨inOrder.count_calls, sources⟩

theorem exists_fragment_of_settings {last : Draft} (sound : draft.Sound last)
    (orderly : draft.Orderly names) {setting : String × String} (member : draft.Sets setting) :
    ∃ fragment ∈ fragments { draft with setups := [] }, setting ∈ C.pinSetups fragment := by
  obtain ⟨⟨phase, code⟩, body, among⟩ := Draft.sets_iff.1 member
  have kept : code ∈ Draft.kept { draft with setups := [] } := Draft.mem_kept.2 (.inr (.inr ⟨phase, body⟩))
  have soundToo : Draft.Sound { draft with setups := [] } last := { sound with }
  obtain ⟨fragment, there, rows⟩ := exists_fragment_of_kept soundToo kept
  refine ⟨fragment, there, ?_⟩
  rw [C.pinSetups, tokens_of_rows rows, (orderly.bodies _ body).setupsIn_tokens]
  exact among

end Application

namespace Program

/-- Wherever the fragments of a program set up a pin, it is to the mode that is recorded for the pin,
or the conflict between the two modes is on record. At the start it is always to the recorded mode. -/
theorem pin_modes_told (program : Program) : (∀ setting ∈ startSetups program.lowered.draft, ∃ pin mode,
      setting = (pin.object, mode.symbol) ∧ program.lowered.draft.mode? pin = some mode) ∧
    ∀ fragment ∈ fragments program.lowered.draft,
      (C.calls fragment).count "furi_hal_gpio_init" = (C.pinSetups fragment).length ∧
        ∀ setting ∈ C.pinSetups fragment, ∃ (setup : PinSetup) (recorded : PinMode),
          setting = setup.written ∧ program.lowered.draft.mode? setup.pin = some recorded ∧
            (recorded = setup.mode ∨
              ∃ location, setup.conflict recorded location ∈ program.lowered.diagnostics) := by
  have accounts := program.accounts_lowered
  have inOrder := program.moves_lowered.pinsInOrder
  refine ⟨inOrder.recorded, fun fragment member => ?_⟩
  obtain ⟨calls, sources⟩ :=
    Application.pinSetups_of_fragment program.lowered_sound program.orderly_lowered member
  refine ⟨calls, fun setting among => ?_⟩
  rcases sources setting among with atStart | running
  · obtain ⟨pin, mode, rfl, recorded⟩ := inOrder.recorded setting atStart
    exact ⟨⟨pin, mode, .none⟩, mode, rfl, recorded, .inl rfl⟩
  · obtain ⟨line, there, sets⟩ := running
    obtain ⟨setup, rfl, recorded, used, told⟩ := accounts.settled line there setting sets
    refine ⟨setup, recorded, rfl, used, told.imp_right fun ⟨location, noted⟩ => ?_⟩
    exact ⟨location, noted trivial⟩

def pinTurned : Program :=
  ⟨[[.mk { kind := .app } [] [("LOOP",
    [.mk { kind := .setupPin, fields := [("PIN", .text "PA7"), ("MODE", .text "INPUT")] } [] [],
      .mk { kind := .setupPin, fields := [("PIN", .text "PA7"), ("MODE", .text "OUTPUT")] } [] []])]]]⟩

def pinTurnedLoop : String :=
  "    furi_hal_gpio_init(&gpio_ext_pa7, GpioModeInput, GpioPullNo, GpioSpeedVeryHigh);\n" ++
    "    furi_hal_gpio_init(&gpio_ext_pa7, GpioModeOutputPushPull, GpioPullNo, GpioSpeedVeryHigh);\n"

theorem pinTurned_modes_told : pinTurnedLoop ∈ fragments pinTurned.lowered.draft ∧
      ∀ setting ∈ C.pinSetups pinTurnedLoop, ∃ (setup : PinSetup) (recorded : PinMode),
        setting = setup.written ∧ pinTurned.lowered.draft.mode? setup.pin = some recorded ∧
          (recorded = setup.mode ∨
            ∃ location, setup.conflict recorded location ∈ pinTurned.lowered.diagnostics) := by
  have member : pinTurnedLoop ∈ fragments pinTurned.lowered.draft := by decide +kernel
  exact ⟨member, (pinTurned.pin_modes_told.2 pinTurnedLoop member).2⟩

/-- The second setup is said to be ignored, and is carried out. -/
theorem pinTurned_set_up_twice : pinTurned.lowered.diagnostics.map Diagnostic.degradation =
        [.pinConflict "PA7" "digital input" "digital output"] ∧
      pinTurnedLoop ∈ fragments pinTurned.lowered.draft ∧ C.pinSetups pinTurnedLoop =
          [("gpio_ext_pa7", "GpioModeInput"), ("gpio_ext_pa7", "GpioModeOutputPushPull")] := by
  decide +kernel

end Program

/-! Pins that are read. -/

theorem Compilation.mode_of_silent {c : Compilation} {setup : PinSetup} {previous : PinMode}
    (used : c.draft.mode? setup.pin = some previous) (silent : c.conflicts setup = []) :
    previous = setup.mode := by
  unfold conflicts at silent
  rw [used] at silent
  dsimp only at silent
  by_contra differ
  rw [if_neg differ] at silent
  contradiction

namespace Site

variable {site : Site} {setup : PinSetup} {c : Compilation}

theorem mode_of_value (other : site.kind ≠ .setupPin) (asks : site.head.setup? = some setup)
    (wantsText : Bool) (silent : (site.asValue wantsText c).2.diagnostics = c.diagnostics) :
    (site.asValue wantsText c).2.draft.mode? setup.pin = some setup.mode := by
  rw [diagnostics_value_of_asks other asks, List.append_right_eq_self] at silent
  obtain ⟨features, value, _, _, same⟩ := value_of_asks [] other asks wantsText
  have run : (site.asValue wantsText c).2 =
      (configurePin setup { c with draft := c.draft.enable features }).2 := by
    rw [same]
    rfl
  rw [run, run_configurePin]
  cases used : c.draft.mode? setup.pin with
  | none =>
    rw [if_pos (show (c.draft.enable features).mode? setup.pin = none from used)]
    change ((c.draft.enable features).usePin setup.pin setup.mode).mode? setup.pin = some setup.mode
    rw [Draft.mode?_usePin, show (c.draft.enable features).mode? setup.pin = none from used]
    simp
  | some previous =>
    have busy : (c.draft.enable features).mode? setup.pin = some previous := used
    rw [if_neg (by rw [busy]; exact Option.some_ne_none _), ← Compilation.mode_of_silent used silent]
    exact busy

end Site

namespace Program

theorem set_up_of_mode (program : Program) {setup : PinSetup} (plain : setup.pull = .none)
    (used : program.lowered.draft.mode? setup.pin = some setup.mode) : setup ∈ program.lowered.draft.setups ∨
      ∃ fragment ∈ fragments { program.lowered.draft with setups := [] },
        setup.written ∈ C.pinSetups fragment := by
  have accounts := program.accounts_lowered
  rcases accounts.served setup.pin setup.mode used with atStart | running
  · rw [← plain] at atStart
    exact .inl atStart
  · exact .inr
      (Application.exists_fragment_of_settings program.lowered_sound program.orderly_lowered running)

/-- Wherever a block that reads a pin is lowered with nothing to tell, and what it does is kept in the
draft of the program, its pin is set up for it: at the start, unless some other code does so. -/
theorem sensor_pins_set_up (program : Program) :
    program.Throughout fun head before after => ∀ setup, head.kind ≠ .setupPin →
      head.setup? = some setup → after.diagnostics = before.diagnostics →
        after.draft.Extends program.lowered.draft → setup ∈ program.lowered.draft.setups ∨
          ∃ fragment ∈ fragments { program.lowered.draft with setups := [] },
            setup.written ∈ C.pinSetups fragment := by
  refine throughout_of_passes ⟨?_, ?_⟩
  · intro twins c wantsText _ setup other asks silent kept
    obtain ⟨_, _, plain, _⟩ := @Site.value_of_asks [] twins.second _ other asks wantsText
    have used := twins.second.mode_of_value other asks wantsText silent
    exact program.set_up_of_mode plain (kept.mode used)
  · -- As a statement such a block is misplaced, and that is told.
    intro twins c _ setup other asks silent _
    have produces := (twins.second.kind_of_asks asks).resolve_left other
    rw [twins.second.diagnostics_statement_of_misplaced produces, List.append_right_eq_self] at silent
    contradiction

def pinSetUpByButton : Program :=
  ⟨[[.mk { kind := .app } [] [("DRAW", [.mk { kind := .button } [] [("DO",
        [.mk { kind := .setupPin, fields := [("PIN", .text "PA6"), ("MODE", .text "ANALOG")] } [] []])],
      .mk { kind := .drawText } [("TEXT",
        [.mk { kind := .readAnalog, fields := [("PIN", .text "PA6")] } [] []])] []])]]]⟩

/-- The voltage is read whenever the screen is drawn, and the pin is set up for that when the button
is pressed. -/
theorem pinSetUpByButton_not_at_start : pinSetUpByButton.lowered.diagnostics = [] ∧
      pinSetUpByButton.lowered.draft.setups = [] ∧
        "adc_read_raw_on_gpio" ∈ pinSetUpByButton.lowered.draft.draw.calls ∧
          pinSetUpByButton.lowered.draft.buttons.map Code.settings =
            [[("gpio_ext_pa6", "GpioModeAnalog")]] := by
  decide +kernel

end Program

end FlipperBlocks
