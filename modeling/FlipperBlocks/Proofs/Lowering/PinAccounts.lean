import FlipperBlocks.Proofs.Lowering.EnteredPrograms

/-! The accounts of a compilation about its pins: each line that sets up a pin is for a pin in use, and each
pin in use is set up at the start or by a line. -/
namespace FlipperBlocks

open C (Line)

namespace Compilation

/-- The pin of a setup is in use, and if its mode is another one, that is on record, unless such
conflicts are not to be noted. -/
def Settles (noted : Diagnostic → Prop) (c : Compilation) (setup : PinSetup) : Prop :=
  ∃ previous, c.draft.mode? setup.pin = some previous ∧
    (previous = setup.mode ∨ ∃ location, noted (setup.conflict previous location) →
        setup.conflict previous location ∈ c.diagnostics)

/-- The lines that set up pins match the pins in use, and the conflicts on record are among those to be
noted. -/
structure Accounts (noted : Diagnostic → Prop) (lines : Multiset Line) (c : Compilation) : Prop where
  conflicts : ∀ diagnostic ∈ c.diagnostics, diagnostic.degradation.isPinConflict = true →
    noted diagnostic
  settled : ∀ line ∈ lines, ∀ setting ∈ line.settings,
    ∃ setup : PinSetup, setting = setup.written ∧ c.Settles noted setup
  served : ∀ pin mode, c.draft.mode? pin = some mode → ⟨pin, mode, .none⟩ ∈ c.draft.setups ∨
    ∃ line ∈ lines, (pin.object, mode.symbol) ∈ line.settings

variable {noted : Diagnostic → Prop} {lines : Multiset Line} {c d : Compilation}

theorem Settles.stays {setup : PinSetup} (settles : c.Settles noted setup)
    (modes : ∀ pin mode, c.draft.mode? pin = some mode → d.draft.mode? pin = some mode)
    (grown : c.diagnostics ⊆ d.diagnostics) : d.Settles noted setup := by
  obtain ⟨previous, used, same | ⟨location, told⟩⟩ := settles
  · exact ⟨previous, modes _ _ used, .inl same⟩
  · exact ⟨previous, modes _ _ used, .inr ⟨location, fun note => grown (told note)⟩⟩

theorem settles_of_busy {setup : PinSetup} {previous : PinMode}
    (busy : c.draft.mode? setup.pin = some previous) (draft : d.draft = c.draft)
    (told : ∀ conflict ∈ c.conflicts setup, noted conflict → conflict ∈ d.diagnostics) :
    d.Settles noted setup := by
  refine ⟨previous, draft ▸ busy, ?_⟩
  by_cases same : previous = setup.mode
  · exact .inl same
  · refine .inr ⟨c.location, told _ ?_⟩
    rw [conflicts, busy]
    simp [same]

namespace Accounts

theorem empty : Accounts noted 0 {} where
  conflicts := nofun
  settled := by simp
  served := nofun

variable (accounts : c.Accounts noted lines)

include accounts

theorem of_same (pins : d.draft.pins = c.draft.pins)
    (setups : d.draft.setups = c.draft.setups) (diagnostics : d.diagnostics = c.diagnostics) :
    d.Accounts noted lines := by
  have modes (pin : Pin) : d.draft.mode? pin = c.draft.mode? pin := by rw [Draft.mode?, pins, Draft.mode?]
  refine ⟨diagnostics ▸ accounts.conflicts, fun line member setting among => ?_, fun pin mode used => ?_⟩
  · obtain ⟨setup, written, settles⟩ := accounts.settled line member setting among
    refine ⟨setup, written, settles.stays (fun pin mode used => (modes pin).trans used) ?_⟩
    rw [diagnostics]
    exact List.Subset.refl _
  · rw [setups]
    exact accounts.served pin mode ((modes pin).symm.trans used)

theorem noting (draft : d.draft = c.draft) (grown : c.diagnostics ⊆ d.diagnostics)
    (conflicts : ∀ diagnostic ∈ d.diagnostics, diagnostic.degradation.isPinConflict = true →
      noted diagnostic) : d.Accounts noted lines where
  conflicts := conflicts
  settled line member setting among := by
    obtain ⟨setup, written, settles⟩ := accounts.settled line member setting among
    exact ⟨setup, written, settles.stays (fun _ _ used => draft ▸ used) grown⟩
  served pin mode used := by
    rw [draft] at used ⊢
    exact accounts.served pin mode used

/-- A line is entered, and the settings that it makes are those of pins in use. -/
theorem enter {line : Line} (settled : ∀ setting ∈ line.settings,
    ∃ setup : PinSetup, setting = setup.written ∧ c.Settles noted setup) :
    c.Accounts noted ({line} + lines) where
  conflicts := accounts.conflicts
  settled other member := by
    rw [Multiset.mem_add, Multiset.mem_singleton] at member
    rcases member with rfl | old
    · exact settled
    · exact accounts.settled other old
  served pin mode used := (accounts.served pin mode used).imp_right fun ⟨other, member, sets⟩ =>
    ⟨other, Multiset.mem_add.2 (.inr member), sets⟩

theorem ordinary {line : Line} {objects : List String}
    (ordinary : line.Ordinary objects) : c.Accounts noted ({line} + lines) :=
  accounts.enter (by simp [ordinary.settings_eq])

variable {setup : PinSetup}

theorem settle (settles : c.Settles noted setup) : c.Accounts noted ({setup.line} + lines) := by
  refine accounts.enter fun setting member => ⟨setup, ?_, settles⟩
  rwa [C.settings_setup, List.mem_singleton] at member

/-- A pin in use is asked for, and the conflict goes on record if it is to be noted. -/
theorem busy {previous : PinMode} (used : c.draft.mode? setup.pin = some previous) {added : List Diagnostic}
    (among : ∀ conflict ∈ added, noted conflict)
    (told : ∀ conflict ∈ c.conflicts setup, noted conflict → conflict ∈ added) :
    Accounts noted lines { c with diagnostics := c.diagnostics ++ added } ∧
      Accounts noted ({setup.line} + lines) { c with diagnostics := c.diagnostics ++ added } := by
  have kept : Accounts noted lines { c with diagnostics := c.diagnostics ++ added } := by
    refine accounts.noting rfl (List.subset_append_left _ _) fun diagnostic member conflict => ?_
    rcases List.mem_append.1 member with old | new
    · exact accounts.conflicts diagnostic old conflict
    · exact among diagnostic new
  refine ⟨kept, kept.settle (settles_of_busy used rfl fun conflict member note => ?_)⟩
  exact List.mem_append_right _ (told conflict member note)

/-- A free pin is taken into use, and either set up at the start or by a line. -/
private theorem claim {other : Multiset Line} (free : c.draft.mode? setup.pin = none)
    (used : d.draft.pins = (c.draft.usePin setup.pin setup.mode).pins)
    (setups : c.draft.setups ⊆ d.draft.setups) (diagnostics : d.diagnostics = c.diagnostics)
    (more : lines ⊆ other) (new : ∀ line ∈ other, line ∈ lines ∨ line = setup.line)
    (served : ⟨setup.pin, setup.mode, .none⟩ ∈ d.draft.setups ∨ setup.line ∈ other) :
    d.Accounts noted other := by
  have modes (pin : Pin) : d.draft.mode? pin =
      (c.draft.mode? pin).or (if pin = setup.pin then some setup.mode else none) := by
    rw [← Draft.mode?_usePin, Draft.mode?, used, Draft.mode?]
  refine ⟨diagnostics ▸ accounts.conflicts, fun line member setting among => ?_, fun pin mode inUse => ?_⟩
  · rcases new line member with old | rfl
    · obtain ⟨known, written, settles⟩ := accounts.settled line old setting among
      refine ⟨known, written, settles.stays (fun pin mode inUse => ?_) ?_⟩
      · rw [modes, inUse, Option.some_or]
      · rw [diagnostics]
        exact List.Subset.refl _
    · rw [C.settings_setup, List.mem_singleton] at among
      exact ⟨setup, among, setup.mode, by rw [modes, free]; simp, .inl rfl⟩
  · -- A pin in use was so before, or is the one that is taken now.
    rw [modes, Option.or_eq_some_iff] at inUse
    rcases inUse with old | ⟨_, isNew⟩
    · rcases accounts.served pin mode old with atStart | ⟨line, member, sets⟩
      · exact .inl (setups atStart)
      · exact .inr ⟨line, more member, sets⟩
    · obtain ⟨rfl, same⟩ := Option.ite_none_right_eq_some.1 isNew
      rw [← Option.some.inj same]
      refine served.imp_right fun member => ⟨_, member, ?_⟩
      rw [C.settings_setup]
      exact List.mem_singleton_self _

theorem take (free : c.draft.mode? setup.pin = none) : Accounts noted ({setup.line} + lines)
      { c with draft := c.draft.usePin setup.pin setup.mode } := by
  refine accounts.claim free rfl (List.Subset.refl _) rfl (Multiset.subset_cons _ _) ?_ (.inr ?_)
  · intro line member
    rw [Multiset.mem_add, Multiset.mem_singleton] at member
    exact member.symm
  · exact Multiset.mem_add.2 (.inl (Multiset.mem_singleton_self _))

theorem takeAtStart (free : c.draft.mode? setup.pin = none) (plain : setup.pull = .none) :
    Accounts noted lines { c with draft := (c.draft.usePin setup.pin setup.mode).addSetup setup } := by
  have listed : (⟨setup.pin, setup.mode, .none⟩ : PinSetup) ∈ c.draft.setups ++ [setup] := by simp [← plain]
  exact accounts.claim free rfl (List.subset_append_left _ _) rfl (Multiset.Subset.refl _)
    (fun _ => .inl) (.inl listed)

end Accounts

end Compilation

/-- The accounts as a ledger. Unless known blocks ask for no pin, all conflicts are to be noted. -/
def pinLedger (noted : Diagnostic → Prop) (names : List String) {known : Site → Prop}
    (asks : ∀ {site : Site}, known site → site.head.setup? = none ∨ ∀ diagnostic, noted diagnostic) :
    Ledger names known where
  holds c lines := c.Accounts noted lines
  pins := ∀ diagnostic, noted diagnostic
  asks := asks
  still same diagnostics accounts := accounts.of_same same.pins same.setups diagnostics
  degrade other accounts := by
    refine accounts.noting rfl (List.subset_append_left _ _) fun diagnostic member conflict => ?_
    rcases List.mem_append.1 member with old | new
    · exact accounts.conflicts diagnostic old conflict
    · rw [List.mem_singleton.1 new, other] at conflict
      contradiction
  undo grown accounts undone := accounts.noting rfl grown undone.conflicts
  hoist _ accounts := by
    unfold Draft.hoist
    split <;> exact accounts.of_same rfl rfl rfl
  configure {c _ setup} all plain accounts := by
    rw [Lowering.run_configurePin]
    cases used : c.draft.mode? setup.pin with
    | none => exact accounts.takeAtStart used plain
    | some previous => exact (accounts.busy used (fun conflict _ => all conflict) fun _ member _ => member).1
  setUp {c _} setup all accounts := by
    cases used : c.draft.mode? setup.pin with
    | none =>
      rw [Agree.run_usePin used]
      exact accounts.take used
    | some previous =>
      rw [Lowering.run_usePin_busy used]
      exact (accounts.busy used (fun conflict _ => all conflict) fun _ member _ => member).2
  take takes diagnostics _ accounts := accounts.of_same takes.pins takes.setups diagnostics
  plain plain accounts := accounts.ordinary plain.ordinary
  start output first second accounts := by
    refine Compilation.Accounts.ordinary ?_ (Line.ordinary_starting first second output .loop)
    unfold Draft.usePwm
    split <;> exact accounts.of_same rfl rfl rfl
  loop plain accounts := by
    refine Compilation.Accounts.ordinary ?_ ((Line.ordinary_openFor _).2 (plain.ordinary .loop))
    exact accounts.of_same rfl rfl rfl
  register _ _ label _ accounts := by
    refine Compilation.Accounts.ordinary ?_ (Line.ordinary_registering label _ _ .loop)
    exact accounts.of_same rfl rfl rfl

/-- The lines that set up pins in a program match the pins in use. -/
theorem Program.accounts_lowered (program : Program) :
    program.lowered.Accounts (fun _ => True) program.lowered.draft.lines :=
  holds_lowered (pinLedger _ _ fun _ => .inr fun _ => trivial) Compilation.Accounts.empty

end FlipperBlocks
