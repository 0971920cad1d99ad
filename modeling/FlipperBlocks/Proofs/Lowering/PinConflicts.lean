import FlipperBlocks.Proofs.Application.Fragments
import FlipperBlocks.Proofs.Lowering.PinAccounts
import FlipperBlocks.Proofs.Lowering.Rejection

/-! Pins are set up once at the start, and conflicts about them go on record.

A conflict is told where a pin in use is asked for in another mode, also by code that is undone later.
That nothing else tells one is seen by a watch that silences one conflict wherever a block runs into it:
then the conflict never goes on record. -/
namespace FlipperBlocks

open C (Code)
open Lowering

variable {names : List String} {setup : PinSetup} {c : Compilation}

theorem Pin.object_injective : Function.Injective object := by
  intro a b same
  cases a <;> cases b <;> simp [object] at same ⊢

/-! What is set up at the start. -/

namespace Application

def startSetups (draft : Draft) : List (String × String) :=
  draft.setups.flatMap fun setup => C.pinSetups (bodyRow setup.line.text)

theorem pinSetups_bodyRow (setup : PinSetup) : C.pinSetups (bodyRow setup.line.text) = [setup.written] := by
  have spelled := (setup.fits {}).spelled
  rw [C.pinSetups, tokens_of_rows (rows_bodyRow spelled), C.Code.tokens_line]
  exact C.settings_setup setup

theorem startSetups_eq (draft : Draft) : startSetups draft = draft.setups.map PinSetup.written := by
  simp only [startSetups, pinSetups_bodyRow]
  exact List.map_eq_flatMap.symm

end Application

namespace Draft

/-- Each row of the start sets up one pin, no pin is set up twice, and the mode of each is the one
that is recorded for it. -/
structure PinsInOrder (draft : Draft) : Prop where
  rows : (Application.startSetups draft).length = draft.setups.length
  once : ((Application.startSetups draft).map Prod.fst).Nodup
  recorded : ∀ setting ∈ Application.startSetups draft, ∃ pin mode,
    setting = (pin.object, mode.symbol) ∧ draft.mode? pin = some mode

private theorem Moves.setups {draft : Draft} (moves : Moves names {} draft) :
    (draft.setups.map PinSetup.pin).Nodup ∧
      ∀ setup ∈ draft.setups, draft.mode? setup.pin = some setup.mode := by
  induction moves with
  | refl => exact ⟨List.nodup_nil, List.forall_mem_nil _⟩
  | @tail a b _ move kept =>
    obtain ⟨once, recorded⟩ := kept
    have stays (setup) (member : setup ∈ a.setups) : b.mode? setup.pin = some setup.mode :=
      move.extends.mode (recorded setup member)
    have same (equal : b.setups = a.setups) : (b.setups.map PinSetup.pin).Nodup ∧
        ∀ setup ∈ b.setups, b.mode? setup.pin = some setup.mode := by
      rw [equal]
      exact ⟨once, stays⟩
    cases move with
    | @configurePin setup free =>
      -- The pin was free, so that none of the setups so far is about it.
      have unused : setup.pin ∉ a.setups.map PinSetup.pin := by
        intro member
        obtain ⟨other, there, equal⟩ := List.mem_map.1 member
        have taken := recorded other there
        rw [equal, free] at taken
        contradiction
      have added : ((a.usePin setup.pin setup.mode).addSetup setup).setups = a.setups ++ [setup] := rfl
      rw [added, List.map_append, List.map_singleton, ← List.concat_eq_append]
      refine ⟨once.concat unused, List.forall_mem_append.2 ⟨stays, List.forall_mem_singleton.2 ?_⟩⟩
      change (a.usePin setup.pin setup.mode).mode? setup.pin = some setup.mode
      rw [mode?_usePin, free]
      simp
    | resolve _ _ _ | array _ _ _ _ | slot _ _ _ | state _ => exact same (still_declare _).setups
    | usePwm _ | hoist _ =>
      refine same ?_
      simp only [Draft.usePwm, Draft.hoist]
      split <;> rfl
    | append phase code => cases phase <;> exact same rfl
    | _ => exact same rfl

theorem Moves.pinsInOrder {draft : Draft} (moves : Moves names {} draft) : draft.PinsInOrder := by
  obtain ⟨once, recorded⟩ := moves.setups
  have read := Application.startSetups_eq draft
  refine ⟨by rw [read, List.length_map], ?_, fun setting member => ?_⟩
  · have objects : (Application.startSetups draft).map Prod.fst =
        (draft.setups.map PinSetup.pin).map Pin.object := by
      rw [read, List.map_map, List.map_map]
      rfl
    rw [objects]
    exact once.map Pin.object_injective
  · rw [read] at member
    obtain ⟨setup, there, rfl⟩ := List.mem_map.1 member
    exact ⟨setup.pin, setup.mode, rfl, recorded setup there⟩

end Draft

/-! What goes on record where a pin is asked for. -/

theorem diagnostics_usePin (setup : PinSetup) (c : Compilation) :
    (usePin setup.pin setup.mode c).2.diagnostics = c.diagnostics ++ c.conflicts setup := by
  cases used : c.draft.mode? setup.pin with
  | none => rw [Agree.run_usePin used, Compilation.conflicts_of_free used, List.append_nil]
  | some previous => rw [run_usePin_busy used]

theorem diagnostics_configurePin (setup : PinSetup) (c : Compilation) :
    (configurePin setup c).2.diagnostics = c.diagnostics ++ c.conflicts setup := by
  rw [run_configurePin]
  split
  · rename_i free
    rw [Compilation.conflicts_of_free free, List.append_nil]
  · rfl

namespace Site

variable {site : Site}

theorem kind_of_asks (asks : site.head.setup? = some setup) :
    site.kind = .setupPin ∨ site.kind.producesValue = true := by
  rw [setup?_eq] at asks
  unfold BlockKind.setup? at asks
  split at asks
  · rename_i kind
    exact .inl kind
  iterate 3
    · rename_i kind
      rw [kind]
      exact .inr rfl
  · contradiction

theorem statement_of_asks (kind : site.kind = .setupPin) (asks : site.head.setup? = some setup) :
    site.asStatement = (do
      enable [.pins]
      let _ ← usePin setup.pin setup.mode
      return Code.line setup.line) := by
  rw [setup?_eq, kind] at asks
  obtain rfl := Option.some.inj asks
  rw [asStatement, kind]
  rfl

theorem diagnostics_value_of_asks (other : site.kind ≠ .setupPin)
    (asks : site.head.setup? = some setup) (wantsText : Bool) (c : Compilation) :
    (site.asValue wantsText c).2.diagnostics = c.diagnostics ++ c.conflicts setup := by
  obtain ⟨features, value, _, _, same⟩ := value_of_asks [] other asks wantsText
  rw [same]
  exact diagnostics_configurePin setup { c with draft := c.draft.enable features }

theorem diagnostics_statement_of_asks (kind : site.kind = .setupPin)
    (asks : site.head.setup? = some setup) (c : Compilation) :
    (site.asStatement c).2.diagnostics = c.diagnostics ++ c.conflicts setup := by
  rw [statement_of_asks kind asks]
  exact diagnostics_usePin setup { c with draft := c.draft.enable [.pins] }

theorem diagnostics_value_of_misplaced (kind : site.kind = .setupPin) (wantsText : Bool)
    (c : Compilation) : (site.asValue wantsText c).2.diagnostics =
      c.diagnostics ++ [⟨.statementAsValue site.kind.name, c.location⟩] := by
  rw [asValue_of_statement (by rw [kind]; rfl) (by rw [kind]; rfl)]
  rfl

theorem diagnostics_statement_of_misplaced (produces : site.kind.producesValue = true)
    (c : Compilation) : (site.asStatement c).2.diagnostics =
      c.diagnostics ++ [⟨.valueAsStatement site.kind.name, c.location⟩] := by
  rw [asStatement_of_value produces]
  rfl

end Site

/-! Conflicts that are silenced. -/

def Passage.clash (conflict : Diagnostic) : Passage := fun head before after =>
  ∃ setup, head.setup? = some setup ∧ before.conflicts setup = [conflict] ∧
    after.diagnostics = before.diagnostics ++ [conflict]

/-- Once at least, lowering a program comes to one of its blocks and passes it as told: some watch
that is quiet about all other passages has an effect. -/
def Program.Sometime (program : Program) (passage : Passage) : Prop :=
  ¬ program.Throughout fun head before after => ¬ passage head before after

section

variable {α : Type} {conflict : Diagnostic} {head : BlockHead} {action : Lowering α}

open Classical in
/-- A step with its record wiped where a block runs into the conflict. -/
private noncomputable def silenced (conflict : Diagnostic) (head : BlockHead) (action : Lowering α) :
    Lowering α := fun c =>
  if Passage.clash conflict head c (action c).2 then
    ((action c).1, { (action c).2 with diagnostics := c.diagnostics })
  else action c

private noncomputable def silencing (conflict : Diagnostic) (head : BlockHead) (meaning : Meaning) :
    Meaning where
  kind := meaning.kind
  id := meaning.id
  value wantsText := silenced conflict head (meaning.value wantsText)
  statement := silenced conflict head meaning.statement

private theorem quiet_silencing (conflict : Diagnostic) :
    Quiet (fun head before after => ¬ Passage.clash conflict head before after) (silencing conflict) :=
  ⟨fun _ _ => rfl, fun _ _ => rfl, fun _ _ _ _ never => if_neg never, fun _ _ _ never => if_neg never⟩

private theorem silenced_eq (never : ∀ c, ¬ Passage.clash conflict head c (action c).2) :
    silenced conflict head action = action :=
  funext fun c => if_neg (never c)

private theorem silenced_of_free (asks : head.setup? = some setup)
    (free : c.draft.mode? setup.pin = none) : silenced conflict head action c = action c := by
  refine if_neg ?_
  rintro ⟨other, asked, runs, _⟩
  obtain rfl := Option.some.inj (asks.symm.trans asked)
  rw [Compilation.conflicts_of_free free] at runs
  contradiction

theorem Compilation.eq_of_mem_conflicts (member : conflict ∈ c.conflicts setup) :
    c.conflicts setup = [conflict] ∧ conflict.degradation.isPinConflict = true := by
  unfold Compilation.conflicts at member ⊢
  split at member
  · split at member
    · contradiction
    · rename_i differ
      rw [List.mem_singleton] at member
      subst member
      exact ⟨if_neg differ, rfl⟩
  · contradiction

private theorem exists_silenced (asks : head.setup? = some setup)
    (record : (action c).2.diagnostics = c.diagnostics ++ c.conflicts setup) :
    ∃ added, silenced conflict head action c =
        ((action c).1, { (action c).2 with diagnostics := c.diagnostics ++ added }) ∧
      (∀ diagnostic ∈ added, diagnostic ≠ conflict) ∧
      ∀ diagnostic ∈ c.conflicts setup, diagnostic ≠ conflict → diagnostic ∈ added := by
  by_cases clash : Passage.clash conflict head c (action c).2
  · -- What the block runs into is the conflict itself, so that nothing is left to tell.
    obtain ⟨other, asked, runs, _⟩ := id clash
    obtain rfl := Option.some.inj (asks.symm.trans asked)
    refine ⟨[], ?_, List.forall_mem_nil _, fun diagnostic member differs => ?_⟩
    · rw [List.append_nil]
      exact if_pos clash
    · rw [runs, List.mem_singleton] at member
      exact absurd member differs
  · refine ⟨c.conflicts setup, ?_, ?_, fun _ member _ => member⟩
    · rw [← record]
      exact if_neg clash
    · rintro diagnostic member rfl
      have runs := (Compilation.eq_of_mem_conflicts member).1
      exact clash ⟨setup, asks, runs, record.trans (by rw [runs])⟩

private theorem not_clash_of_other {degradation : Degradation} {location : Location}
    (other : degradation.isPinConflict = false) {after : Compilation}
    (record : after.diagnostics = c.diagnostics ++ [⟨degradation, location⟩]) :
    ¬ Passage.clash conflict head c after := by
  rintro ⟨setup, _, runs, recorded⟩
  have member : conflict ∈ c.conflicts setup := by
    rw [runs]
    exact List.mem_singleton_self _
  have isConflict := (Compilation.eq_of_mem_conflicts member).2
  have same := List.append_cancel_left (record.symm.trans recorded)
  rw [← List.singleton_inj.1 same, other] at isConflict
  contradiction

end

private def unaskedLedger (conflict : Diagnostic) (names : List String) :
    Ledger names fun site => site.head.setup? = none :=
  pinLedger (· ≠ conflict) names .inl

namespace Site

variable {site : Site} {conflict : Diagnostic}

private theorem keeps_silenced_value (other : site.kind ≠ .setupPin)
    (asks : site.head.setup? = some setup) (wantsText : Bool) : (unaskedLedger conflict names).KeepsValue
      (silenced conflict site.head (site.asValue wantsText)) := by
  intro phase loose c _ reached accounts
  have record := diagnostics_value_of_asks other asks wantsText c
  obtain ⟨features, value, unpulled, plain, same⟩ := value_of_asks names other asks wantsText
  let ready : Compilation := { c with draft := c.draft.enable features }
  have readied : ready.Accounts (· ≠ conflict) (loose + c.draft.lines) := accounts.of_same rfl rfl rfl
  have leads : c.LeadsTo names (site.asValue wantsText c).2 := by
    rw [same]
    exact Agree.leadsTo (.bind (.enable _) fun _ => .bind (.configurePin _) fun _ => .pure _) reached
  have run : site.asValue wantsText c = (value, (configurePin setup ready).2) := by
    rw [same]
    rfl
  rw [run_configurePin] at run
  cases used : ready.draft.mode? setup.pin with
  | none =>
    have free : c.draft.mode? setup.pin = none := used
    rw [if_pos used] at run
    rw [silenced_of_free asks free]
    refine ⟨leads, ?_, ?_⟩
    · rw [run]
      exact readied.takeAtStart used unpulled
    · rw [run]
      exact plain
  | some previous =>
    obtain ⟨added, result, among, told⟩ := exists_silenced asks record
    rw [if_neg (by rw [used]; exact Option.some_ne_none _)] at run
    rw [result]
    refine ⟨⟨leads.moves, leads.phase, List.subset_append_left _ _⟩, ?_, ?_⟩
    · rw [run]
      exact (readied.busy used among told).1
    · rw [run]
      exact plain

private theorem keeps_silenced_statement (kind : site.kind = .setupPin)
    (asks : site.head.setup? = some setup) :
    (unaskedLedger conflict names).KeepsCode (silenced conflict site.head site.asStatement) := by
  intro phase loose c _ reached accounts
  have record := diagnostics_statement_of_asks kind asks c
  have same := statement_of_asks kind asks
  let ready : Compilation := { c with draft := c.draft.enable [.pins] }
  have readied : ready.Accounts (· ≠ conflict) (loose + c.draft.lines) := accounts.of_same rfl rfl rfl
  have leads : c.LeadsTo names (site.asStatement c).2 := by
    rw [same]
    exact Agree.leadsTo (.bind (.enable _) fun _ => .bind (.usePin _ _) fun _ => .pure _) reached
  have run : site.asStatement c =
      (Code.line setup.line, (usePin setup.pin setup.mode ready).2) := by
    rw [same]
    rfl
  cases used : ready.draft.mode? setup.pin with
  | none =>
    have free : c.draft.mode? setup.pin = none := used
    rw [Agree.run_usePin used] at run
    rw [silenced_of_free asks free]
    refine ⟨leads, ?_, ?_⟩
    · rw [run]
      dsimp only
      rw [Code.lines_line, add_assoc]
      exact readied.take used
    · rw [run]
      exact Code.orderly_setup setup
  | some previous =>
    obtain ⟨added, result, among, told⟩ := exists_silenced asks record
    rw [run_usePin_busy used] at run
    rw [result]
    refine ⟨⟨leads.moves, leads.phase, List.subset_append_left _ _⟩, ?_, ?_⟩
    · rw [run]
      dsimp only
      rw [Code.lines_line, add_assoc]
      exact (readied.busy used among told).2
    · rw [run]
      exact Code.orderly_setup setup

end Site

private theorem entered_silencing {conflict : Diagnostic} {site : Site}
    (entered : site.Entered (unaskedLedger conflict names)) :
    (silencing conflict site.head site.meaning).Entered (unaskedLedger conflict names) := by
  suffices (∀ wantsText, (unaskedLedger conflict names).KeepsValue
      (silenced conflict site.head (site.asValue wantsText))) ∧
        (unaskedLedger conflict names).KeepsCode (silenced conflict site.head site.asStatement) from
    ⟨this.1, this.2⟩
  cases asks : site.head.setup? with
  | none =>
    have never (before after) : ¬ Passage.clash conflict site.head before after := by
      rintro ⟨setup, asked, _⟩
      rw [asks] at asked
      contradiction
    refine ⟨fun wantsText => ?_, ?_⟩
    · rw [silenced_eq fun c => never c _]
      exact entered.asValue asks wantsText
    · rw [silenced_eq fun c => never c _]
      exact entered.asStatement asks
  | some setup =>
    rcases Site.kind_of_asks asks with kind | produces
    · refine ⟨fun wantsText => ?_, Site.keeps_silenced_statement kind asks⟩
      rw [silenced_eq fun c => not_clash_of_other rfl (Site.diagnostics_value_of_misplaced kind wantsText c)]
      rw [Site.asValue_of_statement (by rw [kind]; rfl) (by rw [kind]; rfl)]
      exact Site.Entered.degradedValue rfl
    · have other : site.kind ≠ .setupPin := by
        intro kind
        rw [kind] at produces
        contradiction
      refine ⟨Site.keeps_silenced_value other asks, ?_⟩
      rw [silenced_eq fun c => not_clash_of_other rfl (Site.diagnostics_statement_of_misplaced produces c)]
      rw [Site.asStatement_of_value produces]
      exact (Site.Entered.degradedStatement rfl fun _ => C.Line.plain_comment _).code

/-- Of a block that asks for a pin, the conflict that it runs into goes on record, or that it is
misplaced. -/
def Passage.answered : Passage := fun head before after =>
  ∀ setup, head.setup? = some setup → ∃ added, after.diagnostics = before.diagnostics ++ added ∧
    (added = before.conflicts setup ∨ added = [⟨.statementAsValue head.kind.name, before.location⟩] ∨
      added = [⟨.valueAsStatement head.kind.name, before.location⟩])

namespace Site

variable (site : Site) (c : Compilation)

theorem answered_value (wantsText : Bool) : Passage.answered site.head c (site.asValue wantsText c).2 := by
  intro setup asks
  by_cases kind : site.kind = .setupPin
  · exact ⟨_, diagnostics_value_of_misplaced kind wantsText c, .inr (.inl rfl)⟩
  · exact ⟨_, diagnostics_value_of_asks kind asks wantsText c, .inl rfl⟩

theorem answered_statement : Passage.answered site.head c (site.asStatement c).2 := by
  intro setup asks
  rcases kind_of_asks asks with kind | produces
  · exact ⟨_, diagnostics_statement_of_asks kind asks c, .inl rfl⟩
  · exact ⟨_, diagnostics_statement_of_misplaced produces c, .inr (.inr rfl)⟩

end Site

/-- Lowering comes to a block and leaves it with the pins in order, and takes back neither a mode nor
anything on record. -/
structure PinsKept (head : BlockHead) (before after : Compilation) : Prop where
  start : before.draft.PinsInOrder
  finish : after.draft.PinsInOrder
  modes : ∀ pin mode, before.draft.mode? pin = some mode → after.draft.mode? pin = some mode
  record : before.diagnostics <+: after.diagnostics
  answered : Passage.answered head before after

private theorem Agree.pinsKept {α : Type} {a b : Lowering α} (agree : Agree names a b)
    (reached : Draft.Moves names {} c.draft) {head : BlockHead}
    (answered : Passage.answered head c (b c).2) : PinsKept head c (b c).2 := by
  obtain ⟨same, moves⟩ := agree.run c reached
  have record := agree.isLocal.diagnostics_grow c
  rw [same] at record
  exact ⟨reached.pinsInOrder, (reached.trans moves).pinsInOrder, moves.settles.pins, record, answered⟩

theorem Passes.pinsKept : Passes names PinsKept where
  value twins c wantsText reached :=
    (twins.asValue wantsText).pinsKept reached (twins.second.answered_value c wantsText)
  statement twins c reached := twins.asStatement.pinsKept reached (twins.second.answered_statement c)

namespace Program

theorem sometime_clash (program : Program) {conflict : Diagnostic}
    (member : conflict ∈ program.lowered.diagnostics)
    (isConflict : conflict.degradation.isPinConflict = true) : program.Sometime (.clash conflict) := by
  -- If no block ran into it, the watch that silences it would have no effect.
  intro never
  let ledger := unaskedLedger conflict program.variableNames
  have entered (part : Block) (inside : (part.watchedSite (silencing conflict)).Entered ledger) :
      (part.watched (silencing conflict)).Entered ledger := by
    rw [part.watched_eq]
    exact entered_silencing inside
  have accounts : Compilation.Accounts (· ≠ conflict) _ _ :=
    program.holds_lowerWatched ledger (fun part _ => entered part) .empty
  rw [never _ (quiet_silencing conflict)] at accounts
  exact accounts.conflicts conflict member isConflict rfl

/-- All the time while a program is lowered, its pins are set up at most once at the start, each in the
mode that is recorded for it. A conflict goes on record where a block in its place asks for a pin with
another mode, and nowhere else. -/
theorem pins_set_up_in_order (program : Program) :
    program.Throughout PinsKept ∧ program.lowered.draft.PinsInOrder ∧
      (∀ (block : Block) (setup : PinSetup) (wantsText : Bool) (c : Compilation),
        block.head.setup? = some setup →
          (if block.head.kind.producesValue then (block.meaning.value wantsText c).2.diagnostics
            else (block.meaning.statement c).2.diagnostics) = c.diagnostics ++ c.conflicts setup) ∧
        ∀ conflict ∈ program.lowered.diagnostics,
          conflict.degradation.isPinConflict = true → program.Sometime (.clash conflict) := by
  refine ⟨throughout_of_passes .pinsKept, program.moves_lowered.pinsInOrder, ?_, ?_⟩
  · intro block setup wantsText c asks
    rw [block.meaning_eq]
    have atSite : block.site.head.setup? = some setup := asks
    split
    · rename_i produces
      refine Site.diagnostics_value_of_asks (fun kind => ?_) atSite wantsText c
      rw [show block.head.kind = .setupPin from kind] at produces
      contradiction
    · rename_i other
      exact Site.diagnostics_statement_of_asks ((Site.kind_of_asks atSite).resolve_right other) atSite c
  · exact fun _ => program.sometime_clash

def pinAskedTwice : Program :=
  ⟨[[.mk { kind := .app } [] [("DRAW", [.mk { kind := .drawText } [("TEXT",
        [.mk { kind := .readAnalog, fields := [("PIN", .text "PA7")] } [] []])] [],
      .mk { kind := .drawText } [("TEXT",
        [.mk { kind := .motion, fields := [("PIN", .text "PA7")] } [] []])] []])]]]⟩

theorem pinAskedTwice_in_order :
    Application.startSetups pinAskedTwice.lowered.draft = [("gpio_ext_pa7", "GpioModeAnalog")] ∧
      ∃ conflict, pinAskedTwice.lowered.diagnostics = [conflict] ∧
        conflict.degradation = .pinConflict "PA7" "analog input" "digital input" ∧
          pinAskedTwice.Sometime (.clash conflict) := by
  have recorded : pinAskedTwice.lowered.diagnostics.map Diagnostic.degradation =
      [.pinConflict "PA7" "analog input" "digital input"] := by decide +kernel
  obtain ⟨conflict, only, degradation⟩ := List.map_eq_singleton_iff.1 recorded
  refine ⟨by decide +kernel, conflict, only, degradation, ?_⟩
  refine pinAskedTwice.pins_set_up_in_order.2.2.2 conflict ?_ (by rw [degradation]; rfl)
  rw [only]
  exact List.mem_singleton_self _

end Program

end FlipperBlocks
