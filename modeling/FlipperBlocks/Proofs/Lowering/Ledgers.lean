import FlipperBlocks.Proofs.Lowering.Concord
import Mathlib.Tactic.Abel

/-! Ledgers: what a compilation has on record, against the lines of the program.

An output goes on record before the code that starts it is in the draft, and a button's number before the
line that hands over its function is. So does a pin before the line that sets it up. A ledger therefore
counts the lines of the draft together with the loose ones, which have been made and are not in the draft
yet. Lines that are about none of these are entered into any ledger without a record. -/
namespace FlipperBlocks

open Agree
open C (Code Expr Free Line)

namespace Draft

def bodies (draft : Draft) : List (Phase × Code) :=
  [(.setup, draft.setup), (.draw, draft.draw), (.input, draft.input), (.loop, draft.loop)] ++
    (draft.timers.map (fun timer => (.timer, timer.body)) ++
      draft.buttons.map fun body => (.button, body))

def codes (draft : Draft) : List Code :=
  [draft.setup, draft.draw, draft.input, draft.loop] ++ (draft.timers.map Timer.body ++ draft.buttons)

def lines (draft : Draft) : Multiset Line := (draft.codes.map Code.lines).sum

/-- The draft grows, but not in its outputs, its buttons or its count of loops. -/
structure Quiet (a b : Draft) : Prop where
  grown : a.Extends b
  pwm : b.pwm = a.pwm
  buttons : b.buttons = a.buttons
  loops : b.counters.get? "i" = a.counters.get? "i"

structure Still (a b : Draft) : Prop extends Quiet a b where
  pins : b.pins = a.pins
  setups : b.setups = a.setups
  bodies : b.bodies = a.bodies
  beforeDraw : b.beforeDraw = a.beforeDraw

structure Gains (part : Phase) (code : Code) (a b : Draft) : Prop where
  pins : b.pins = a.pins
  setups : b.setups = a.setups
  beforeDraw : b.beforeDraw = a.beforeDraw
  lines : b.lines = code.lines + a.lines
  orderly : (∀ body ∈ a.bodies, body.2.Orderly body.1.objects) → code.Orderly part.objects →
    ∀ body ∈ b.bodies, body.2.Orderly body.1.objects

structure Takes (part : Phase) (code : Code) (a b : Draft) : Prop extends Quiet a b, Gains part code a b

variable {names : List String} {draft a b c : Draft}

theorem codes_eq (draft : Draft) : draft.codes = draft.bodies.map Prod.snd := by
  simp [codes, bodies, Function.comp_def]

theorem mem_lines {draft : Draft} {line : Line} :
    line ∈ draft.lines ↔ ∃ code ∈ draft.codes, line ∈ code.lines := by
  rw [lines]
  induction draft.codes with
  | nil => simp
  | cons code rest ih => simp [ih]

theorem Still.refl (draft : Draft) : draft.Still draft := ⟨⟨.refl draft, rfl, rfl, rfl⟩, rfl, rfl, rfl, rfl⟩

theorem Still.trans (first : a.Still b) (second : b.Still c) : a.Still c where
  grown := first.grown.trans second.grown
  pwm := second.pwm.trans first.pwm
  buttons := second.buttons.trans first.buttons
  loops := second.loops.trans first.loops
  pins := second.pins.trans first.pins
  setups := second.setups.trans first.setups
  bodies := second.bodies.trans first.bodies
  beforeDraw := second.beforeDraw.trans first.beforeDraw

theorem Still.lines (still : a.Still b) : b.lines = a.lines := by
  rw [Draft.lines, codes_eq, still.bodies, ← codes_eq, Draft.lines]

theorem still_enable (features : List Feature) : draft.Still (draft.enable features) :=
  ⟨⟨draft.extends_enable features, rfl, rfl, rfl⟩, rfl, rfl, rfl, rfl⟩

theorem still_declare (storage : Storage) : draft.Still (draft.declare storage) := by
  have grown := draft.extends_declare storage
  unfold Draft.declare at grown ⊢
  split at grown <;> exact ⟨⟨grown, rfl, rfl, rfl⟩, rfl, rfl, rfl, rfl⟩

theorem still_advance {stem : String} (other : stem ≠ "i") (number : Nat) :
    draft.Still (draft.advance stem number) := by
  refine ⟨⟨draft.extends_advance stem number, rfl, rfl, ?_⟩, rfl, rfl, rfl, rfl⟩
  rw [Draft.advance, Entries.get?_put, if_neg other.symm]

theorem still_addManifest (manifest : Manifest) : draft.Still (draft.addManifest manifest) :=
  ⟨⟨draft.extends_addManifest manifest, rfl, rfl, rfl⟩, rfl, rfl, rfl, rfl⟩

theorem still_rememberSlot (key name : String) : draft.Still (draft.rememberSlot key name) :=
  ⟨⟨draft.extends_rememberSlot key name, rfl, rfl, rfl⟩, rfl, rfl, rfl, rfl⟩

theorem quiet_usePin (pin : Pin) (mode : PinMode) : draft.Quiet (draft.usePin pin mode) :=
  ⟨draft.extends_usePin pin mode, rfl, rfl, rfl⟩

theorem quiet_addSetup (setup : PinSetup) : draft.Quiet (draft.addSetup setup) :=
  ⟨draft.extends_addSetup setup, rfl, rfl, rfl⟩

theorem quiet_hoist (line : Line) : draft.Quiet (draft.hoist line) := by
  refine ⟨draft.extends_hoist line, ?_, ?_, ?_⟩
  all_goals
    unfold Draft.hoist
    split <;> rfl

theorem lines_hoist (line : Line) : (draft.hoist line).lines = draft.lines := by
  unfold Draft.hoist
  split <;> rfl

theorem lines_usePwm (output : PwmOutput) : (draft.usePwm output).lines = draft.lines := by
  unfold Draft.usePwm
  split <;> rfl

private theorem orderly_of_bodies {part : Phase} {code : Code}
    (bodies : ∀ body, body ∈ b.bodies ↔ body = (part, code) ∨ body ∈ a.bodies)
    (old : ∀ body ∈ a.bodies, body.2.Orderly body.1.objects) (new : code.Orderly part.objects) :
    ∀ body ∈ b.bodies, body.2.Orderly body.1.objects := by
  intro body member
  rcases (bodies body).1 member with rfl | there
  · exact new
  · exact old body there

theorem takes_addTimer (timer : Timer) : Takes .timer timer.body draft (draft.addTimer timer) := by
  refine ⟨⟨draft.extends_addTimer timer, rfl, rfl, rfl⟩, rfl, rfl, rfl, ?_, orderly_of_bodies ?_⟩
  · simp only [lines, codes, addTimer, List.map_append, List.map_singleton, List.sum_append,
      List.sum_singleton]
    abel
  · simp only [bodies, addTimer, List.mem_append, List.map_append, List.map_singleton,
      List.mem_singleton]
    tauto

theorem gains_addButton (body : Code) : Gains .button body draft (draft.addButton body) := by
  refine ⟨rfl, rfl, rfl, ?_, orderly_of_bodies ?_⟩
  · simp only [lines, codes, addButton, List.map_append, List.map_singleton, List.sum_append,
      List.sum_singleton]
    abel
  · simp only [bodies, addButton, List.mem_append, List.map_append, List.map_singleton,
      List.mem_singleton]
    tauto

theorem takes_append {part : Phase} (isSection : part ∈ Lowering.sections.map Prod.snd) (code : Code) :
    Takes part code draft (draft.append part code) := by
  have grown := draft.extends_append part code
  simp only [Lowering.sections, List.map_cons, List.map_nil, List.mem_cons, List.not_mem_nil,
    or_false] at isSection
  rcases isSection with rfl | rfl | rfl | rfl
  all_goals
    refine ⟨⟨grown, rfl, rfl, rfl⟩, rfl, rfl, rfl, ?_, fun old new => ?_⟩
    · simp only [lines, codes, append, List.cons_append, List.nil_append, List.map_cons, List.sum_cons,
        Code.lines_append]
      abel
    · simp only [bodies, append, List.forall_mem_append, List.forall_mem_cons, Code.orderly_append]
        at old new ⊢
      tauto

end Draft

namespace Lowering

/-! A slot that has been asked for tells the name that was given. -/

theorem told_namedSlot (key stem : String) (type : StorageType) (c : Compilation) :
    (namedSlot key stem type c).2.draft.slots.get? key = some (namedSlot key stem type c).1 := by
  rw [namedSlot, run_slot?]
  cases told : c.draft.slots.get? key with
  | some slot => exact told
  | none => refine (Entries.get?_put ..).trans (if_pos rfl)

theorem told_sharedBuffer (name : String) (size : Nat) (c : Compilation) :
    (sharedBuffer name size c).2.draft.slots.get? ("buffer:" ++ name) =
      some (sharedBuffer name size c).1 := by
  rw [sharedBuffer, run_slot?]
  cases told : c.draft.slots.get? ("buffer:" ++ name) with
  | some slot => exact told
  | none =>
    change (fun run : String × Compilation => run.2.draft.slots.get? ("buffer:" ++ name) = some run.1)
      ((if (c.draft.lookup? name).isSome then _ else _ : Lowering String) c)
    split <;> exact (Entries.get?_put ..).trans (if_pos rfl)

theorem told_readSlot (key stem : String) (type : StorageType) (c : Compilation) :
    (readSlot key stem type c).2.draft.slots.get? key = some (readSlot key stem type c).1.name := by
  rw [readSlot, run_slot?, run_getDraft]
  cases known : (c.draft.slots.get? key).bind c.draft.lookup? with
  | some storage =>
    obtain ⟨slot, told, found⟩ := Option.bind_eq_some_iff.1 known
    change c.draft.slots.get? key = some storage.name
    rw [Draft.name_of_lookup? found]
    exact told
  | none =>
    let slot := Draft.numbered stem (c.draft.freshNumber stem)
    let counted := c.draft.advance stem (c.draft.freshNumber stem)
    change ((counted.rememberSlot key slot).declare ⟨slot, type⟩).slots.get? key =
      some ((((counted.rememberSlot key slot).declare ⟨slot, type⟩).lookup? slot).getD ⟨slot, type⟩).name
    rw [declare_rememberSlot]
    change ((counted.declare ⟨slot, type⟩).slots.put key slot).get? key =
      some (((counted.declare ⟨slot, type⟩).lookup? slot).getD ⟨slot, type⟩).name
    rw [Entries.get?_put, if_pos rfl]
    exact congrArg some (Draft.name_getD_lookup? _ ⟨slot, type⟩).symm

end Lowering

namespace Site

def buttonBody (site : Site) : Lowering Code := do
  let _ ← site.shown "LABEL" "Btn"
  Lowering.inPhase .button (site.statements "DO")

/-- Lowered from the given state, the block adds a button which does what is in its input, and gives the line
that hands over the function of the button's number. All that it leaves in the draft is in the last draft. -/
structure Registers (site : Site) (before : Compilation) (line : Line) (number : Nat) (body : Code)
    (last : Draft) : Prop where
  kind : site.kind = .button
  does : (site.buttonBody before).1 = body
  counted : (site.buttonBody before).2.draft.buttons.length = number
  buttons : (site.asStatement before).2.draft.buttons =
    (site.buttonBody before).2.draft.buttons ++ [body]
  handsOver : ∃ type label, line = .registering type label number
  code : (site.asStatement before).1 = Code.line line
  grown : (site.asStatement before).2.draft.Extends last

theorem Registers.grow {site : Site} {before : Compilation} {line : Line} {number : Nat} {body : Code}
    {a b : Draft} (registers : site.Registers before line number body a) (grown : a.Extends b) :
    site.Registers before line number body b :=
  { registers with grown := registers.grown.trans grown }

end Site

/-- A way to keep what a compilation has on record in step with the lines of the program. It may depend on
the pins that known sites ask for. -/
structure Ledger (names : List String) (known : Site → Prop) where
  holds : Compilation → Multiset Line → Prop
  pins : Prop
  asks : ∀ {site : Site}, known site → site.head.setup? = none ∨ pins
  still {c d : Compilation} {lines} : c.draft.Still d.draft →
    d.diagnostics = c.diagnostics → holds c lines → holds d lines
  degrade {c lines} {degradation : Degradation} :
    degradation.isPinConflict = false → holds c lines →
      holds { c with diagnostics := c.diagnostics ++ [⟨degradation, c.location⟩] } lines
  undo : ∀ {c d : Compilation} {lines more : Multiset Line}, c.diagnostics ⊆ d.diagnostics →
    holds c lines → holds d more → holds { d with draft := c.draft } lines
  hoist {c lines} {read : Expr} : read.Plain names →
    holds c lines → holds { c with draft := c.draft.hoist (.run read) } lines
  configure {c lines} {setup : PinSetup} : pins →
    setup.pull = .none → holds c lines → holds (Lowering.configurePin setup c).2 lines
  setUp {c lines} (setup : PinSetup) : pins → holds c lines →
    holds (Lowering.usePin setup.pin setup.mode c).2 ({setup.line} + lines)
  take {c d : Compilation} {lines} {part : Phase} {code : Code} :
    Draft.Takes part code c.draft d.draft → d.diagnostics = c.diagnostics →
      code.Orderly part.objects → holds c lines → holds d lines
  plain : ∀ {c : Compilation} {line : Line} {lines : Multiset Line} {phase : Phase},
    line.Plain names phase → holds c lines → holds c ({line} + lines)
  start {c lines} {frequency duty : Expr} (output : PwmOutput) :
    frequency.Plain names → duty.Plain names → holds c lines →
      holds { c with draft := c.draft.usePwm output } ({.starting output frequency duty} + lines)
  loop {c lines} {bound : Expr} : bound.Plain names →
    holds c lines → holds { c with draft := c.draft.advance "i" (c.draft.freshNumber "i") }
      ({.openFor (Draft.numbered "i" (c.draft.freshNumber "i")) bound} + lines)
  register {c lines} {site : Site} {before : Compilation}
    {type : String} {label : Expr} {body : Code} : known site →
      site.Registers before (.registering type label c.draft.buttons.length) c.draft.buttons.length body
        (c.draft.addButton body) → label.Plain names → body.Orderly Phase.button.objects →
          holds c lines → holds { c with draft := c.draft.addButton body }
            ({.registering type label c.draft.buttons.length} + lines)

/-- A way to keep what a draft has on record in step with the lines of the program, whatever pins are in
use. -/
structure DraftLedger (names : List String) (known : Site → Prop) where
  holds : Draft → Multiset Line → Prop
  quiet : ∀ {a b : Draft} {lines : Multiset Line}, a.Quiet b → holds a lines → holds b lines
  inert : ∀ {draft : Draft} {line : Line} {lines : Multiset Line}, line.Inert names →
    holds draft lines → holds draft ({line} + lines)
  start {draft lines} {frequency duty : Expr} (output : PwmOutput) :
    frequency.Plain names → duty.Plain names → holds draft lines →
      holds (draft.usePwm output) ({.starting output frequency duty} + lines)
  loop {draft lines} {bound : Expr} : bound.Plain names →
    holds draft lines → holds (draft.advance "i" (draft.freshNumber "i"))
      ({.openFor (Draft.numbered "i" (draft.freshNumber "i")) bound} + lines)
  register {draft lines} {site : Site} {before : Compilation}
    {type : String} {label : Expr} {body : Code} : known site →
      site.Registers before (.registering type label draft.buttons.length) draft.buttons.length body
        (draft.addButton body) → label.Plain names → holds draft lines →
          holds (draft.addButton body) ({.registering type label draft.buttons.length} + lines)

theorem Ledger.asks_any {known : Site → Prop} :
    ∀ {site : Site}, known site → site.head.setup? = none ∨ True :=
  fun _ => .inr trivial

def DraftLedger.ledger {names : List String} {known : Site → Prop} (ledger : DraftLedger names known) :
    Ledger names known where
  holds c lines := ledger.holds c.draft lines
  pins := True
  asks := @Ledger.asks_any known
  still same _ := ledger.quiet same.toQuiet
  degrade _ holds := holds
  undo _ holds _ := holds
  hoist _ := ledger.quiet (Draft.quiet_hoist _)
  configure _ _ holds := by
    rw [Lowering.run_configurePin]
    split
    · exact ledger.quiet (Draft.quiet_addSetup _) (ledger.quiet (Draft.quiet_usePin _ _) holds)
    · exact holds
  setUp {c _} setup _ holds := by
    apply ledger.inert (Line.inert_setup setup)
    cases used : c.draft.mode? setup.pin with
    | none =>
      rw [run_usePin used]
      exact ledger.quiet (Draft.quiet_usePin _ _) holds
    | some previous =>
      rw [Lowering.run_usePin_busy used]
      exact holds
  take takes _ _ := ledger.quiet takes.toQuiet
  plain plain := ledger.inert plain.toInert
  start := ledger.start
  loop := ledger.loop
  register among registers plain _ := ledger.register among registers plain

/-- A step of lowering goes on by moves, stays in its phase and adds to the record. -/
structure Compilation.LeadsTo (names : List String) (c d : Compilation) : Prop where
  moves : Draft.Moves names c.draft d.draft
  phase : d.phase = c.phase
  grown : c.diagnostics ⊆ d.diagnostics

theorem Compilation.LeadsTo.refl {names : List String} (c : Compilation) : c.LeadsTo names c :=
  ⟨.refl _, rfl, List.Subset.refl _⟩

theorem Compilation.LeadsTo.trans {names : List String} {a b c : Compilation}
    (first : a.LeadsTo names b) (second : b.LeadsTo names c) : a.LeadsTo names c :=
  ⟨first.moves.trans second.moves, second.phase.trans first.phase, List.Subset.trans first.grown second.grown⟩

theorem Agree.leadsTo {α : Type} {names : List String} {action : Lowering α}
    (agree : Agree names action action) {c : Compilation} (reached : Draft.Moves names {} c.draft) :
    c.LeadsTo names (action c).2 :=
  ⟨(agree.run c reached).2, agree.isLocal.phase_eq c, (agree.isLocal.diagnostics_grow c).subset⟩

namespace Ledger

variable {names : List String} {known : Site → Prop} (ledger : Ledger names known)

theorem plains {c : Compilation} {more lines : Multiset Line} {phase : Phase}
    (plain : ∀ line ∈ more, line.Plain names phase) (holds : ledger.holds c lines) :
    ledger.holds c (more + lines) := by
  induction more using Multiset.induction_on with
  | empty => rwa [Multiset.zero_add]
  | cons line more ih =>
    rw [← Multiset.singleton_add, add_assoc]
    apply ledger.plain (plain line (Multiset.mem_cons_self line more))
    exact ih fun other member => plain other (Multiset.mem_cons_of_mem member)

/-- Neither the phase nor the way to the current block matters. -/
theorem elsewhere {c d : Compilation} {lines : Multiset Line} (holds : ledger.holds c lines)
    (draft : d.draft = c.draft) (diagnostics : d.diagnostics = c.diagnostics) : ledger.holds d lines := by
  refine ledger.still ?_ diagnostics holds
  rw [draft]
  exact .refl _

/-- A step of lowering in a phase keeps the ledger; it starts with some loose lines and leaves others,
depending on its result, which is as described. -/
def Keeps {α : Type} (phase : Phase) (loose : Multiset Line) (action : Lowering α) (post : α → Prop)
    (left : α → Multiset Line) : Prop :=
  ∀ c : Compilation, c.phase = phase → Draft.Moves names {} c.draft →
    ledger.holds c (loose + c.draft.lines) → c.LeadsTo names (action c).2 ∧
      ledger.holds (action c).2 (left (action c).1 + (action c).2.draft.lines) ∧ post (action c).1

namespace Keeps

variable {ledger} {α β : Type} {phase : Phase} {loose : Multiset Line} {post : α → Prop}
  {left : α → Multiset Line}

theorem pure {a : α} (more : Multiset Line) (given : post a)
    (plain : ∀ line ∈ more, line.Plain names phase) (same : left a = more + loose) :
    ledger.Keeps phase loose (Pure.pure a) post left := by
  intro c _ _ holds
  refine ⟨.refl c, ?_, given⟩
  change ledger.holds c (left a + c.draft.lines)
  rw [same, add_assoc]
  exact ledger.plains plain holds

theorem returns {a : α} (given : post a) : ledger.Keeps phase loose (Pure.pure a) post fun _ => loose :=
  fun c _ _ holds => ⟨.refl c, holds, given⟩

theorem bind {action : Lowering β} {next : β → Lowering α} {mid : β → Prop}
    {between : β → Multiset Line} (first : ledger.Keeps phase loose action mid between)
    (second : ∀ b, mid b → ledger.Keeps phase (between b) (next b) post left) :
    ledger.Keeps phase loose (action >>= next) post left := by
  intro c inPhase reached holds
  obtain ⟨leads, kept, given⟩ := first c inPhase reached holds
  obtain ⟨leadsOn, keptOn, result⟩ := second (action c).1 given (action c).2
    (leads.phase.trans inPhase) (reached.trans leads.moves) kept
  exact ⟨leads.trans leadsOn, keptOn, result⟩

theorem imp {action : Lowering α} {better : α → Prop} (keeps : ledger.Keeps phase loose action post left)
    (imp : ∀ a, post a → better a) : ledger.Keeps phase loose action better left := by
  intro c inPhase reached holds
  obtain ⟨leads, kept, given⟩ := keeps c inPhase reached holds
  exact ⟨leads, kept, imp _ given⟩

theorem within {action : Lowering α} (keeps : ledger.Keeps phase loose action post left)
    (step : Step) : ledger.Keeps phase loose (Lowering.within step action) post left := by
  intro c inPhase reached holds
  obtain ⟨leads, kept, given⟩ := keeps { c with steps := step :: c.steps } inPhase reached
    (ledger.elsewhere holds rfl rfl)
  exact ⟨⟨leads.moves, leads.phase, leads.grown⟩, ledger.elsewhere kept rfl rfl, given⟩

theorem inPhase {action : Lowering α} {inner : Phase} (keeps : ledger.Keeps inner loose action post left) :
    ledger.Keeps phase loose (Lowering.inPhase inner action) post left := by
  intro c _ reached holds
  obtain ⟨leads, kept, given⟩ := keeps { c with phase := inner } rfl reached (ledger.elsewhere holds rfl rfl)
  exact ⟨⟨leads.moves, rfl, leads.grown⟩, ledger.elsewhere kept rfl rfl, given⟩

/-- Where a step is undone, the draft is the old one again, but what was noted stays noted. -/
theorem tentatively {action : Lowering (Option α)}
    (keeps : ledger.Keeps phase loose action (fun found => ∀ a ∈ found, post a) fun _ => loose) :
    ledger.Keeps phase loose (Lowering.tentatively action) (fun found => ∀ a ∈ found, post a)
      fun _ => loose := by
  intro c inPhase reached holds
  obtain ⟨leads, kept, given⟩ := keeps c inPhase reached holds
  rw [Lowering.run_tentatively]
  cases found : (action c).1 with
  | none => exact ⟨⟨.refl _, leads.phase, leads.grown⟩, ledger.undo leads.grown holds kept, by simp⟩
  | some result =>
    rw [found] at given
    exact ⟨leads, kept, given⟩

/-! Steps without lines. -/

theorem still {action : Lowering α} (agree : Agree names action action)
    (same : ∀ c : Compilation, c.draft.Still (action c).2.draft)
    (silent : ∀ c, (action c).2.diagnostics = c.diagnostics)
    (given : ∀ c, c.phase = phase → Draft.Moves names {} (action c).2.draft → post (action c).1) :
    ledger.Keeps phase loose action post fun _ => loose := by
  intro c inPhase reached holds
  have leads := agree.leadsTo reached
  refine ⟨leads, ?_, given c inPhase (reached.trans leads.moves)⟩
  rw [(same c).lines]
  exact ledger.still (same c) (silent c) holds

theorem currentPhase :
    ledger.Keeps phase loose Lowering.phase (fun current => current = phase) fun _ => loose :=
  still .phase (fun _ => .refl _) (fun _ => rfl) fun _ inPhase _ => inPhase

theorem degrade {degradation : Degradation} (other : degradation.isPinConflict = false) :
    ledger.Keeps phase loose (Lowering.degrade degradation) (fun _ => True) fun _ => loose :=
  fun _ _ reached holds => ⟨(Agree.degrade degradation).leadsTo reached, ledger.degrade other holds, trivial⟩

theorem enable (features : List Feature) :
    ledger.Keeps phase loose (Lowering.enable features) (fun _ => True) fun _ => loose :=
  still (.enable features) (fun _ => Draft.still_enable features) (fun _ => rfl) fun _ _ _ => trivial

theorem addManifest (head : BlockHead) :
    ledger.Keeps phase loose (Lowering.modifyDraft fun draft => draft.addManifest (.ofHead head))
      (fun _ => True) fun _ => loose :=
  still (.modifyDraft fun _ _ => .addManifest head) (fun _ => Draft.still_addManifest _)
    (fun _ => rfl) fun _ _ _ => trivial

theorem declare {storage : Storage}
    (agree : Agree names (Lowering.declare storage) (Lowering.declare storage)) :
    ledger.Keeps phase loose (Lowering.declare storage) (fun found => found.name = storage.name)
      fun _ => loose := by
  exact still agree (fun _ => Draft.still_declare storage) (fun _ => rfl) fun _ _ _ =>
    Draft.name_getD_lookup? _ storage

private theorem still_numbered {draft : Draft} {stem key : String} (listed : stem ∈ generatedStems)
    (number : Nat) (storage : Storage) :
    draft.Still (((draft.advance stem number).declare storage).rememberSlot key storage.name) := by
  have other : stem ≠ "i" := by
    rintro rfl
    exact absurd listed (by decide)
  exact ((Draft.still_advance other number).trans (Draft.still_declare storage)).trans
    (Draft.still_rememberSlot key storage.name)

theorem namedSlot {stem : String} (listed : stem ∈ generatedStems) (key : String) (type : StorageType) :
    ledger.Keeps phase loose (Lowering.namedSlot key stem type) Free fun _ => loose := by
  have run (c : Compilation) : c.draft.Still (Lowering.namedSlot key stem type c).2.draft ∧
      (Lowering.namedSlot key stem type c).2.diagnostics = c.diagnostics := by
    rw [Lowering.namedSlot, run_slot?]
    cases c.draft.slots.get? key with
    | some name => exact ⟨.refl _, rfl⟩
    | none => exact ⟨still_numbered listed _ ⟨_, type⟩, rfl⟩
  exact still (.namedSlot listed key type) (fun c => (run c).1) (fun c => (run c).2)
    fun c _ reached => (reached.generated_of_told (Lowering.told_namedSlot key stem type c)).free

theorem readSlot {stem : String} (listed : stem ∈ generatedStems) (key : String) (type : StorageType) :
    ledger.Keeps phase loose (Lowering.readSlot key stem type) (fun storage => Free storage.name)
      fun _ => loose := by
  have run (c : Compilation) : c.draft.Still (Lowering.readSlot key stem type c).2.draft ∧
      (Lowering.readSlot key stem type c).2.diagnostics = c.diagnostics := by
    rw [Lowering.readSlot, run_slot?, run_getDraft]
    cases (c.draft.slots.get? key).bind c.draft.lookup? with
    | some storage => exact ⟨.refl _, rfl⟩
    | none =>
      refine ⟨?_, rfl⟩
      have still := @still_numbered c.draft stem key listed (c.draft.freshNumber stem)
        ⟨Draft.numbered stem (c.draft.freshNumber stem), type⟩
      rw [← declare_rememberSlot] at still
      exact still
  exact still (.readSlot listed key type) (fun c => (run c).1) (fun c => (run c).2)
    fun c _ reached => (reached.generated_of_told (Lowering.told_readSlot key stem type c)).free

theorem sharedBuffer {name : String} (shared : name ∈ ["display_buffer", "storage_buffer"]) (size : Nat) :
    ledger.Keeps phase loose (Lowering.sharedBuffer name size) Free fun _ => loose := by
  have listed : name ∈ generatedStems := by
    revert name
    decide
  have run (c : Compilation) : c.draft.Still (Lowering.sharedBuffer name size c).2.draft ∧
      (Lowering.sharedBuffer name size c).2.diagnostics = c.diagnostics := by
    rw [Lowering.sharedBuffer, run_slot?]
    cases c.draft.slots.get? ("buffer:" ++ name) with
    | some buffer => exact ⟨.refl _, rfl⟩
    | none =>
      change (fun run : String × Compilation => c.draft.Still run.2.draft ∧
        run.2.diagnostics = c.diagnostics) ((if (c.draft.lookup? name).isSome then _ else _ :
          Lowering String) c)
      split
      · exact ⟨still_numbered listed _ ⟨_, .text size⟩, rfl⟩
      · exact ⟨(Draft.still_declare ⟨name, .text size⟩).trans (Draft.still_rememberSlot _ name), rfl⟩
  exact still (.sharedBuffer shared size) (fun c => (run c).1) (fun c => (run c).2)
    fun c _ reached => (reached.generated_of_told (Lowering.told_sharedBuffer name size c)).free

theorem hoist {read : Expr} (plain : read.Plain names) :
    ledger.Keeps phase loose (Lowering.hoist (.run read)) (fun _ => True) fun _ => loose := by
  intro c _ reached holds
  refine ⟨(Agree.hoist read).leadsTo reached, ?_, trivial⟩
  change ledger.holds { c with draft := c.draft.hoist (.run read) }
    (loose + (c.draft.hoist (.run read)).lines)
  rw [Draft.lines_hoist]
  exact ledger.hoist plain holds

theorem configurePin (pins : ledger.pins) {setup : PinSetup} (plain : setup.pull = .none) :
    ledger.Keeps phase loose (Lowering.configurePin setup) (fun _ => True) fun _ => loose := by
  intro c _ reached holds
  have lines : (Lowering.configurePin setup c).2.draft.lines = c.draft.lines := by
    rw [Lowering.run_configurePin]
    split <;> rfl
  refine ⟨(Agree.configurePin setup).leadsTo reached, ?_, trivial⟩
  rw [lines]
  exact ledger.configure pins plain holds

/-! Steps for which a line is made, and steps that put loose lines into the draft. -/

theorem usePin (pins : ledger.pins) (setup : PinSetup) :
    ledger.Keeps phase loose (Lowering.usePin setup.pin setup.mode) (fun _ => True)
      fun _ => {setup.line} + loose := by
  intro c _ reached holds
  have lines : (Lowering.usePin setup.pin setup.mode c).2.draft.lines = c.draft.lines := by
    cases used : c.draft.mode? setup.pin with
    | none =>
      rw [run_usePin used]
      rfl
    | some previous => rw [Lowering.run_usePin_busy used]
  refine ⟨(Agree.usePin _ _).leadsTo reached, ?_, trivial⟩
  rw [lines, add_assoc]
  exact ledger.setUp setup pins holds

theorem usePwm {frequency duty : Expr} (output : PwmOutput) (first : frequency.Plain names)
    (second : duty.Plain names) : ledger.Keeps phase loose (Lowering.usePwm output) (fun _ => True)
      fun _ => {.starting output frequency duty} + loose := by
  intro c _ reached holds
  refine ⟨(Agree.usePwm output).leadsTo reached, ?_, trivial⟩
  change ledger.holds { c with draft := c.draft.usePwm output } (_ + (c.draft.usePwm output).lines)
  rw [Draft.lines_usePwm, add_assoc]
  exact ledger.start output first second holds

theorem count {bound : Expr} (plain : bound.Plain names) :
    ledger.Keeps phase loose (Lowering.fresh "i") (fun _ => True)
      fun counter => {.openFor counter bound} + loose := by
  intro c _ reached holds
  refine ⟨(fresh "i").leadsTo reached, ?_, trivial⟩
  change ledger.holds { c with draft := c.draft.advance "i" (c.draft.freshNumber "i") }
    ({.openFor (Draft.numbered "i" (c.draft.freshNumber "i")) bound} + loose + c.draft.lines)
  rw [add_assoc]
  exact ledger.loop plain holds

theorem take {action : Lowering α} {part : Phase} {code : Code} (agree : Agree names action action)
    (takes : ∀ c : Compilation, Draft.Takes part code c.draft (action c).2.draft)
    (silent : ∀ c, (action c).2.diagnostics = c.diagnostics) (orderly : code.Orderly part.objects) :
    ledger.Keeps phase (code.lines + loose) action (fun _ => True) fun _ => loose := by
  intro c _ reached holds
  refine ⟨agree.leadsTo reached, ?_, trivial⟩
  rw [(takes c).lines, add_left_comm, ← add_assoc]
  exact ledger.take (takes c) (silent c) orderly holds

theorem append {part : Phase} (isSection : part ∈ Lowering.sections.map Prod.snd) {code : Code}
    (orderly : code.Orderly part.objects) :
    ledger.Keeps phase (code.lines + loose) (Lowering.modifyDraft fun draft => draft.append part code)
      (fun _ => True) fun _ => loose :=
  take (.modifyDraft fun _ _ => .append part code) (fun _ => Draft.takes_append isSection code)
    (fun _ => rfl) orderly

theorem addTimer (timer : Timer) (orderly : timer.body.Orderly Phase.timer.objects) :
    ledger.Keeps phase (timer.body.lines + loose) (Lowering.addTimer timer) (fun _ => True) fun _ => loose :=
  take (.addTimer timer) (fun _ => Draft.takes_addTimer timer) (fun _ => rfl) orderly

end Keeps

end Ledger

end FlipperBlocks
