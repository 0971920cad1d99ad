import FlipperBlocks.Lowering.Block

/-! Steps of lowering see the draft and the phase only.

What a step gives, and what it does to the draft, depends neither on the way to the current block nor
on what has been recorded so far. The step leaves the phase and the way as they are, and adds to the
record. -/
namespace FlipperBlocks

/-- A degradation somewhere in a block, with the steps from the block to that place, the last one
first. -/
structure Note where
  degradation : Degradation
  way : List Step

def Note.seenFrom (steps : List Step) (note : Note) : Diagnostic :=
  ⟨note.degradation, Location.ofSteps (note.way ++ steps)⟩

/-- Two compilations of the same program in the same phase, wherever they stand and whatever is on
record. -/
structure Compilation.Alike (c d : Compilation) : Prop where
  draft : c.draft = d.draft
  phase : c.phase = d.phase

namespace Lowering

variable {α β : Type} {c d : Compilation}

theorem bind_of_run {first : Lowering α} {next : α → Lowering β} {a : α} (run : first c = (a, d)) :
    (first >>= next) c = next a d := by
  change next (first c).1 (first c).2 = next a d
  rw [run]

theorem tentatively_of_run {action : Lowering (Option α)} {result : Option α} (run : action c = (result, d)) :
    tentatively action c = (result, if result.isNone then { d with draft := c.draft } else d) := by
  have restored : tentatively action c =
      (if (action c).1.isNone then modifyDraft (fun _ => c.draft) >>= fun _ => pure (action c).1
        else pure (action c).1 : Lowering (Option α)) (action c).2 := rfl
  rw [restored, run]
  cases result <;> rfl

theorem run_tentatively (action : Lowering (Option α)) (c : Compilation) :
    tentatively action c = ((action c).1,
      if (action c).1.isNone then { (action c).2 with draft := c.draft } else (action c).2) :=
  tentatively_of_run rfl

theorem scalar?_of_run {site : Site} {input : String} {default value : Value}
    (found : site.value input default c = (value, d)) : site.scalar? input default c =
      if value.kind = .bytes then (none, { d with draft := c.draft }) else (some value, d) := by
  have read : (site.value input default >>= fun value =>
      return if value.kind = .bytes then none else some value : Lowering (Option Value)) c =
        (if value.kind = .bytes then none else some value, d) := bind_of_run found
  unfold Site.scalar?
  rw [tentatively_of_run read]
  split <;> rfl

private theorem streamIn?_eq (site : Site) (input : String) (c : Compilation) : streamIn? site input c = (do
      if (Stream.ofValue? (site.number input "0" c).1).isNone then degrade (.expectedBytes input)
      return Stream.ofValue? (site.number input "0" c).1 : Lowering _)
        (if (Stream.ofValue? (site.number input "0" c).1).isNone then
          { (site.number input "0" c).2 with draft := c.draft } else (site.number input "0" c).2) :=
  bind_of_run (@tentatively_of_run Stream c (site.number input "0" c).2
    (do return Stream.ofValue? (← site.number input "0")) _ rfl)

theorem streamIn?_congr {site site' : Site} {input : String}
    (same : site.number input "0" c = site'.number input "0" c) :
    streamIn? site input c = streamIn? site' input c := by
  rw [streamIn?_eq, streamIn?_eq, same]

theorem run_streamIn? (site : Site) (input : String) (c : Compilation) :
    (streamIn? site input c).1 = Stream.ofValue? (site.number input "0" c).1 ∧
      ∀ stream, (streamIn? site input c).1 = some stream →
        (streamIn? site input c).2 = (site.number input "0" c).2 := by
  rw [streamIn?_eq]
  cases Stream.ofValue? (site.number input "0" c).1 with
  | none => exact ⟨rfl, fun _ found => by cases found⟩
  | some stream => exact ⟨rfl, fun _ _ => rfl⟩

/-- A step whose result, draft and notes are the same wherever the block stands and whatever has been
recorded before. -/
def Local (action : Lowering α) : Prop :=
  ∀ draft phase, ∃ (result : α) (after : Draft) (notes : List Note), ∀ steps diagnostics,
    action ⟨draft, phase, steps, diagnostics⟩ =
      (result, ⟨after, phase, steps, diagnostics ++ notes.map (Note.seenFrom steps)⟩)

namespace Local

theorem pure (a : α) : Local (Pure.pure a) := fun draft _ =>
  ⟨a, draft, [], fun steps diagnostics => by rw [List.map_nil, List.append_nil]; rfl⟩

theorem bind {action : Lowering α} {next : α → Lowering β} (first : Local action)
    (second : ∀ a, Local (next a)) : Local (action >>= next) := by
  intro draft phase
  obtain ⟨middle, between, notes, runs⟩ := first draft phase
  obtain ⟨result, after, more, runsOn⟩ := second middle between phase
  refine ⟨result, after, notes ++ more, fun steps diagnostics => ?_⟩
  rw [bind_of_run (runs steps diagnostics), runsOn, List.map_append, List.append_assoc]

theorem getDraft : Local Lowering.getDraft := fun draft _ =>
  ⟨draft, draft, [], fun steps diagnostics => by rw [List.map_nil, List.append_nil]; rfl⟩

theorem phase : Local Lowering.phase := fun draft phase =>
  ⟨phase, draft, [], fun steps diagnostics => by rw [List.map_nil, List.append_nil]; rfl⟩

theorem modifyDraft (change : Draft → Draft) : Local (Lowering.modifyDraft change) := fun draft _ =>
  ⟨(), change draft, [], fun steps diagnostics => by rw [List.map_nil, List.append_nil]; rfl⟩

theorem degrade (degradation : Degradation) : Local (Lowering.degrade degradation) := fun draft _ =>
  ⟨(), draft, [⟨degradation, []⟩], fun _ _ => rfl⟩

theorem within {action : Lowering α} (step : Step) (isLocal : Local action) :
    Local (Lowering.within step action) := by
  intro draft phase
  obtain ⟨result, after, notes, runs⟩ := isLocal draft phase
  refine ⟨result, after, notes.map fun note => ⟨note.degradation, note.way ++ [step]⟩,
    fun steps diagnostics => ?_⟩
  have inner := runs (step :: steps) diagnostics
  have moved : notes.map (Note.seenFrom (step :: steps)) =
      (notes.map fun note => (⟨note.degradation, note.way ++ [step]⟩ : Note)).map
        (Note.seenFrom steps) := by
    simp [Note.seenFrom, Function.comp_def]
  have run : Lowering.within step action ⟨draft, phase, steps, diagnostics⟩ =
      ((action ⟨draft, phase, step :: steps, diagnostics⟩).1,
        (Lowering.leave (action ⟨draft, phase, step :: steps, diagnostics⟩).2).2) := rfl
  rw [run, inner, moved]
  rfl

theorem inPhase {action : Lowering α} (inner : Phase) (isLocal : Local action) :
    Local (Lowering.inPhase inner action) := by
  intro draft phase
  obtain ⟨result, after, notes, runs⟩ := isLocal draft inner
  refine ⟨result, after, notes, fun steps diagnostics => ?_⟩
  have run : Lowering.inPhase inner action ⟨draft, phase, steps, diagnostics⟩ =
      ((action ⟨draft, inner, steps, diagnostics⟩).1,
        { (action ⟨draft, inner, steps, diagnostics⟩).2 with phase := phase }) := rfl
  rw [run, runs]

theorem tentatively {action : Lowering (Option α)} (isLocal : Local action) :
    Local (Lowering.tentatively action) := by
  intro draft phase
  obtain ⟨result, after, notes, runs⟩ := isLocal draft phase
  refine ⟨result, if result.isNone then draft else after, notes, fun steps diagnostics => ?_⟩
  rw [tentatively_of_run (runs steps diagnostics)]
  cases result <;> rfl

/-! Steps that lowering is made of. -/

theorem declare (storage : Storage) : Local (Lowering.declare storage) :=
  .bind (.modifyDraft _) fun _ => .bind .getDraft fun _ => .pure _

theorem fresh (stem : String) : Local (Lowering.fresh stem) :=
  .bind .getDraft fun _ => .bind (.modifyDraft _) fun _ => .pure _

theorem slot? (key : String) : Local (Lowering.slot? key) := .bind .getDraft fun _ => .pure _

theorem addTimer (timer : Timer) : Local (Lowering.addTimer timer) :=
  .bind .getDraft fun _ => .bind (.modifyDraft _) fun _ => .pure _

theorem addButton (body : C.Code) : Local (Lowering.addButton body) :=
  .bind .getDraft fun _ => .bind (.modifyDraft _) fun _ => .pure _

theorem usePin (pin : Pin) (mode : PinMode) : Local (Lowering.usePin pin mode) := by
  refine .bind .getDraft fun draft => ?_
  split
  · exact .bind (.modifyDraft _) fun _ => .pure _
  · split
    · exact .bind (.degrade _) fun _ => .pure _
    · exact .pure _

theorem configurePin (setup : PinSetup) : Local (Lowering.configurePin setup) := by
  refine .bind (.usePin _ _) fun free => ?_
  split
  · exact .modifyDraft _
  · exact .pure _

theorem sharedBuffer (name : String) (size : Nat) : Local (Lowering.sharedBuffer name size) := by
  have remembered (buffer : String) : Local (do
      let _ ← Lowering.declare ⟨buffer, .text size⟩
      Lowering.rememberSlot ("buffer:" ++ name) buffer
      return buffer) :=
    .bind (.declare _) fun _ => .bind (.modifyDraft _) fun _ => .pure _
  refine .bind (.slot? _) fun found => ?_
  cases found with
  | some buffer => exact .pure _
  | none =>
    refine .bind (.bind .getDraft fun _ => .pure _) fun other => ?_
    dsimp only
    split
    · exact .bind (.fresh _) remembered
    · exact .bind (.pure _) remembered

theorem namedSlot (key stem : String) (type : StorageType) : Local (Lowering.namedSlot key stem type) := by
  refine .bind (.slot? _) fun found => ?_
  cases found with
  | some name => exact .pure _
  | none =>
    exact .bind (.fresh _) fun _ => .bind (.declare _) fun _ => .bind (.modifyDraft _) fun _ => .pure _

theorem readSlot (key stem : String) (type : StorageType) : Local (Lowering.readSlot key stem type) := by
  refine .bind (.slot? _) fun found => .bind .getDraft fun draft => ?_
  dsimp only
  split
  · exact .pure _
  · exact .bind (.fresh _) fun _ => .bind (.modifyDraft _) fun _ => .declare _

theorem byteStream (site : Site) : Local (Lowering.byteStream site) :=
  .bind (.fresh _) fun _ => .bind (.declare _) fun _ => .pure _

/-! What is known of a local step. -/

section

variable {action : Lowering α} (isLocal : Local action)

include isLocal

theorem phase_eq (c : Compilation) : (action c).2.phase = c.phase := by
  obtain ⟨result, after, notes, runs⟩ := isLocal c.draft c.phase
  exact congrArg (fun run => run.2.phase) (runs c.steps c.diagnostics)

theorem steps_eq (c : Compilation) : (action c).2.steps = c.steps := by
  obtain ⟨result, after, notes, runs⟩ := isLocal c.draft c.phase
  exact congrArg (fun run => run.2.steps) (runs c.steps c.diagnostics)

theorem diagnostics_grow (c : Compilation) : c.diagnostics <+: (action c).2.diagnostics := by
  obtain ⟨result, after, notes, runs⟩ := isLocal c.draft c.phase
  have added : (action c).2.diagnostics = c.diagnostics ++ notes.map (Note.seenFrom c.steps) :=
    congrArg (fun run => run.2.diagnostics) (runs c.steps c.diagnostics)
  rw [added]
  exact List.prefix_append _ _

theorem alike (same : c.Alike d) : (action c).1 = (action d).1 ∧ (action c).2.Alike (action d).2 := by
  obtain ⟨result, after, notes, runs⟩ := isLocal d.draft d.phase
  have here : action d = _ := runs d.steps d.diagnostics
  have there : action ⟨d.draft, d.phase, c.steps, c.diagnostics⟩ = _ := runs c.steps c.diagnostics
  have equal : c = ⟨d.draft, d.phase, c.steps, c.diagnostics⟩ := by rw [← same.draft, ← same.phase]
  rw [equal, here, there]
  exact ⟨rfl, rfl, rfl⟩

end

end Local

end Lowering

end FlipperBlocks
