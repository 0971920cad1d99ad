import FlipperBlocks.Proofs.Application.Manifests
import FlipperBlocks.Proofs.Lowering.CongruentPrograms

/-! Ids of blocks.

The id of a block is for reports only. Two programs that differ in nothing but ids are compiled into the
same text, and the same degradations are recorded at the same places. -/
namespace FlipperBlocks

open Lowering

def Diagnostic.anonymous (diagnostic : Diagnostic) : Diagnostic :=
  { diagnostic with location := { diagnostic.location with block := none } }

structure Compilation.SameButIds (c d : Compilation) : Prop where
  draft : c.draft = d.draft
  phase : c.phase = d.phase
  steps : c.steps.map Step.segment = d.steps.map Step.segment
  diagnostics : c.diagnostics.map Diagnostic.anonymous = d.diagnostics.map Diagnostic.anonymous

def Lowering.SameButIds {α : Type} (a b : Lowering α) : Prop :=
  ∀ c d : Compilation, c.SameButIds d → (a c).1 = (b d).1 ∧ (a c).2.SameButIds (b d).2

namespace Lowering.SameButIds

variable {α β : Type} {a b : Lowering α}

theorem bind {f g : α → Lowering β} (first : SameButIds a b)
    (second : ∀ x, SameButIds (f x) (g x)) : SameButIds (a >>= f) (b >>= g) := by
  intro c d same
  obtain ⟨result, related⟩ := first c d same
  change (f (a c).1 (a c).2).1 = (g (b d).1 (b d).2).1 ∧
    (f (a c).1 (a c).2).2.SameButIds (g (b d).1 (b d).2).2
  rw [← result]
  exact second _ _ _ related

theorem degrade (degradation : Degradation) :
    SameButIds (Lowering.degrade degradation) (Lowering.degrade degradation) := by
  intro c d same
  refine ⟨rfl, same.draft, same.phase, same.steps, ?_⟩
  have recorded : (Diagnostic.mk degradation c.location).anonymous =
      (Diagnostic.mk degradation d.location).anonymous := by
    simp only [Diagnostic.anonymous, Compilation.location, Location.ofSteps, same.steps]
  change (c.diagnostics ++ [Diagnostic.mk degradation c.location]).map Diagnostic.anonymous =
    (d.diagnostics ++ [Diagnostic.mk degradation d.location]).map Diagnostic.anonymous
  rw [List.map_append, List.map_append, same.diagnostics, List.map_singleton, List.map_singleton, recorded]

theorem within {segment : String} {id other : Option String} (related : SameButIds a b) :
    SameButIds (Lowering.within ⟨segment, id⟩ a) (Lowering.within ⟨segment, other⟩ b) := by
  intro c d same
  rw [run_within, run_within]
  obtain ⟨result, after⟩ := related { c with steps := ⟨segment, id⟩ :: c.steps }
    { d with steps := ⟨segment, other⟩ :: d.steps }
    ⟨same.draft, same.phase, by rw [List.map_cons, List.map_cons, same.steps], same.diagnostics⟩
  refine ⟨result, after.draft, after.phase, ?_, after.diagnostics⟩
  dsimp only
  rw [List.map_tail, List.map_tail, after.steps]

theorem inPhase (phase : Phase) (related : SameButIds a b) :
    SameButIds (Lowering.inPhase phase a) (Lowering.inPhase phase b) := by
  intro c d same
  rw [run_inPhase, run_inPhase]
  obtain ⟨result, after⟩ := related { c with phase := phase } { d with phase := phase }
    ⟨same.draft, rfl, same.steps, same.diagnostics⟩
  exact ⟨result, after.draft, same.phase, after.steps, after.diagnostics⟩

theorem tentatively {a b : Lowering (Option α)} (related : SameButIds a b) :
    SameButIds (Lowering.tentatively a) (Lowering.tentatively b) := by
  intro c d same
  obtain ⟨result, after⟩ := related c d same
  rw [run_tentatively, run_tentatively, ← result]
  refine ⟨rfl, ?_⟩
  dsimp only
  split
  · exact ⟨same.draft, after.phase, after.steps, after.diagnostics⟩
  · exact after

end Lowering.SameButIds

def Congruence.sameButIds : Congruence where
  holds _ _ _ a b := Lowering.SameButIds a b
  given _ := id
  pure _ _ _ same := ⟨rfl, same⟩
  bind := .bind
  getDraft _ _ same := ⟨same.draft, same⟩
  phase _ _ same := ⟨same.phase, same⟩
  modifyDraft {_ _ _ change} _ _ _ same :=
    ⟨rfl, congrArg change same.draft, same.phase, same.steps, same.diagnostics⟩
  degrade _ := .degrade _
  within _ _ := .within
  inPhase := .inPhase
  tentatively := .tentatively

namespace Program

theorem sameButIds_anonymous (program : Program) : program.lowered.SameButIds program.anonymous.lowered :=
  (Congruence.sameButIds.lower program {} {} ⟨rfl, rfl, rfl, rfl⟩).2

/-- Programs that differ only in the ids of their blocks are compiled into the same text. The reports about
them have the same length, and tell the same degradations at the same places in the same order. -/
theorem compile_sameButIds {p q : Program} (same : p.anonymous = q.anonymous) :
    p.compile.text = q.compile.text ∧
      List.Forall₂ (fun first second => first.degradation = second.degradation ∧
          first.location.path = second.location.path ∧ first.anonymous = second.anonymous)
        p.compile.diagnostics.entries q.compile.diagnostics.entries := by
  have first := p.sameButIds_anonymous
  have second := q.sameButIds_anonymous
  rw [← same] at second
  refine ⟨by rw [text_compile, text_compile, first.draft, second.draft], ?_⟩
  have entries : p.lowered.diagnostics.map Diagnostic.anonymous =
      q.lowered.diagnostics.map Diagnostic.anonymous :=
    first.diagnostics.trans second.diagnostics.symm
  rw [← List.forall₂_eq_eq_eq, List.forall₂_map_left_iff, List.forall₂_map_right_iff] at entries
  rw [diagnostics_compile, diagnostics_compile]
  refine entries.imp fun a b equal => ?_
  have degradation : a.anonymous.degradation = b.anonymous.degradation := by rw [equal]
  have path : a.anonymous.location.path = b.anonymous.location.path := by rw [equal]
  exact ⟨degradation, path, equal⟩

def labelled (id : Option String) : Program :=
  ⟨[[.mk { kind := .app, id := some "a" } [] [("LOOP", [.mk { kind := .unknown "warp", id } [] []])]]]⟩

/-- The report tells the nearest id on the way to a block, and the text is the same. -/
theorem compile_labelled : (labelled (some "b")).anonymous = (labelled none).anonymous ∧
      (labelled (some "b")).compile.diagnostics.entries.map (fun entry => entry.location.block) = [some "b"] ∧
      (labelled none).compile.diagnostics.entries.map (fun entry => entry.location.block) = [some "a"] ∧
      (labelled (some "b")).compile.text = (labelled none).compile.text := by
  have same : (labelled (some "b")).anonymous = (labelled none).anonymous := rfl
  rw [diagnostics_compile, diagnostics_compile]
  exact ⟨same, by decide +kernel, by decide +kernel, (compile_sameButIds same).1⟩

end Program

end FlipperBlocks
