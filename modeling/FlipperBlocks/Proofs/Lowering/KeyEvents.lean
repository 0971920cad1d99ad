import FlipperBlocks.Proofs.Lowering.PinModes

/-! Events are looked at only where input is handled.

The phase changes with every section, timer and button that lowering comes to, however they are nested,
and a block about keys is left out in any phase but that of input. -/
namespace FlipperBlocks

open C (Code)
open Lowering

theorem Draft.Orderly.kept_besides_input {names : List String} {draft : Draft}
    (orderly : draft.Orderly names) {code : Code} (member : code ∈ Draft.kept { draft with input := [] }) :
    code.Orderly ["app"] := by
  rcases mem_kept.1 member with ⟨setup, _, rfl⟩ | ⟨line, there, rfl⟩ | ⟨phase, body⟩
  · exact C.Code.orderly_setup setup
  · exact C.Code.Ordinary.orderly (C.Code.ordinary_line.2 (orderly.beforeDraw line there).ordinary)
  · by_cases input : phase = .input
    · subst input
      have empty : code = [] := by simpa [Draft.bodies] using body
      rw [empty]
      exact C.Code.orderly_nil
    · have old : (phase, code) ∈ draft.bodies := by
        simp only [Draft.bodies, List.mem_append, List.mem_cons, Prod.mk.injEq, input, false_and,
          false_or] at body ⊢
        exact body
      have inPhase := orderly.bodies _ old
      cases phase with
      | input => exact absurd rfl input
      | _ => exact inPhase

def C.Reaches (object : String) (tokens : List C.Token) : Prop := [.word object.toList, C.arrow] <:+: tokens

theorem C.Code.Orderly.mem_of_reaches {objects : List String} {code : Code}
    (orderly : code.Orderly objects) {object : String} (reaches : C.Reaches object code.tokens) :
    object ∈ objects := by
  obtain ⟨_, among⟩ := orderly.linkedBy_tokens.object_of_infix reaches
  rw [String.ofList_toList] at among
  exact among

namespace Site

variable {site : Site} {c : Compilation}

theorem onKey_of_input (site : Site) (input : c.phase = .input) :
    ∃ (key type : String) (body : Code), (onKey site c).1 = Code.braced (.openIf (.binary .and
      (.binary .equal (.member "event" "type") (.name type))
      (.binary .equal (.member "event" "key") (.name key)))) body := by
  have run : onKey site c = _ := bind_of_run (rfl : phase c = (c.phase, c))
  rw [run, if_pos input]
  exact ⟨_, _, _, rfl⟩

theorem reaches_event_iff (kind : site.kind = .onKey) :
    C.Reaches "event" (site.asStatement c).1.tokens ↔ c.phase = .input := by
  have run : site.asStatement = onKey site := by rw [asStatement, kind]
  rw [run]
  constructor
  · intro reaches
    by_contra elsewhere
    rw [onKey_of_elsewhere elsewhere] at reaches
    have nothing (text : String) : (Code.comment text).Orderly [] :=
      C.Code.Ordinary.orderly (C.Code.ordinary_comment text)
    exact absurd ((nothing _).mem_of_reaches reaches) List.not_mem_nil
  · intro input
    obtain ⟨key, type, body, same⟩ := onKey_of_input site input
    rw [same, Code.braced, List.append_assoc, C.Code.tokens_append, C.Code.tokens_line]
    exact ⟨[.call ['i', 'f'], .mark ['(']], _, rfl⟩

end Site

namespace Program

/-- Outside the section for input, the fragments of a program reach nothing but the state of the
application. -/
theorem events_in_input_only (program : Program) :
    (∀ fragment ∈ Application.fragments { program.lowered.draft with input := [] },
      ∀ object, C.Reaches object (C.tokens fragment) → object = "app") ∧
    ∀ (block : Block) (c : Compilation), block.head.kind = .onKey →
      (C.Reaches "event" (block.meaning.statement c).1.tokens ↔ c.phase = .input) := by
  refine ⟨fun fragment member object reaches => ?_, fun block c kind => ?_⟩
  · have sound : Draft.Sound { program.lowered.draft with input := [] } program.lowered.draft :=
      { program.lowered_sound with input := .nil }
    obtain ⟨code, kept, rows⟩ := Application.exists_kept_of_fragment sound member
    have orderly := program.orderly_lowered.kept_besides_input kept
    rw [Application.tokens_of_rows rows] at reaches
    exact List.mem_singleton.1 (orderly.mem_of_reaches reaches)
  · rw [block.meaning_eq]
    exact Site.reaches_event_iff kind

def keyInTimer : Program :=
  ⟨[[.mk { kind := .app } [] [("INPUT", [.mk { kind := .onKey } [] [("DO",
    [.mk { kind := .timer } [] [("DO", [.mk { kind := .onKey } [] [],
      .mk { kind := .changeVariable, fields := [("VAR", .text "x")] } [] []])]])]])]]]⟩

def keyInTimerBody : String :=
  "    // flipper_input_if_key_type ignored outside the input section\n    app->x += 1;\n"

theorem keyInTimer_events_in_input_only :
    keyInTimerBody ∈ Application.fragments { keyInTimer.lowered.draft with input := [] } ∧
      C.Reaches "app" (C.tokens keyInTimerBody) ∧ ¬ C.Reaches "event" (C.tokens keyInTimerBody) ∧
        C.Reaches "event" keyInTimer.lowered.draft.input.tokens := by
  have member : keyInTimerBody ∈
      Application.fragments { keyInTimer.lowered.draft with input := [] } := by decide +kernel
  refine ⟨member, ?_, fun reaches => ?_, ?_⟩
  · unfold C.Reaches
    decide +kernel
  · have only := keyInTimer.events_in_input_only.1 keyInTimerBody member "event" reaches
    exact absurd only (by decide)
  · unfold C.Reaches
    decide +kernel

end Program

end FlipperBlocks
