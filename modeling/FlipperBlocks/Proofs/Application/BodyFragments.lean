import FlipperBlocks.Proofs.Application.Fragments
import FlipperBlocks.Proofs.Lowering.EnteredPrograms

/-! Runs of tokens in the fragments of an application, counted by the lines of its draft. -/
namespace FlipperBlocks

open C (Code Line occurrences occurrencesIn)

namespace Draft

theorem mem_kept_of_codes (draft : Draft) {code : Code} (member : code ∈ draft.codes) : code ∈ draft.kept :=
  List.mem_append_right _ (List.mem_append_right _ member)

theorem sum_lines (draft : Draft) (f : Line → Nat) :
    (draft.lines.map f).sum = (draft.codes.map fun code => (code.lines.map f).sum).sum := by
  rw [lines]
  induction draft.codes with
  | nil => rfl
  | cons code rest ih => simp [ih]

end Draft

namespace Application

def bodyFragments (draft : Draft) : List String :=
  [bodyOf draft.setup, bodyOf draft.draw, bodyOf draft.input, bodyOf draft.loop] ++
    (draft.timers.map (fun timer => bodyOf timer.body) ++
      draft.buttons.map fun body => Text.indent (bodyOf body))

variable {draft last : Draft} {run : String}

theorem tokens_bodyFragments (sound : draft.Sound last) :
    (bodyFragments draft).map C.tokens = draft.codes.map Code.tokens := by
  have rows (code : Code) (member : code ∈ draft.codes) : C.Rows (bodyOf code) code.tokens :=
    (C.Code.rows (sound.kept code (draft.mem_kept_of_codes member)).spelled).indent
  have sections : [bodyOf draft.setup, bodyOf draft.draw, bodyOf draft.input, bodyOf draft.loop].map
      C.tokens = [draft.setup, draft.draw, draft.input, draft.loop].map Code.tokens := by
    have each (code : Code) (member : code ∈ [draft.setup, draft.draw, draft.input, draft.loop]) :
        C.tokens (bodyOf code) = code.tokens :=
      tokens_of_rows (rows code (List.mem_append_left _ member))
    simp [each]
  have timers : (draft.timers.map fun timer => bodyOf timer.body).map C.tokens =
      (draft.timers.map Timer.body).map Code.tokens := by
    rw [List.map_map, List.map_map]
    apply List.map_congr_left
    intro timer member
    exact tokens_of_rows (rows _ (List.mem_append_right _
      (List.mem_append_left _ (List.mem_map_of_mem member))))
  have buttons : (draft.buttons.map fun body => Text.indent (bodyOf body)).map C.tokens =
      draft.buttons.map Code.tokens := by
    rw [List.map_map]
    apply List.map_congr_left
    intro body member
    exact tokens_of_rows (rows _ (List.mem_append_right _ (List.mem_append_right _ member))).indent
  rw [bodyFragments, Draft.codes, List.map_append, List.map_append, sections, timers, buttons,
    List.map_append, List.map_append]

theorem occurrences_bodyFragments (sound : draft.Sound last)
    (within : ∀ last ∈ C.lineEnds, last ∉ (C.tokens run).dropLast) :
    ((bodyFragments draft).map (occurrencesIn run)).sum =
      (draft.lines.map fun line => occurrences (C.tokens run) line.tokens).sum := by
  have fragments : (bodyFragments draft).map (occurrencesIn run) =
      ((bodyFragments draft).map C.tokens).map (occurrences (C.tokens run)) := by
    rw [List.map_map]
    rfl
  have perCode : (draft.codes.map Code.tokens).map (occurrences (C.tokens run)) =
      draft.codes.map fun code =>
        (code.lines.map fun line => occurrences (C.tokens run) line.tokens).sum := by
    rw [List.map_map]
    apply List.map_congr_left
    intro code member
    exact Code.occurrences_tokens within (sound.kept code (draft.mem_kept_of_codes member)).spelled
  rw [fragments, tokens_bodyFragments sound, perCode, Draft.sum_lines]

end Application

end FlipperBlocks
