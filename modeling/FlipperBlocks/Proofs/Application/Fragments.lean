import FlipperBlocks.Proofs.Lowering.ProgramOutcomes

/-! The code of a program's blocks, as it stands in the text of the application. -/
namespace FlipperBlocks

open C (Code Line)

namespace Application

/-- The fragments of an application's text that come from blocks: what is done at its start, before
every drawing, in its four sections, and in its timers and buttons. -/
def fragments (draft : Draft) : List String :=
  draft.setups.map (fun setup => bodyRow setup.line.text) ++
    (draft.beforeDraw.map (fun line => bodyRow line.text) ++
      ([bodyOf draft.setup, bodyOf draft.draw, bodyOf draft.input, bodyOf draft.loop] ++
        (draft.timers.map (fun timer => bodyOf timer.body) ++
          draft.buttons.map fun body => Text.indent (bodyOf body))))

def rendered (draft : Draft) : List (Code × String) :=
  draft.setups.map (fun setup => (Code.line setup.line, bodyRow setup.line.text)) ++
    (draft.beforeDraw.map (fun line => (Code.line line, bodyRow line.text)) ++
      ([draft.setup, draft.draw, draft.input, draft.loop].map (fun code => (code, bodyOf code)) ++
        (draft.timers.map (fun timer => (timer.body, bodyOf timer.body)) ++
          draft.buttons.map fun body => (body, Text.indent (bodyOf body)))))

theorem map_fst_rendered (draft : Draft) : (rendered draft).map Prod.fst = draft.kept := by
  simp [rendered, Draft.kept, Function.comp_def]

theorem map_snd_rendered (draft : Draft) : (rendered draft).map Prod.snd = fragments draft := by
  simp [rendered, fragments, Function.comp_def]

theorem rows_bodyRow {line : Line} (spelled : (Code.line line).Holds C.Atom.Spelled) :
    C.Rows (bodyRow line.text) (Code.line line).tokens := by
  have holds := Code.holds_line.1 spelled
  have nonempty : line.ended.toList ≠ [] := by
    rw [Line.ended_eq holds, String.toList_append]
    simp
  have rows := (Line.rows holds).margin nonempty 1
  rw [Line.ended_eq holds, ← String.append_assoc] at rows
  rw [Code.tokens_line]
  exact rows

theorem rows_rendered {draft : Draft} {code : Code} {fragment : String}
    (member : (code, fragment) ∈ rendered draft) (spelled : code.Holds C.Atom.Spelled) :
    C.Rows fragment code.tokens := by
  simp only [rendered, List.mem_append, List.mem_map, Prod.mk.injEq] at member
  rcases member with ⟨setup, _, rfl, rfl⟩ | ⟨line, _, rfl, rfl⟩ | ⟨body, _, rfl, rfl⟩ |
    ⟨timer, _, rfl, rfl⟩ | ⟨body, _, rfl, rfl⟩
  · exact rows_bodyRow spelled
  · exact rows_bodyRow spelled
  · exact (Code.rows spelled).indent
  · exact (Code.rows spelled).indent
  · exact (Code.rows spelled).indent.indent

theorem tokens_of_rows {text : String} {found : List C.Token} (rows : C.Rows text found) :
    C.tokens text = found := by
  simp [C.tokens, rows.scan, C.Scan.pending]

theorem calls_of_rows {text : String} {found : List C.Token} (rows : C.Rows text found) :
    C.calls text = C.callsIn found := by
  rw [C.calls, tokens_of_rows rows]

variable {draft last : Draft}

theorem exists_kept_of_fragment (sound : draft.Sound last) {fragment : String}
    (member : fragment ∈ fragments draft) : ∃ code ∈ draft.kept, C.Rows fragment code.tokens := by
  rw [← map_snd_rendered] at member
  obtain ⟨pair, there, rfl⟩ := List.mem_map.1 member
  have kept : pair.1 ∈ draft.kept := map_fst_rendered draft ▸ List.mem_map_of_mem there
  exact ⟨pair.1, kept, rows_rendered there (sound.kept _ kept).spelled⟩

theorem exists_fragment_of_kept (sound : draft.Sound last) {code : Code} (kept : code ∈ draft.kept) :
    ∃ fragment ∈ fragments draft, C.Rows fragment code.tokens := by
  have spelled := (sound.kept _ kept).spelled
  rw [← map_fst_rendered] at kept
  obtain ⟨pair, there, rfl⟩ := List.mem_map.1 kept
  exact ⟨pair.2, map_snd_rendered draft ▸ List.mem_map_of_mem there, rows_rendered there spelled⟩

theorem mem_calls_fragments (sound : draft.Sound last) {function : String} :
    (∃ fragment ∈ fragments draft, function ∈ C.calls fragment) ↔ function ∈ draft.calls := by
  rw [Draft.calls, List.mem_flatMap]
  constructor
  · rintro ⟨fragment, member, called⟩
    obtain ⟨code, kept, rows⟩ := exists_kept_of_fragment sound member
    rw [calls_of_rows rows] at called
    exact ⟨code, kept, called⟩
  · rintro ⟨code, kept, called⟩
    obtain ⟨fragment, member, rows⟩ := exists_fragment_of_kept sound kept
    refine ⟨fragment, member, ?_⟩
    rw [calls_of_rows rows]
    exact called

theorem fits_of_fragment (sound : draft.Sound last) {fragment : String}
    (member : fragment ∈ fragments draft) : ∃ code : Code, code.Fits last ∧ C.Rows fragment code.tokens := by
  obtain ⟨code, kept, rows⟩ := exists_kept_of_fragment sound member
  exact ⟨code, sound.kept _ kept, rows⟩

end Application

/-- Whatever texts, names and kinds the blocks of a program bring along, its fragments leave no
literal or comment open and close every bracket in its turn. -/
theorem Program.selfContained_fragments (program : Program) :
    ∀ fragment ∈ Application.fragments program.lowered.draft, C.SelfContained fragment := by
  intro fragment member
  obtain ⟨code, fits, rows⟩ := Application.fits_of_fragment program.lowered_sound member
  exact rows.selfContained fits.balanced.nested

def hostile : Program :=
  ⟨[[.mk { kind := .app } [] [("LOOP", [.mk { kind := .print } [("TEXT",
        [.mk { kind := .text, fields := [("TEXT", .text "\"); /* ' \\ \n")] } [] []])] [],
      .mk { kind := .unknown "*/ \x7d" } [] [],
      .mk { kind := .changeVariable, fields := [("VAR", .text "x; \x7b")] } [] []])]]]⟩

def hostileLoop : String :=
  "    FURI_LOG_I(\"APP\", \"Print: \\\"); /* ' \\\\ \\n\");\n" ++
    "    /* unsupported block: * / \x7d */\n    app->x += 1;\n"

theorem selfContained_hostile :
    hostileLoop ∈ Application.fragments hostile.lowered.draft ∧ C.SelfContained hostileLoop := by
  have member : hostileLoop ∈ Application.fragments hostile.lowered.draft := by decide +kernel
  exact ⟨member, hostile.selfContained_fragments hostileLoop member⟩

end FlipperBlocks
