import FlipperBlocks.Proofs.Application.BodyFragments
import FlipperBlocks.Proofs.Lowering.OrderlyCode
import FlipperBlocks.Proofs.Text.Rows

/-! The outputs that a program starts are stopped when its application is released, and no others are. -/
namespace FlipperBlocks

open C (Code Line occurrences occurrencesIn startRun)

/-! Outputs on record. -/

def Starts (output : PwmOutput) (lines : Multiset Line) : Prop :=
  ∃ line ∈ lines, 0 < occurrences (startRun output) line.tokens

theorem starts_add_iff {output : PwmOutput} {line : Line} {lines : Multiset Line} :
    Starts output ({line} + lines) ↔ 0 < occurrences (startRun output) line.tokens ∨ Starts output lines := by
  simp [Starts]

theorem starts_add_of_eq_zero {output : PwmOutput} {line : Line} {lines : Multiset Line}
    (none : occurrences (startRun output) line.tokens = 0) :
    Starts output ({line} + lines) ↔ Starts output lines := by
  rw [starts_add_iff, none]
  simp

theorem Draft.mem_usePwm {draft : Draft} {output other : PwmOutput} :
    other ∈ (draft.usePwm output).pwm ↔ other = output ∨ other ∈ draft.pwm := by
  unfold Draft.usePwm
  split
  · rename_i listed
    have member : output ∈ draft.pwm := List.contains_iff_mem.1 listed
    constructor
    · exact .inr
    · rintro (rfl | there)
      · exact member
      · exact there
  · rw [List.mem_append, List.mem_singleton, or_comm]

theorem Draft.nodup_usePwm {draft : Draft} (distinct : draft.pwm.Nodup) (output : PwmOutput) :
    (draft.usePwm output).pwm.Nodup := by
  unfold Draft.usePwm
  split
  · exact distinct
  · rename_i absent
    have apart : output ∉ draft.pwm := fun member => absent (List.contains_iff_mem.2 member)
    exact List.nodup_append.2 ⟨distinct, by simp, by
      rintro other member _ same rfl
      exact apart (List.mem_singleton.1 same ▸ member)⟩

/-- Every output is on record once just where some line starts it. -/
def outputLedger (names : List String) (known : Site → Prop) : DraftLedger names known where
  holds draft lines := draft.pwm.Nodup ∧ ∀ output, output ∈ draft.pwm ↔ Starts output lines
  quiet grown holds := by
    rw [grown.pwm]
    exact holds
  inert inert holds :=
    ⟨holds.1, fun output =>
      (holds.2 output).trans (starts_add_of_eq_zero (inert.occurrences_start output)).symm⟩
  start output first second holds := by
    refine ⟨Draft.nodup_usePwm holds.1 output, fun other => ?_⟩
    rw [Draft.mem_usePwm, holds.2, starts_add_iff, Line.occurrences_starting first second]
    by_cases same : other = output <;> simp [same]
  loop plain holds :=
    ⟨holds.1, fun output =>
      (holds.2 output).trans
        (starts_add_of_eq_zero (Line.occurrences_start_openFor plain _ output)).symm⟩
  register _ _ plain holds :=
    ⟨holds.1, fun output =>
      (holds.2 output).trans
        (starts_add_of_eq_zero (Line.occurrences_start_registering plain _ _ output)).symm⟩

namespace Application

/-! The rows of the function that releases an application. -/

def IsRow (piece : String) : Prop := ∃ text, C.OneRow text ∧ piece = row text

theorem isRow_row {text : String} (inside : C.OneRow text) : IsRow (row text) := ⟨text, inside, rfl⟩

theorem isRow_bodyRow {text : String} (inside : C.OneRow text) : IsRow (bodyRow text) :=
  ⟨"    " ++ text, C.OneRow.append (by decide) inside, rfl⟩

theorem isRow_emptyRow : IsRow emptyRow := ⟨"", by decide, by decide⟩

theorem oneRow_toString (number : Nat) : C.OneRow (toString number) :=
  fun member => absurd (isDigit_of_mem_toString member) (by decide)

theorem rows_joined {pieces : List String} (each : ∀ piece ∈ pieces, IsRow piece) :
    Text.rows ("".intercalate pieces).toList = pieces.map String.toList := by
  rw [toList_joined]
  refine Text.rows_flatMap fun piece member => ?_
  obtain ⟨text, inside, rfl⟩ := each piece member
  exact ⟨text.toList, inside, String.toList_append ..⟩

theorem bodyRow_injective : Function.Injective bodyRow := by
  intro text other same
  simpa [bodyRow, ← String.toList_inj] using same

def stopRow (output : PwmOutput) : String :=
  bodyRow ("if(furi_hal_pwm_is_running(" ++ output.channel ++ ")) furi_hal_pwm_stop(" ++
    output.channel ++ ");")

theorem bodyRow_outputRelease (output : PwmOutput) :
    bodyRow (outputRelease output).text = stopRow output := by
  cases output <;> rfl

theorem stopRow_injective : Function.Injective stopRow := by
  intro output other
  cases output <;> cases other <;> decide

def OtherRow (piece : String) : Prop := IsRow piece ∧ ∀ output, piece ≠ stopRow output

theorem otherRow_row {text : String} (inside : C.OneRow text)
    (differs : ∀ output, row text ≠ stopRow output) : OtherRow (row text) :=
  ⟨isRow_row inside, differs⟩

theorem otherRow_bodyRow {text : String} (inside : C.OneRow text)
    (differs : text.toList.take 14 ≠ "if(furi_hal_pw".toList) : OtherRow (bodyRow text) := by
  refine ⟨isRow_bodyRow inside, fun output same => differs ?_⟩
  have long : 14 ≤ "if(furi_hal_pwm_is_running(".toList.length := by decide
  rw [bodyRow_injective same, String.append_assoc, String.append_assoc, String.append_assoc,
    String.toList_append, List.take_append_of_le_length long]
  decide

theorem otherRow_emptyRow : OtherRow emptyRow := ⟨isRow_emptyRow, fun output => by cases output <;> decide⟩

theorem mem_closedParagraph {rows : List String} {piece : String} (member : piece ∈ closedParagraph rows) :
    piece ∈ rows ∨ piece = emptyRow := by
  unfold closedParagraph at member
  split at member
  · contradiction
  · simpa using member

theorem otherRow_timerRelease (number : Nat) : ∀ piece ∈ timerRelease number, OtherRow piece := by
  have numbered {start : String} (opens : C.OneRow start) :
      C.OneRow (start ++ toString number ++ ");") :=
    (opens.append (oneRow_toString number)).append (by decide)
  have differs {start : String} (long : 14 ≤ start.toList.length)
      (begins : start.toList.take 14 ≠ "if(furi_hal_pw".toList) :
      (start ++ toString number ++ ");").toList.take 14 ≠ "if(furi_hal_pw".toList := by
    rw [String.append_assoc, String.toList_append, List.take_append_of_le_length long]
    exact begins
  simp only [timerRelease, List.forall_mem_cons]
  refine ⟨otherRow_bodyRow (numbered (by decide)) (differs (by decide) (by decide)),
    otherRow_bodyRow (numbered (by decide)) (differs (by decide) (by decide)), by simp⟩

def releaseStart (draft : Draft) : List String :=
  [row "static void app_free(App* app) \x7b", bodyRow "furi_assert(app);", emptyRow] ++
    closedParagraph ((timerNumbers draft).flatMap timerRelease)

def releaseEnd (draft : Draft) : List String :=
  [bodyRow "view_dispatcher_remove_view(app->view_dispatcher, MyViewWidget);",
    bodyRow "widget_free(app->widget);",
    bodyRow "view_dispatcher_free(app->view_dispatcher);",
    emptyRow,
    bodyRow "furi_record_close(RECORD_GUI);"] ++
  (if draft.features.has .notifications then
    [bodyRow "furi_record_close(RECORD_NOTIFICATION);"] else []) ++
  (if draft.features.hasAny Feature.powered then
    [bodyRow "if(furi_hal_power_is_otg_enabled()) furi_hal_power_disable_otg();"] else []) ++
  [emptyRow, bodyRow "free(app);", row "\x7d", emptyRow]

theorem releasePieces_eq (draft : Draft) : releasePieces draft =
    releaseStart draft ++ closedParagraph (draft.pwm.map stopRow) ++ releaseEnd draft := by
  have stopped : (draft.pwm.map fun output => bodyRow (outputRelease output).text) =
      draft.pwm.map stopRow :=
    List.map_congr_left fun output _ => bodyRow_outputRelease output
  rw [releasePieces, stopped]
  simp [function, releaseStart, releaseEnd]

theorem otherRow_releaseStart (draft : Draft) : ∀ piece ∈ releaseStart draft, OtherRow piece := by
  rw [releaseStart, List.forall_mem_append]
  constructor
  · simp only [List.forall_mem_cons]
    exact ⟨otherRow_row (by decide) fun output => by cases output <;> decide,
      otherRow_bodyRow (by decide) (by decide), otherRow_emptyRow, by simp⟩
  · intro piece member
    rcases mem_closedParagraph member with timers | rfl
    · obtain ⟨number, _, there⟩ := List.mem_flatMap.1 timers
      exact otherRow_timerRelease number piece there
    · exact otherRow_emptyRow

theorem otherRow_releaseEnd (draft : Draft) : ∀ piece ∈ releaseEnd draft, OtherRow piece := by
  have optional {text : String} (here : OtherRow (bodyRow text)) (condition : Bool) :
      ∀ piece ∈ if condition then [bodyRow text] else [], OtherRow piece := by
    cases condition <;> simp [here]
  simp only [releaseEnd, List.forall_mem_append, List.forall_mem_cons]
  refine ⟨⟨⟨⟨?_, ?_, ?_, otherRow_emptyRow, ?_, by simp⟩,
    optional (otherRow_bodyRow (by decide) (by decide)) _⟩,
    optional (otherRow_bodyRow (by decide) (by decide)) _⟩,
    otherRow_emptyRow, ?_, otherRow_row (by decide) fun output => by cases output <;> decide,
    otherRow_emptyRow, by simp⟩
  all_goals exact otherRow_bodyRow (by decide) (by decide)

theorem isRow_releasePieces (draft : Draft) : ∀ piece ∈ releasePieces draft, IsRow piece := by
  rw [releasePieces_eq, List.forall_mem_append, List.forall_mem_append]
  refine ⟨⟨fun piece member => (otherRow_releaseStart draft piece member).1, ?_⟩,
    fun piece member => (otherRow_releaseEnd draft piece member).1⟩
  intro piece member
  rcases mem_closedParagraph member with stops | rfl
  · obtain ⟨output, _, rfl⟩ := List.mem_map.1 stops
    exact isRow_bodyRow (by cases output <;> decide)
  · exact isRow_emptyRow

theorem count_stopRow (draft : Draft) (output : PwmOutput) :
    (releasePieces draft).count (stopRow output) = draft.pwm.count output := by
  have before : (releaseStart draft).count (stopRow output) = 0 :=
    List.count_eq_zero.2 fun member => (otherRow_releaseStart draft _ member).2 output rfl
  have after : (releaseEnd draft).count (stopRow output) = 0 :=
    List.count_eq_zero.2 fun member => (otherRow_releaseEnd draft _ member).2 output rfl
  have closed (rows : List String) :
      (closedParagraph rows).count (stopRow output) = rows.count (stopRow output) := by
    have blank : stopRow output ≠ emptyRow := (otherRow_emptyRow.2 output).symm
    cases rows with
    | nil => rfl
    | cons first rest =>
      change ((first :: rest) ++ [emptyRow]).count (stopRow output) = _
      have none : [emptyRow].count (stopRow output) = 0 := List.count_eq_zero.2 (by simpa using blank)
      rw [List.count_append, none, Nat.add_zero]
  rw [releasePieces_eq, List.count_append, List.count_append, before, after, closed,
    List.count_map_of_injective _ _ stopRow_injective]
  omega

end Application

open Application

theorem Program.starts_iff_fragment (program : Program) (output : PwmOutput) :
    Starts output program.lowered.draft.lines ↔ ∃ fragment ∈ fragments program.lowered.draft,
      0 < occurrencesIn ("furi_hal_pwm_start(" ++ output.channel ++ ",") fragment := by
  have sound := program.lowered_sound
  have read {fragment : String} {code : Code} (rows : C.Rows fragment code.tokens) :
      occurrencesIn ("furi_hal_pwm_start(" ++ output.channel ++ ",") fragment =
        occurrences (startRun output) code.tokens := by
    rw [occurrencesIn, C.tokens_start, tokens_of_rows rows]
  have within : ∀ last ∈ C.lineEnds, last ∉ (startRun output).dropLast := by cases output <;> decide
  constructor
  · rintro ⟨line, member, starts⟩
    obtain ⟨code, among, there⟩ := Draft.mem_lines.1 member
    have kept := program.lowered.draft.mem_kept_of_codes among
    obtain ⟨fragment, shown, rows⟩ := exists_fragment_of_kept sound kept
    refine ⟨fragment, shown, ?_⟩
    rw [read rows, Code.occurrences_tokens_pos within (sound.kept code kept).spelled]
    exact ⟨line, there, starts⟩
  · rintro ⟨fragment, shown, starts⟩
    obtain ⟨code, kept, rows⟩ := exists_kept_of_fragment sound shown
    rw [read rows, Code.occurrences_tokens_pos within (sound.kept code kept).spelled] at starts
    obtain ⟨line, there, starts⟩ := starts
    have active : ¬ line.Inert program.variableNames := fun inert =>
      absurd (inert.occurrences_start output) (Nat.ne_of_gt starts)
    -- What is done at the start and before drawing starts nothing.
    rcases List.mem_append.1 kept with setups | kept
    · obtain ⟨setup, _, rfl⟩ := List.mem_map.1 setups
      rw [Code.lines_line, Multiset.mem_singleton] at there
      exact absurd (there ▸ Line.inert_setup setup) active
    rcases List.mem_append.1 kept with hoisted | among
    · obtain ⟨other, member, rfl⟩ := List.mem_map.1 hoisted
      rw [Code.lines_line, Multiset.mem_singleton] at there
      exact absurd (there ▸ (program.orderly_lowered.beforeDraw other member).toInert) active
    · exact ⟨line, Draft.mem_lines.2 ⟨code, among, there⟩, starts⟩

end FlipperBlocks
