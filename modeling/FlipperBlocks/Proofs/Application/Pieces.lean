import FlipperBlocks.Proofs.Application.Allocation
import FlipperBlocks.Proofs.C.Links
import FlipperBlocks.Proofs.C.OneRow
import FlipperBlocks.Proofs.Text.Rows

/-! The pieces of an application's text.

Every piece of the program, whether it is the same in all applications or comes from blocks, is made of
whole rows, none of which starts with a dash, and reaches only what the application's structure has. -/
namespace FlipperBlocks.Application

open C (Code Expr Line)

structure Tidy (draft : Draft) (text : String) : Prop where
  rows : ∃ found, C.Rows text found ∧
    C.Linked (fun field => String.ofList field ∈ draft.members) found
  noDash : Text.noDash true text.toList = true

def Placed (draft : Draft) (atom : C.Atom) : Prop :=
  atom.Spelled ∧ ∀ field, atom = .member "app" field → field ∈ draft.members

variable {draft : Draft}

theorem placed_of_allowed {atom : C.Atom} (allowed : Allowed draft atom) : Placed draft atom := by
  refine ⟨allowed.spelled, ?_⟩
  rintro field rfl
  exact allowed.2.2 rfl

theorem placed_call {function : String} (named : C.Identifier.isIdentifier function = true) :
    Placed draft (.call function) := ⟨named, nofun⟩

theorem placed_name {text : String} (named : C.Identifier.isIdentifier text = true) :
    Placed draft (.name text) := ⟨named, nofun⟩

theorem placed_number {digits : String} (numeral : C.isNumeral digits.toList = true) :
    Placed draft (.number digits) := ⟨numeral, nofun⟩

theorem placed_member {field : String} (named : C.Identifier.isIdentifier field = true)
    (member : field ∈ draft.members) : Placed draft (.member "app" field) := by
  refine ⟨⟨by decide, named⟩, ?_⟩
  rintro _ same
  injection same with _ same
  exact same ▸ member

namespace Tidy

theorem linked {found : List C.Token} (linked : C.Linked (C.Atom.reachable (Placed draft)) found) :
    C.Linked (fun field => String.ofList field ∈ draft.members) found :=
  linked.imp fun _ placed => placed.2 _ rfl

theorem code {code : Code} (fits : code.Fits draft) : Tidy draft (bodyOf code) where
  rows := ⟨_, (Code.rows fits.spelled).indent,
    linked (Code.linked_tokens (fits.holds.imp fun _ => placed_of_allowed))⟩
  noDash := (Text.undashed_indent _).noDash

theorem indent {text : String} (tidy : Tidy draft text) : Tidy draft (Text.indent text) where
  rows := by
    obtain ⟨found, rows, linked⟩ := tidy.rows
    exact ⟨found, rows.indent, linked⟩
  noDash := (Text.undashed_indent _).noDash

theorem noDash_bodyRow {text : String} (oneRow : C.OneRow text) :
    Text.noDash true (bodyRow text).toList = true := by
  have letters : (bodyRow text).toList = ' ' :: ([' ', ' ', ' '] ++ text.toList ++ ['\n']) := by
    simp [bodyRow]
  rw [letters]
  exact Text.noDash_row (by decide) (by simpa [C.OneRow] using oneRow)

theorem line {line : Line} (holds : line.Holds (Placed draft)) (oneRow : C.OneRow line.text) :
    Tidy draft (bodyRow line.text) where
  rows := by
    have spelled := Line.Holds.imp (fun _ placed => placed.1) holds
    exact ⟨_, rows_bodyRow (Code.holds_line.2 spelled), by
      rw [Code.tokens_line]
      exact linked (Line.linked_tokens holds)⟩
  noDash := noDash_bodyRow oneRow

theorem run {action : Expr} (holds : action.Holds (Placed draft)) :
    Tidy draft (bodyRow (Line.run action).text) := by
  have spelled := Expr.Holds.imp (fun _ placed => placed.1) action holds
  exact line holds ((Expr.oneRow_code action spelled).append (by decide))

theorem guarded {test action : Expr} (first : test.Holds (Placed draft))
    (second : action.Holds (Placed draft)) : Tidy draft (bodyRow (Line.guarded test action).text) := by
  have oneRow (e : Expr) (holds : e.Holds (Placed draft)) : C.OneRow e.code :=
    Expr.oneRow_code e (Expr.Holds.imp (fun _ placed => placed.1) e holds)
  exact line ⟨first, second⟩ ((((C.OneRow.append (by decide) (oneRow test first)).append
    (by decide)).append (oneRow action second)).append (by decide))

theorem plain {text : String} (plain : C.Plain text) : Tidy draft (row text) where
  rows := by
    obtain ⟨found, rows, noArrow⟩ := plain.rows
    exact ⟨found, rows, .of_not_mem noArrow⟩
  noDash := by
    refine Text.noDash_of_not_mem fun dash => ?_
    rw [row, String.toList_append, List.mem_append] at dash
    rcases dash with inside | last
    · exact absurd (plain _ inside) (by decide)
    · exact absurd last (by decide)

end Tidy

/-! Rows that are the same in every application that has them. -/

def isTidy (names : List (List Char)) (cs : List Char) : Bool :=
  match C.Scan.run .code cs with
  | (found, mode) => mode == .code && cs.getLast? == some '\n' &&
    C.isLinked (fun field => names.contains field) found && Text.noDash true cs

variable {names : List (List Char)} {text : String} {pieces rows : List String} {number : Nat}

theorem tidy_of_isTidy (members : Letters ["view_dispatcher", "widget"] names)
    (check : isTidy names text.toList = true) : Tidy draft text := by
  unfold isTidy at check
  split at check
  rename_i found mode scanned
  simp only [Bool.and_eq_true, beq_iff_eq] at check
  obtain ⟨⟨⟨ends, last⟩, linked⟩, noDash⟩ := check
  refine ⟨⟨found, ⟨ends ▸ scanned, .inr last⟩, ?_⟩, noDash⟩
  refine (C.linked_of_isLinked linked).imp fun field reached => ?_
  rw [List.contains_iff_mem, ← members.toList_eq] at reached
  obtain ⟨name, listed, rfl⟩ := List.mem_map.1 reached
  rw [String.ofList_toList]
  rcases List.mem_pair.1 listed with rfl | rfl
  · exact draft.view_dispatcher_mem_members
  · exact draft.widget_mem_members

theorem tidy_of_letters {css : List (List Char)} {texts : List String}
    (members : Letters ["view_dispatcher", "widget"] names) (letters : Letters texts css)
    (checked : css.all (isTidy names) = true) : ∀ text ∈ texts, Tidy draft text := by
  intro text member
  refine tidy_of_isTidy members (List.all_eq_true.1 checked _ ?_)
  rw [← letters.toList_eq]
  exact List.mem_map_of_mem member

theorem tidy_of_scanned {csss : List (List (List Char))}
    (members : Letters ["view_dispatcher", "widget"] names) (scanned : Scanned routines csss)
    (checked : csss.all (fun css => css.all fun cs => isTidy names (cs ++ ['\n'])) = true) :
    ∀ routine ∈ routines, ∀ text ∈ routine.rows, Tidy draft (text ++ "\n") := by
  intro routine member text among
  obtain ⟨css, listed, letters⟩ := scanned.exists_letters member
  have row : text.toList ∈ css := by
    rw [← letters.toList_eq]
    exact List.mem_map_of_mem among
  refine tidy_of_isTidy members ?_
  rw [String.toList_append]
  exact List.all_eq_true.1 (List.all_eq_true.1 checked css listed) _ row

theorem tidy_headers : ∀ piece ∈ headers.map (fun header => "#include <" ++ header.name ++ ">\n"),
    Tidy draft piece := by
  apply tidy_of_letters
  · repeat constructor
  · repeat (first | apply Spells.append | constructor)
  · decide +kernel

theorem tidy_routines : ∀ routine ∈ routines, ∀ text ∈ routine.rows, Tidy draft (text ++ "\n") := by
  apply tidy_of_scanned
  · repeat constructor
  · repeat constructor
  · decide +kernel

def commonPieces : List String :=
  [emptyRow, row "\x7d", row "// Storage helpers",
    row "// Global storage generated from blocks",
    row "typedef struct \x7b", bodyRow "ViewDispatcher* view_dispatcher;", bodyRow "Widget* widget;",
    bodyRow "NotificationApp* notif;", row "\x7d App;",
    row "static void update_render(App* app) \x7b", bodyRow "furi_assert(app);",
    bodyRow "widget_reset(app->widget);", bodyRow drawPlaceholder,
    row "static bool app_input_callback(InputEvent* event, void* context) \x7b",
    bodyRow "UNUSED(app);", bodyRow "(void)event;", bodyRow "bool consumed = false;",
    bodyRow "return consumed;", bodyRow "UNUSED(result);",
    bodyRow "if(type == InputTypeShort) \x7b", bodyRow "\x7d",
    row "static App* app_alloc(void) \x7b", bodyRow "App* app = malloc(sizeof(App));",
    bodyRow "Gui* gui = furi_record_open(RECORD_GUI);", bodyRow "power_ensure_5v();",
    bodyRow "return app;",
    row "static void app_free(App* app) \x7b",
    bodyRow "view_dispatcher_remove_view(app->view_dispatcher, MyViewWidget);",
    bodyRow "widget_free(app->widget);", bodyRow "view_dispatcher_free(app->view_dispatcher);",
    bodyRow "furi_record_close(RECORD_GUI);", bodyRow "furi_record_close(RECORD_NOTIFICATION);",
    bodyRow "if(furi_hal_power_is_otg_enabled()) furi_hal_power_disable_otg();",
    bodyRow "free(app);",
    row ("int32_t " ++ Manifest.entryPoint ++ "(void* p) \x7b"), bodyRow "UNUSED(p);",
    bodyRow "App* app = app_alloc();", bodyRow "view_dispatcher_run(app->view_dispatcher);",
    bodyRow "app_free(app);", bodyRow "return 0;"] ++
  (typePieces ++ contextRows ++ customEventPieces ++ navigationPieces ++ viewPieces)

theorem tidy_common : ∀ piece ∈ commonPieces, Tidy draft piece := by
  apply tidy_of_letters
  · repeat constructor
  · repeat (first | apply Spells.append | constructor)
  · decide +kernel

theorem tidy_among (among : ∀ piece ∈ pieces, piece ∈ commonPieces) :
    ∀ piece ∈ pieces, Tidy draft piece := fun piece member => tidy_common piece (among piece member)

theorem tidy_emptyRow : Tidy draft emptyRow := tidy_common _ (by simp [commonPieces])

theorem tidy_nothing : ∀ piece ∈ ([] : List String), Tidy draft piece := nofun

theorem tidy_paragraph (each : ∀ piece ∈ rows, Tidy draft piece) :
    ∀ piece ∈ paragraph rows, Tidy draft piece := by
  unfold paragraph
  split
  · exact tidy_nothing
  · exact List.forall_mem_cons.2 ⟨tidy_emptyRow, each⟩

theorem tidy_closedParagraph (each : ∀ piece ∈ rows, Tidy draft piece) :
    ∀ piece ∈ closedParagraph rows, Tidy draft piece := by
  unfold closedParagraph
  split
  · exact tidy_nothing
  · rw [List.forall_mem_append]
    exact ⟨each, List.forall_mem_singleton.2 tidy_emptyRow⟩

theorem tidy_function {opening : String} {body : List String}
    (heading : Tidy draft (row (opening ++ " \x7b"))) (each : ∀ piece ∈ body, Tidy draft piece) :
    ∀ piece ∈ function opening body, Tidy draft piece := by
  unfold function
  simp only [List.forall_mem_append]
  exact ⟨⟨List.forall_mem_singleton.2 heading, each⟩, tidy_among (by simp [commonPieces])⟩

/-! Rows with a number or a name in them. -/

theorem plain_hexByte (byte : UInt8) : C.Plain (hexByte byte) := by
  have digit : ∀ n < 16, C.isPlain (C.hexDigit n).toUpper = true := by decide
  have high : byte.toNat / 16 < 16 := by
    have := byte.toNat_lt
    omega
  have low : byte.toNat % 16 < 16 := Nat.mod_lt _ (by decide)
  unfold C.Plain hexByte
  rw [String.toList_ofList]
  simp only [List.forall_mem_cons]
  exact ⟨by decide, by decide, digit _ high, digit _ low, nofun⟩

theorem plain_declaration {storage : Storage}
    (named : C.Identifier.isIdentifier storage.name = true) : C.Plain storage.declaration := by
  have after {type : String} (plain : C.Plain type) : C.Plain (type ++ storage.name) :=
    plain.append (.identifier named)
  have array {type : String} (plain : C.Plain type) (size : Nat) :
      C.Plain (type ++ storage.name ++ "[" ++ toString size) :=
    ((after plain).append (by decide)).append (.natural size)
  unfold Storage.declaration
  dsimp only
  split
  iterate 4 · exact (after (by decide)).append (by decide)
  · exact (array (by decide) _).append (by decide)
  · exact (array (by decide) _).append (by decide)
  · rename_i initial _
    have bytes : ∀ text ∈ initial.map hexByte, C.Plain text := by
      exact List.forall_mem_map.2 fun byte _ => plain_hexByte byte
    exact (((array (by decide) _).append (by decide)).append
      (.intercalate (by decide) bytes)).append (by decide)

theorem plain_timerHeading (number : Nat) : C.Plain (timerHeading number) :=
  (C.Plain.append (by decide) (.natural number)).append (by decide)

theorem plain_buttonHeading (number : Nat) : C.Plain (buttonHeading number) :=
  (C.Plain.append (by decide) (.natural number)).append (by decide)

theorem timer_mem_members (small : number < draft.timers.length) :
    "timer_" ++ toString number ∈ draft.members := by
  simp only [Draft.members, List.mem_append]
  exact .inl (.inr (List.mem_map.2 ⟨number, List.mem_range.2 small, rfl⟩))

theorem placed_timer (small : number < draft.timers.length) :
    Placed draft (.member "app" ("timer_" ++ toString number)) :=
  placed_member (isIdentifier_numberedName (by decide) number) (timer_mem_members small)

theorem tidy_timerAllocation (small : number < draft.timers.length) :
    Tidy draft (timerAllocation number) := by
  rw [timerAllocation_eq]
  refine .run ⟨placed_timer small, placed_call (by decide), placed_name ?_, placed_name (by decide),
    placed_name (by decide), trivial⟩
  exact isIdentifier_numberedName (by decide) number

theorem tidy_timerStart (small : number < draft.timers.length) (timer : Timer) :
    ∀ piece ∈ timerStart draft number timer, Tidy draft piece := by
  rw [timerStart_eq]
  refine List.forall_mem_singleton.2 (.run ⟨placed_call (by decide), placed_timer small, ?_, trivial⟩)
  exact ⟨placed_call (by decide), placed_number (C.isNumeral_toString _), trivial⟩

theorem tidy_timerRelease (small : number < draft.timers.length) :
    ∀ piece ∈ timerRelease number, Tidy draft piece := by
  have release (function : String) (named : C.Identifier.isIdentifier function = true) :
      Tidy draft (bodyRow (function ++ "(app->timer_" ++ toString number ++ ");")) := by
    have tidy : Tidy draft (bodyRow (Line.run (.call function
        [.member "app" ("timer_" ++ toString number)])).text) :=
      .run ⟨placed_call named, placed_timer small, trivial⟩
    have text : (Line.run (.call function [.member "app" ("timer_" ++ toString number)])).text =
        function ++ "(app->timer_" ++ toString number ++ ");" := by
      change function ++ "(" ++ ("app" ++ "->" ++ ("timer_" ++ toString number)) ++ ")" ++ ";" = _
      simp [← String.toList_inj]
    rwa [text] at tidy
  exact List.forall_mem_cons.2 ⟨release "furi_timer_stop" (by decide),
    List.forall_mem_singleton.2 (release "furi_timer_free" (by decide))⟩

/-! The parts of the text. -/

theorem tidy_routinePieces : ∀ piece ∈ routinePieces draft.features, Tidy draft piece := by
  unfold routinePieces
  simp only [List.forall_mem_append]
  refine ⟨?_, ?_⟩
  · split
    · exact tidy_among (by simp [commonPieces, row])
    · exact tidy_nothing
  · intro piece member
    obtain ⟨routine, wanted, there⟩ := List.mem_flatMap.1 member
    rcases List.mem_append.1 there with among | last
    · obtain ⟨text, listed, rfl⟩ := List.mem_map.1 among
      exact tidy_routines routine (List.mem_filter.1 wanted).1 text listed
    · exact List.mem_singleton.1 last ▸ tidy_emptyRow

theorem tidy_headerPieces : ∀ piece ∈ headerPieces draft.features, Tidy draft piece := by
  exact List.forall_mem_map.2 fun _ wanted => tidy_headers _ (List.mem_map_of_mem (List.mem_filter.1 wanted).1)

theorem tidy_globalPieces (sound : draft.Sound draft) :
    ∀ piece ∈ globalPieces draft, Tidy draft piece := by
  unfold globalPieces
  split
  · exact tidy_nothing
  · rename_i globals storage
    simp only [List.forall_mem_append]
    refine ⟨⟨tidy_among (by simp [commonPieces]), ?_⟩, List.forall_mem_singleton.2 tidy_emptyRow⟩
    exact List.forall_mem_map.2 fun storage among =>
      .plain (plain_declaration (sound.storage storage (List.mem_filter.1 among).1))

theorem tidy_structurePieces (sound : draft.Sound draft) :
    ∀ piece ∈ structurePieces draft, Tidy draft piece := by
  unfold structurePieces
  simp only [List.forall_mem_append]
  refine ⟨⟨⟨⟨tidy_among (by simp [commonPieces]), ?_⟩, ?_⟩, ?_⟩, tidy_among (by simp [commonPieces])⟩
  · split
    · exact tidy_among (by simp [commonPieces])
    · exact tidy_nothing
  · intro piece member
    obtain ⟨number, _, rfl⟩ := List.mem_map.1 member
    have plain : C.Plain ("    " ++ ("FuriTimer* timer_" ++ toString number ++ ";")) :=
      .append (by decide) ((C.Plain.append (by decide) (.natural number)).append (by decide))
    exact .plain plain
  · intro piece member
    obtain ⟨storage, among, rfl⟩ := List.mem_map.1 member
    have plain := plain_declaration (sound.storage storage (List.mem_filter.1 among).1)
    exact .plain (C.Plain.append (by decide) plain)

theorem tidy_announcementPieces : ∀ piece ∈ announcementPieces draft, Tidy draft piece := by
  unfold announcementPieces
  split
  · exact tidy_nothing
  · simp only [List.forall_mem_append]
    refine ⟨⟨?_, ?_⟩, List.forall_mem_singleton.2 tidy_emptyRow⟩
    · exact List.forall_mem_map.2 fun number _ => .plain ((plain_timerHeading number).append (by decide))
    · exact List.forall_mem_map.2 fun number _ => .plain ((plain_buttonHeading number).append (by decide))

theorem tidy_drawPieces (sound : draft.Sound draft) :
    ∀ piece ∈ drawPieces draft, Tidy draft piece := by
  refine tidy_function (tidy_common _ (by simp [commonPieces])) ?_
  simp only [List.forall_mem_append]
  refine ⟨⟨tidy_among (by simp [commonPieces]), ?_⟩, List.forall_mem_singleton.2 ?_⟩
  · intro piece member
    obtain ⟨line, among, rfl⟩ := List.mem_map.1 member
    obtain ⟨read, rfl, holds⟩ := sound.beforeDraw line among
    exact .run (holds.imp fun _ => placed_of_allowed)
  · split
    · exact tidy_common _ (by simp [commonPieces])
    · exact .code sound.draw

theorem tidy_contextRows : ∀ piece ∈ contextRows, Tidy draft piece :=
  tidy_among fun piece member => by simp [commonPieces, member]

theorem tidy_inputPieces (sound : draft.Sound draft) :
    ∀ piece ∈ inputPieces draft, Tidy draft piece := by
  refine tidy_function (tidy_common _ (by simp [commonPieces])) ?_
  simp only [List.forall_mem_append, List.forall_mem_cons]
  refine ⟨tidy_contextRows, ?_, ?_, ?_, .code sound.input, ?_, tidy_nothing⟩ <;>
    exact tidy_common _ (by simp [commonPieces])

theorem tidy_callbackPieces (sound : draft.Sound draft) :
    ∀ piece ∈ callbackPieces draft, Tidy draft piece := by
  unfold callbackPieces
  simp only [List.forall_mem_append]
  refine ⟨?_, ?_⟩
  · intro piece member
    obtain ⟨number, _, timer, among, there⟩ := mem_eachNumbered member
    refine tidy_function (.plain ((plain_timerHeading _).append (by decide))) ?_ piece there
    simp only [List.forall_mem_append, List.forall_mem_cons]
    exact ⟨tidy_contextRows, tidy_common _ (by simp [commonPieces]),
      .code (sound.timers timer among), tidy_nothing⟩
  · intro piece member
    obtain ⟨number, _, body, among, there⟩ := mem_eachNumbered member
    refine tidy_function (.plain ((plain_buttonHeading _).append (by decide))) ?_ piece there
    simp only [List.forall_mem_append, List.forall_mem_cons]
    have inside := (Tidy.code (sound.buttons body among)).indent
    refine ⟨tidy_contextRows, ?_, ?_, ?_, inside, ?_, tidy_nothing⟩ <;>
      exact tidy_common _ (by simp [commonPieces])

theorem tidy_timerRows : ∀ piece ∈ timerRows draft, Tidy draft piece := by
  unfold timerRows
  split
  · exact tidy_nothing
  · simp only [List.forall_mem_append]
    refine ⟨⟨?_, ?_⟩, ?_⟩
    · exact List.forall_mem_map.2 fun _ small => tidy_timerAllocation (List.mem_range.1 small)
    · split
      · have plain : C.Plain ("    " ++ ("furi_delay_ms(" ++ toString climateWarmUp ++ ");")) :=
          .append (by decide) ((C.Plain.append (by decide) (.natural _)).append (by decide))
        exact List.forall_mem_singleton.2 (.plain plain)
      · exact tidy_nothing
    · intro piece member
      obtain ⟨index, small, timer, _, there⟩ := mem_eachNumbered member
      rw [Nat.zero_add] at there
      exact tidy_timerStart small timer piece there

theorem tidy_reset {storage : Storage} (fits : storage.Fits draft) {line : Line}
    (reset : storage.reset? = some line) : Tidy draft (bodyRow line.text) := by
  unfold Storage.reset? at reset
  split at reset
  · injection reset with reset
    subst reset
    have place := Expr.Holds.imp (fun _ => placed_of_allowed) _ (Lowering.holds_place fits)
    exact .run ⟨place, placed_number (by decide)⟩
  · contradiction

theorem tidy_notification (has : draft.features.has .notifications = true) :
    Tidy draft (bodyRow "app->notif = furi_record_open(RECORD_NOTIFICATION);") := by
  have tidy : Tidy draft (bodyRow (Line.run (.assign .set (.member "app" "notif")
      (.call "furi_record_open" [.name "RECORD_NOTIFICATION"]))).text) :=
    .run ⟨placed_member (by decide) (draft.notif_mem_members has), placed_call (by decide),
      placed_name (by decide), trivial⟩
  exact tidy

theorem tidy_allocationPieces (sound : draft.Sound draft) :
    ∀ piece ∈ allocationPieces draft, Tidy draft piece := by
  refine tidy_function (tidy_common _ (by simp [commonPieces])) ?_
  simp only [List.forall_mem_append]
  refine ⟨⟨⟨⟨⟨⟨⟨⟨tidy_among (by simp [commonPieces]), ?notifications⟩,
    tidy_among fun _ member => List.mem_append_right _ (List.mem_append_right _ member)⟩,
      tidy_paragraph ?resets⟩, ?power⟩, tidy_paragraph ?setups⟩, ?code⟩,
        tidy_paragraph tidy_timerRows⟩, tidy_among (by simp [commonPieces])⟩
  case notifications =>
    split
    · rename_i has
      exact List.forall_mem_singleton.2 (tidy_notification has)
    · exact tidy_nothing
  case resets =>
    intro piece member
    obtain ⟨storage, declared, reset⟩ := List.mem_filterMap.1 member
    obtain ⟨line, found, rfl⟩ := Option.map_eq_some_iff.1 reset
    exact tidy_reset ⟨sound.storage storage declared, declared⟩ found
  case power =>
    split
    · exact tidy_among (by simp [commonPieces])
    · exact tidy_nothing
  case setups =>
    intro piece member
    obtain ⟨setup, _, rfl⟩ := List.mem_map.1 member
    have holds := Code.holds_line.1 (setup.fits draft).holds
    exact .run (Line.Holds.imp (fun _ => placed_of_allowed) holds)
  case code =>
    split
    · exact tidy_nothing
    · exact List.forall_mem_cons.2 ⟨tidy_emptyRow, List.forall_mem_singleton.2 (.code sound.setup)⟩

theorem tidy_outputRelease (output : PwmOutput) :
    Tidy draft (bodyRow (outputRelease output).text) := by
  have channel : Placed draft (.name output.channel) := placed_name (by cases output <;> decide)
  exact .guarded ⟨placed_call (by decide), channel, trivial⟩ ⟨placed_call (by decide), channel, trivial⟩

theorem tidy_releasePieces : ∀ piece ∈ releasePieces draft, Tidy draft piece := by
  refine tidy_function (tidy_common _ (by simp [commonPieces])) ?_
  simp only [List.forall_mem_append]
  refine ⟨⟨⟨⟨⟨⟨tidy_among (by simp [commonPieces]), tidy_closedParagraph ?timers⟩,
    tidy_closedParagraph ?outputs⟩, tidy_among (by simp [commonPieces])⟩, ?notifications⟩, ?power⟩,
      tidy_among (by simp [commonPieces])⟩
  case timers =>
    intro piece member
    obtain ⟨number, small, there⟩ := List.mem_flatMap.1 member
    exact tidy_timerRelease (List.mem_range.1 small) piece there
  case outputs => exact List.forall_mem_map.2 fun output _ => tidy_outputRelease output
  case notifications =>
    split
    · exact tidy_among (by simp [commonPieces])
    · exact tidy_nothing
  case power =>
    split
    · exact tidy_among (by simp [commonPieces])
    · exact tidy_nothing

theorem tidy_mainPieces (sound : draft.Sound draft) :
    ∀ piece ∈ mainPieces draft, Tidy draft piece := by
  have redraw : Tidy draft (bodyRow (Line.run Lowering.redraw).text) :=
    .run ⟨placed_call (by decide), placed_member (by decide) draft.view_dispatcher_mem_members,
      placed_name (by decide), trivial⟩
  unfold mainPieces
  simp only [List.forall_mem_append, List.forall_mem_cons]
  refine ⟨⟨⟨?_, ?_, ?_, tidy_emptyRow, redraw, ?_, tidy_nothing⟩, ?loop⟩, tidy_emptyRow, ?_, ?_, ?_,
    tidy_nothing⟩
  case loop =>
    split
    · exact tidy_nothing
    · exact List.forall_mem_cons.2 ⟨tidy_emptyRow, List.forall_mem_singleton.2 (.code sound.loop)⟩
  all_goals exact tidy_common _ (by simp [commonPieces])

theorem tidy_sourcePieces (sound : draft.Sound draft) : ∀ piece ∈ sourcePieces draft, Tidy draft piece := by
  unfold sourcePieces
  simp only [List.forall_mem_append]
  refine ⟨⟨⟨⟨⟨⟨⟨⟨⟨⟨⟨⟨⟨⟨tidy_headerPieces, List.forall_mem_singleton.2 tidy_emptyRow⟩, ?types⟩,
    tidy_routinePieces⟩, tidy_globalPieces sound⟩, tidy_structurePieces sound⟩,
      tidy_announcementPieces⟩, tidy_drawPieces sound⟩, ?events⟩, tidy_inputPieces sound⟩,
        ?navigation⟩, tidy_callbackPieces sound⟩, tidy_allocationPieces sound⟩, tidy_releasePieces⟩,
          tidy_mainPieces sound⟩
  all_goals
    refine tidy_among fun piece member => List.mem_append_right _ ?_
    simp only [List.mem_append, member, true_or, or_true]

theorem Tidy.joined (each : ∀ piece ∈ pieces, Tidy draft piece) : Tidy draft ("".intercalate pieces) := by
  induction pieces with
  | nil => exact ⟨⟨[], .nil, .nil⟩, rfl⟩
  | cons piece rest ih =>
    obtain ⟨here, later⟩ := List.forall_mem_cons.1 each
    obtain ⟨⟨first, rows, linked⟩, noDash⟩ := here
    obtain ⟨⟨second, rowsOn, linkedOn⟩, noDashOn⟩ := ih later
    rw [joined_cons]
    refine ⟨⟨first ++ second, rows.append rowsOn, linked.append linkedOn⟩, ?_⟩
    rw [String.toList_append, Text.noDash_append rows.ended, noDash, noDashOn]
    rfl

def source (draft : Draft) : String := "".intercalate (sourcePieces draft)

theorem tidy_source (sound : draft.Sound draft) : Tidy draft (source draft) :=
  .joined (tidy_sourcePieces sound)

theorem Tidy.undashed (tidy : Tidy draft text) : Text.Undashed text.toList := by
  obtain ⟨_, rows, _⟩ := tidy.rows
  exact ⟨rows.ended, tidy.noDash⟩

end FlipperBlocks.Application
