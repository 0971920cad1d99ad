import FlipperBlocks.Proofs.Application.Declarations

/-! The functions that an application's text defines.

A function is opened by a piece of text at the left margin, which names it before a parenthesis. Read
back from the text, these are the routines that its features want and the functions that carry the
blocks' code. -/
namespace FlipperBlocks

namespace Application

open C (Token Closes)

/-- The function that characters at the start of a row open: its name stands before a parenthesis, and
the row does not end as a declaration does. -/
def headingIn (cs : List Char) : Option String :=
  if cs.head?.all Text.isBlank || [';', '\n'].isSuffixOf cs then none
  else
    match C.Scan.run .code cs with
    | (found, mode) => (definitionsIn 0 (found ++ C.Scan.pending mode)).head?

def heading? (piece : String) : Option String := headingIn piece.toList

def functionNames (draft : Draft) : List String := (sourcePieces draft).filterMap heading?

/-! Pieces that open no function. -/

/-- A piece that starts with a blank, if it is not empty. -/
def Inset (piece : String) : Prop := piece.toList.head?.all Text.isBlank = true

instance (piece : String) : Decidable (Inset piece) := inferInstanceAs (Decidable (_ = true))

theorem Inset.heading? {piece : String} (inset : Inset piece) : heading? piece = none := by
  unfold Application.heading? headingIn
  rw [show piece.toList.head?.all Text.isBlank = true from inset, Bool.true_or, if_pos rfl]

@[simp] theorem inset_bodyRow (text : String) : Inset (bodyRow text) := by
  have letters : (bodyRow text).toList = ' ' :: ([' ', ' ', ' '] ++ text.toList ++ ['\n']) := by
    simp [bodyRow]
  unfold Inset
  rw [letters]
  rfl

@[simp] theorem inset_emptyRow : Inset emptyRow := by
  unfold Inset
  decide

@[simp] theorem inset_indent (text : String) : Inset (Text.indent text) := by
  unfold Inset
  rw [Text.indent, String.toList_ofList, Text.indentChars]
  cases Text.lines text.toList with
  | nil => rfl
  | cons line rest =>
    rw [List.flatMap_cons, Text.indentLine]
    split <;> rfl

@[simp] theorem inset_bodyOf (code : C.Code) : Inset (bodyOf code) := inset_indent _

theorem headings_inset {pieces : List String} (inset : ∀ piece ∈ pieces, Inset piece) :
    pieces.filterMap heading? = [] :=
  List.filterMap_eq_nil_iff.2 fun piece member => (inset piece member).heading?

variable {start text name opening : String} {cs : List Char} {csss : List (List (List Char))}
  {rows : List String}

theorem heading?_ended {piece : String} (ended : piece = start ++ ";\n") : heading? piece = none := by
  have suffix : [';', '\n'].isSuffixOf piece.toList = true := by
    rw [List.isSuffixOf_iff_suffix, ended, String.toList_append]
    exact List.suffix_append _ _
  unfold heading? headingIn
  rw [suffix, Bool.or_true, if_pos rfl]

/-! Rows that are literals, by their characters. -/

theorem heading?_of_spells {name : Option String}
    (spells : Spells text cs) (read : headingIn cs = name) : heading? text = name := by
  unfold heading?
  rw [spells.toList_eq, read]

theorem headings_of_letters {texts : List String} {css : List (List Char)}
    {names : List String} (letters : Letters texts css) (read : css.filterMap headingIn = names) :
    texts.filterMap heading? = names := by
  rw [← read, ← letters.toList_eq, List.filterMap_map]
  rfl

theorem heading?_opening {name : Option String}
    (spells : Spells opening cs) (read : headingIn (cs ++ [' ', '\x7b'] ++ ['\n']) = name) :
    heading? (row (opening ++ " \x7b")) = name :=
  heading?_of_spells (.append (.append spells .literal) .literal) read

/-! Routines. -/

theorem routines_functions : routines.map Routine.functions = profiles.map Prod.fst := by
  have described : catalogue.map (fun described => described.1.functions) =
      catalogue.map fun described => described.2.1 :=
    List.map_congr_left fun described member => (describes_catalogue described member).functions
  have first : catalogue.map Prod.fst = routines := List.map_fst_zip (by decide)
  have second : catalogue.map Prod.snd = profiles := List.map_snd_zip (by decide)
  rw [← first, ← second, List.map_map, List.map_map]
  exact described

theorem headings_of_scanned {list : List Routine} (scanned : Scanned list csss) :
    list.map (fun routine => (routine.rows.map (· ++ "\n")).filterMap heading?) =
      csss.map fun css => css.filterMap fun cs => headingIn (cs ++ ['\n']) := by
  induction scanned with
  | nil => rfl
  | @cons routine css rest csss letters _ ih =>
    have here : (routine.rows.map (· ++ "\n")).filterMap heading? =
        css.filterMap fun cs => headingIn (cs ++ ['\n']) := by
      rw [← letters.toList_eq, List.filterMap_map, List.filterMap_map]
      refine List.filterMap_congr fun text _ => ?_
      exact congrArg headingIn (String.toList_append ..)
    rw [List.map_cons, List.map_cons, here, ih]

theorem headings_of_table (scanned : Scanned routines csss)
    (table : csss.map (fun css => css.filterMap fun cs => headingIn (cs ++ ['\n'])) = profiles.map Prod.fst) :
    ∀ routine ∈ routines, (routine.rows.map (· ++ "\n")).filterMap heading? = routine.functions := by
  have same := ((headings_of_scanned scanned).trans table).trans routines_functions.symm
  exact List.map_inj_left.1 same

theorem headings_routine : ∀ routine ∈ routines,
    (routine.rows.map (· ++ "\n")).filterMap heading? = routine.functions := by
  apply headings_of_table
  · repeat constructor
  · decide +kernel

theorem headings_routinePieces (features : Features) : (routinePieces features).filterMap heading? =
      (routinesFor features).flatMap Routine.functions := by
  have title : (if features.has .files then ["// Storage helpers\n"] else []).filterMap heading? =
      [] := by
    split <;> decide
  have each : ∀ routine ∈ routinesFor features,
      (routine.rows.map (· ++ "\n") ++ ["\n"]).filterMap heading? = routine.functions := by
    intro routine wanted
    have empty : heading? "\n" = none := inset_emptyRow.heading?
    rw [List.filterMap_append, headings_routine routine (List.mem_filter.1 wanted).1,
      List.filterMap_cons_none empty, List.filterMap_nil, List.append_nil]
  rw [routinePieces, List.filterMap_append, title, List.nil_append, List.filterMap_flatMap]
  exact List.flatMap_congr each

/-! Functions of the application itself. -/

theorem heading?_opens {front back : String} {words : List Token}
    (first : Closes front words) (named : C.Identifier.isIdentifier name = true)
    (visible : front.toList.head?.all Text.isBlank = false)
    (plain : ∀ more, definitionsIn 0 (words ++ more) = definitionsIn 0 more) :
    heading? (front ++ (name ++ "(") ++ (back ++ "\x7b\n")) = some name := by
  let text := front ++ (name ++ "(") ++ (back ++ "\x7b\n")
  have start : text.toList.head?.all Text.isBlank = false := by
    unfold text
    rw [String.append_assoc, String.toList_append, List.head?_append]
    cases head : front.toList.head? with
    | none =>
      rw [head] at visible
      contradiction
    | some c =>
      rw [head] at visible
      exact visible
  have goesOn : [';', '\n'].isSuffixOf text.toList = false := by
    have braced : ['\x7b', '\n'] <:+ text.toList := by
      unfold text
      rw [← String.append_assoc, String.toList_append]
      exact List.suffix_append _ _
    rw [← Bool.not_eq_true, List.isSuffixOf_iff_suffix]
    intro ends
    exact absurd (List.suffix_of_suffix_length_le ends braced (Nat.le_refl 2)) (by decide)
  have found : Closes (front ++ (name ++ "(")) (words ++ [.call name.toList, .mark ['(']]) :=
    first.append (C.Closes.name_parenthesis named)
  unfold heading? headingIn
  rw [start, goesOn, String.toList_append, C.Scan.run_append_closed found]
  simp only [Bool.or_self, Bool.false_eq_true, if_false, C.Scan.found]
  rw [List.append_assoc, List.append_assoc, plain]
  simp [definitionsIn]

theorem headings_function {body : List String}
    (opens : heading? (row (opening ++ " \x7b")) = some name) (inset : ∀ piece ∈ body, Inset piece) :
    (function opening body).filterMap heading? = [name] := by
  have closing : [row "\x7d", emptyRow].filterMap heading? = [] := by decide
  rw [function, List.filterMap_append, List.filterMap_append, headings_inset inset, closing,
    List.filterMap_cons_some opens]
  rfl

theorem heading?_numbered {stem parameters inner : String}
    (opens : opening = "static void " ++ stem) (named : C.Identifier.isIdentifier stem = true)
    (number : Nat) (listed : parameters = "(" ++ inner) :
    heading? (row (opening ++ toString number ++ parameters ++ " \x7b")) =
      some (stem ++ toString number) := by
  have front : Closes "static void " [.word "static".toList, .word "void".toList] := by decide
  have brace : " \x7b" ++ "\n" = " " ++ "\x7b\n" := rfl
  have split : row (opening ++ toString number ++ parameters ++ " \x7b") =
      "static void " ++ (stem ++ toString number ++ "(") ++ (inner ++ " " ++ "\x7b\n") := by
    rw [row, opens, listed]
    simp only [String.append_assoc, brace]
  rw [split]
  exact heading?_opens front (isIdentifier_numberedName named number) (by decide) fun _ => rfl

theorem headings_eachNumbered {α : Type} {pieces : Nat → α → List String}
    {name : Nat → String} (each : ∀ number item, (pieces number item).filterMap heading? = [name number])
    (start : Nat) (items : List α) : (eachNumbered pieces start items).filterMap heading? =
      (List.range' start items.length).map name := by
  induction items generalizing start with
  | nil => rfl
  | cons item rest ih =>
    rw [eachNumbered, List.filterMap_append, each, ih, List.length_cons, List.range'_succ, List.map_cons]
    rfl

theorem heading?_timer (number : Nat) : heading? (row (timerHeading number ++ " \x7b")) =
      some ("app_timer_callback_" ++ toString number) :=
  @heading?_numbered "static void app_timer_callback_" "app_timer_callback_" "(void* context)"
    "void* context)" rfl (by decide) number rfl

theorem heading?_button (number : Nat) : heading? (row (buttonHeading number ++ " \x7b")) =
      some ("app_button_cb_" ++ toString number) :=
  @heading?_numbered "static void app_button_cb_" "app_button_cb_"
    "(GuiButtonType result, InputType type, void* context)"
    "GuiButtonType result, InputType type, void* context)" rfl (by decide) number rfl

theorem inset_contextRows : ∀ piece ∈ contextRows, Inset piece := by simp [contextRows]

theorem headings_callbackPieces (draft : Draft) : (callbackPieces draft).filterMap heading? =
      ((timerNumbers draft).map fun number => "app_timer_callback_" ++ toString number) ++
        (buttonNumbers draft).map fun number => "app_button_cb_" ++ toString number := by
  have timers (number : Nat) (timer : Timer) : (timerPieces number timer).filterMap heading? =
      ["app_timer_callback_" ++ toString number] := by
    refine headings_function (heading?_timer number) ?_
    rw [List.forall_mem_append]
    refine ⟨inset_contextRows, ?_⟩
    simp
  have buttons (number : Nat) (body : C.Code) : (buttonPieces number body).filterMap heading? =
      ["app_button_cb_" ++ toString number] := by
    refine headings_function (heading?_button number) ?_
    rw [List.forall_mem_append]
    refine ⟨inset_contextRows, ?_⟩
    simp
  rw [callbackPieces, List.filterMap_append, headings_eachNumbered timers,
    headings_eachNumbered buttons, timerNumbers, buttonNumbers, List.range_eq_range',
    List.range_eq_range']

theorem inset_paragraph (inset : ∀ piece ∈ rows, Inset piece) :
    ∀ piece ∈ paragraph rows, Inset piece := by
  unfold paragraph
  split
  · exact nofun
  · exact List.forall_mem_cons.2 ⟨inset_emptyRow, inset⟩

theorem inset_closedParagraph (inset : ∀ piece ∈ rows, Inset piece) :
    ∀ piece ∈ closedParagraph rows, Inset piece := by
  unfold closedParagraph
  split
  · exact nofun
  · exact List.forall_mem_append.2 ⟨inset, List.forall_mem_singleton.2 inset_emptyRow⟩

theorem inset_if {test : Prop} [Decidable test]
    (inset : ∀ piece ∈ rows, Inset piece) : ∀ piece ∈ (if test then rows else []), Inset piece := by
  split
  · exact inset
  · exact nofun

theorem headings_drawPieces (draft : Draft) :
    (drawPieces draft).filterMap heading? = ["update_render"] := by
  refine headings_function (heading?_opening .literal (by decide)) ?_
  simp only [List.forall_mem_append]
  refine ⟨⟨by simp, ?_⟩, ?_⟩
  · exact List.forall_mem_map.2 fun _ _ => inset_bodyRow _
  · rw [List.forall_mem_singleton]
    split <;> simp

theorem headings_inputPieces (draft : Draft) :
    (inputPieces draft).filterMap heading? = ["app_input_callback"] := by
  refine headings_function (heading?_opening .literal (by decide)) ?_
  rw [List.forall_mem_append]
  exact ⟨inset_contextRows, by simp⟩

theorem headings_customEventPieces :
    customEventPieces.filterMap heading? = ["app_custom_event_callback"] := by
  refine headings_function (heading?_opening .literal (by decide)) ?_
  rw [List.forall_mem_append]
  exact ⟨inset_contextRows, by decide⟩

theorem headings_endingPieces (result : String)
    (opens : heading? (row (opening ++ " \x7b")) = some name) :
    (endingPieces opening result).filterMap heading? = [name] := by
  refine headings_function opens ?_
  rw [List.forall_mem_append]
  exact ⟨inset_contextRows, by simp⟩

theorem headings_navigationPieces : navigationPieces.filterMap heading? =
    ["app_navigation_callback", "app_view_navigation_callback"] := by
  have first : heading? (row ("static bool app_navigation_callback(void* context)" ++ " \x7b")) =
    some "app_navigation_callback" := heading?_opening .literal (by decide)
  have second : heading? (row ("static uint32_t app_view_navigation_callback(void* context)" ++
    " \x7b")) = some "app_view_navigation_callback" :=
    heading?_opening .literal (by decide)
  rw [navigationPieces, List.filterMap_append, headings_endingPieces _ first, headings_endingPieces _ second]
  rfl

theorem inset_timerRows (draft : Draft) : ∀ piece ∈ timerRows draft, Inset piece := by
  unfold timerRows
  split
  · exact nofun
  · simp only [List.forall_mem_append]
    refine ⟨⟨?_, inset_if (by simp)⟩, ?_⟩
    · exact List.forall_mem_map.2 fun _ _ => inset_bodyRow _
    · intro piece member
      obtain ⟨number, _, timer, _, there⟩ := mem_eachNumbered member
      rw [List.mem_singleton.1 there]
      exact inset_bodyRow _

theorem headings_allocationPieces (draft : Draft) :
    (allocationPieces draft).filterMap heading? = ["app_alloc"] := by
  refine headings_function (heading?_opening .literal (by decide)) ?_
  simp only [List.forall_mem_append]
  refine ⟨⟨⟨⟨⟨⟨⟨⟨by simp, inset_if (by simp)⟩, by simp [viewPieces]⟩, inset_paragraph ?resets⟩,
    inset_if (by simp)⟩, inset_paragraph ?setups⟩, ?code⟩, inset_paragraph (inset_timerRows draft)⟩,
      by simp⟩
  case resets =>
    intro piece member
    obtain ⟨storage, _, reset⟩ := List.mem_filterMap.1 member
    obtain ⟨line, _, rfl⟩ := Option.map_eq_some_iff.1 reset
    exact inset_bodyRow _
  case setups => exact List.forall_mem_map.2 fun _ _ => inset_bodyRow _
  case code => split <;> simp

theorem headings_releasePieces (draft : Draft) :
    (releasePieces draft).filterMap heading? = ["app_free"] := by
  refine headings_function (heading?_opening .literal (by decide)) ?_
  simp only [List.forall_mem_append]
  refine ⟨⟨⟨⟨⟨⟨by simp, inset_closedParagraph ?timers⟩, inset_closedParagraph ?outputs⟩, by simp⟩,
    inset_if (by simp)⟩, inset_if (by simp)⟩, by simp⟩
  case timers =>
    intro piece member
    obtain ⟨number, _, there⟩ := List.mem_flatMap.1 member
    have release : ∀ piece ∈ timerRelease number, Inset piece := by simp [timerRelease]
    exact release piece there
  case outputs => exact List.forall_mem_map.2 fun _ _ => inset_bodyRow _

theorem headings_mainPieces (draft : Draft) :
    (mainPieces draft).filterMap heading? = [Manifest.entryPoint] := by
  have opening : heading? (row ("int32_t " ++ Manifest.entryPoint ++ "(void* p) \x7b")) =
    some Manifest.entryPoint :=
    heading?_of_spells (.append (.append (.append .literal .literal) .literal) .literal)
      (by decide)
  have first : ([row ("int32_t " ++ Manifest.entryPoint ++ "(void* p) \x7b"), bodyRow "UNUSED(p);",
      bodyRow "App* app = app_alloc();", emptyRow, bodyRow (C.Line.run Lowering.redraw).text,
      bodyRow "view_dispatcher_run(app->view_dispatcher);"]).filterMap heading? =
        [Manifest.entryPoint] := by
    rw [List.filterMap_cons_some opening, headings_inset (by simp)]
  have loop : (if isBlank draft.loop then [] else [emptyRow, bodyOf draft.loop]).filterMap heading? =
      [] := by
    split
    · rfl
    · exact headings_inset (by simp)
  have last : [emptyRow, bodyRow "app_free(app);", bodyRow "return 0;", row "\x7d"].filterMap
      heading? = [] := by
    have closing : heading? (row "\x7d") = none := by decide
    simp [inset_emptyRow.heading?, (inset_bodyRow _).heading?, closing]
  rw [mainPieces, List.filterMap_append, List.filterMap_append, first, loop, last]
  rfl

/-! The rest of the text. -/

theorem headings_headers :
    (headers.map fun header => "#include <" ++ header.name ++ ">\n").filterMap heading? = [] := by
  apply headings_of_letters
  · repeat (first | apply Spells.append | constructor)
  · decide +kernel

theorem headings_headerPieces (features : Features) :
    (headerPieces features).filterMap heading? = [] := by
  have each := List.filterMap_eq_nil_iff.1 headings_headers
  rw [List.filterMap_eq_nil_iff]
  exact List.forall_mem_map.2 fun _ wanted => each _ (List.mem_map_of_mem (List.mem_filter.1 wanted).1)

theorem headings_typePieces : typePieces.filterMap heading? = [] := by
  apply headings_of_letters
  · repeat constructor
  · decide +kernel

theorem ended_declaration (storage : Storage) : ∃ start, storage.declaration = start ++ ";" := by
  have array : "];" = "]" ++ ";" := rfl
  have listed : " \x7d;" = " \x7d" ++ ";" := rfl
  unfold Storage.declaration
  dsimp only
  split
  iterate 4 · exact ⟨_, rfl⟩
  iterate 2 · exact ⟨_, by rw [array, ← String.append_assoc]⟩
  · exact ⟨_, by rw [listed, ← String.append_assoc]⟩

theorem heading?_row_ended (ended : text = start ++ ";") : heading? (row text) = none := by
  refine @heading?_ended start (row text) ?_
  rw [row, ended, String.append_assoc]
  rfl

theorem headings_globalPieces (draft : Draft) : (globalPieces draft).filterMap heading? = [] := by
  have title : heading? (row "// Global storage generated from blocks") = none :=
    heading?_of_spells (.append .literal .literal) (by decide)
  rw [List.filterMap_eq_nil_iff]
  unfold globalPieces
  split
  · exact nofun
  · simp only [List.forall_mem_append, List.forall_mem_singleton]
    refine ⟨⟨title, ?_⟩, inset_emptyRow.heading?⟩
    intro piece member
    obtain ⟨storage, _, rfl⟩ := List.mem_map.1 member
    obtain ⟨start, ended⟩ := ended_declaration storage
    exact heading?_row_ended ended

theorem headings_structurePieces (draft : Draft) :
    (structurePieces draft).filterMap heading? = [] := by
  have opening : heading? (row "typedef struct \x7b") = none :=
    heading?_of_spells (.append .literal .literal) (by decide)
  have closing : heading? (row "\x7d App;") = none :=
    heading?_of_spells (.append .literal .literal) (by decide)
  rw [List.filterMap_eq_nil_iff]
  unfold structurePieces
  simp only [List.forall_mem_append, List.forall_mem_cons]
  refine ⟨⟨⟨⟨⟨opening, (inset_bodyRow _).heading?, (inset_bodyRow _).heading?, ?_⟩, ?_⟩, ?_⟩, ?_⟩,
    closing, inset_emptyRow.heading?, ?_⟩
  · exact nofun
  · exact fun piece member => (inset_if (by simp) piece member).heading?
  · exact List.forall_mem_map.2 fun _ _ => (inset_bodyRow _).heading?
  · exact List.forall_mem_map.2 fun _ _ => (inset_bodyRow _).heading?
  · exact nofun

theorem headings_announcementPieces (draft : Draft) :
    (announcementPieces draft).filterMap heading? = [] := by
  rw [List.filterMap_eq_nil_iff]
  unfold announcementPieces
  split
  · exact nofun
  · simp only [List.forall_mem_append, List.forall_mem_singleton]
    refine ⟨⟨?_, ?_⟩, inset_emptyRow.heading?⟩
    all_goals
      exact List.forall_mem_map.2 fun _ _ => heading?_row_ended rfl

end Application

def Draft.functions (draft : Draft) : List String :=
  (Application.routinesFor draft.features).flatMap Application.Routine.functions ++
    ["update_render", "app_custom_event_callback", "app_input_callback", "app_navigation_callback",
      "app_view_navigation_callback"] ++
    (Application.timerNumbers draft).map (fun number => "app_timer_callback_" ++ toString number) ++
    (Application.buttonNumbers draft).map (fun number => "app_button_cb_" ++ toString number) ++
    ["app_alloc", "app_free", Manifest.entryPoint]

namespace Application

theorem functionNames_eq (draft : Draft) : functionNames draft = draft.functions := by
  have empty : [emptyRow].filterMap heading? = [] := headings_inset (by simp)
  rw [functionNames, sourcePieces]
  simp only [List.filterMap_append, headings_headerPieces, empty, headings_typePieces,
    headings_routinePieces, headings_globalPieces, headings_structurePieces,
    headings_announcementPieces, headings_drawPieces, headings_customEventPieces,
    headings_inputPieces, headings_navigationPieces, headings_callbackPieces,
    headings_allocationPieces, headings_releasePieces, headings_mainPieces]
  unfold Draft.functions
  simp only [List.append_assoc, List.nil_append, List.cons_append]

end Application

end FlipperBlocks
