import FlipperBlocks.Application.Support
import FlipperBlocks.Lowering.Control
import FlipperBlocks.Lowering.Pwm

/-! The text of an application, assembled from its draft.

The text is a list of pieces in a fixed order: headers, types, routines, storage, the application's
structure, the functions of its life, and the manifests. -/
namespace FlipperBlocks.Application

variable (draft : Draft)

def row (text : String) : String := text ++ "\n"

def bodyRow (text : String) : String := "    " ++ text ++ "\n"

def emptyRow : String := "\n"

/-- A function with the given pieces as its body, and an empty row after it. -/
def function (opening : String) (body : List String) : List String :=
  [row (opening ++ " \x7b")] ++ body ++ [row "\x7d", emptyRow]

/-- The first rows of a callback, which learns of the application from its context. -/
def contextRows : List String := [bodyRow "App* app = context;", bodyRow "furi_assert(app);"]

/-- A piece of code as part of a body. -/
def bodyOf (code : C.Code) : String := Text.indent code.text

/-- Whether a piece of code has anything to run. -/
def isBlank (code : C.Code) : Bool := Text.allBlank code.text

def typePieces : List String :=
  ["typedef enum \x7b\n", "    MyViewWidget,\n", "\x7d ViewId;\n", "\n",
    "typedef enum \x7b\n", "    CustomEventTypeRedraw,\n", "\x7d CustomEventType;\n", "\n"]

def storageIn (scope : Scope) (draft : Draft) : List Storage :=
  draft.storage.filter fun storage => storage.scope = scope

def globalPieces : List String :=
  match storageIn .program draft with
  | [] => []
  | globals =>
    [row "// Global storage generated from blocks"] ++
      globals.map (fun storage => row storage.declaration) ++ [emptyRow]

def timerNumbers : List Nat := List.range draft.timers.length

def buttonNumbers : List Nat := List.range draft.buttons.length

def structurePieces : List String :=
  [row "typedef struct \x7b",
    bodyRow "ViewDispatcher* view_dispatcher;",
    bodyRow "Widget* widget;"] ++
  (if draft.features.has .notifications then [bodyRow "NotificationApp* notif;"] else []) ++
  (timerNumbers draft).map (fun number => bodyRow ("FuriTimer* timer_" ++ toString number ++ ";")) ++
  (storageIn .application draft).map (fun storage => bodyRow storage.declaration) ++
  [row "\x7d App;", emptyRow]

def timerHeading (number : Nat) : String :=
  "static void app_timer_callback_" ++ toString number ++ "(void* context)"

def buttonHeading (number : Nat) : String :=
  "static void app_button_cb_" ++ toString number ++
    "(GuiButtonType result, InputType type, void* context)"

/-- Callbacks announced before they are defined. -/
def announcementPieces : List String :=
  if draft.timers.isEmpty && draft.buttons.isEmpty then []
  else
    (timerNumbers draft).map (fun number => row (timerHeading number ++ ";")) ++
    (buttonNumbers draft).map (fun number => row (buttonHeading number ++ ";")) ++ [emptyRow]

/-- What is drawn where the program draws nothing. -/
def drawPlaceholder : String :=
  "widget_add_string_multiline_element(app->widget, 64, 32, AlignCenter, AlignCenter, " ++
    "FontPrimary, \"Add blocks to Draw section\");"

def drawPieces : List String :=
  function "static void update_render(App* app)" <|
    [bodyRow "furi_assert(app);", bodyRow "widget_reset(app->widget);"] ++
    draft.beforeDraw.map (fun line => bodyRow line.text) ++
    [if isBlank draft.draw then bodyRow drawPlaceholder else bodyOf draft.draw]

def customEventPieces : List String :=
  function "static bool app_custom_event_callback(void* context, uint32_t event)" <|
    contextRows ++
    ["    switch(event) \x7b\n",
      "    case CustomEventTypeRedraw:\n",
      "        update_render(app);\n",
      "        return true;\n",
      "    default:\n",
      "        return false;\n",
      "    \x7d\n"]

def inputPieces : List String :=
  function "static bool app_input_callback(InputEvent* event, void* context)" <|
    contextRows ++
    [bodyRow "UNUSED(app);", bodyRow "(void)event;", bodyRow "bool consumed = false;",
      bodyOf draft.input, bodyRow "return consumed;"]

/-- A callback that ends the application and gives the result. -/
def endingPieces (opening result : String) : List String :=
  function opening <|
    contextRows ++
    [bodyRow "view_dispatcher_stop(app->view_dispatcher);", bodyRow ("return " ++ result ++ ";")]

def navigationPieces : List String :=
  endingPieces "static bool app_navigation_callback(void* context)" "true" ++
  endingPieces "static uint32_t app_view_navigation_callback(void* context)" "VIEW_NONE"

def timerPieces (number : Nat) (timer : Timer) : List String :=
  function (timerHeading number) (contextRows ++ [bodyRow "UNUSED(app);", bodyOf timer.body])

def buttonPieces (number : Nat) (body : C.Code) : List String :=
  function (buttonHeading number) <|
    contextRows ++
    [bodyRow "UNUSED(app);", bodyRow "UNUSED(result);", bodyRow "if(type == InputTypeShort) \x7b",
      Text.indent (bodyOf body), bodyRow "\x7d"]

/-- The pieces of a list, each made with its number. -/
def eachNumbered {α : Type} (pieces : Nat → α → List String) (number : Nat) : List α → List String
  | [] => []
  | item :: rest => pieces number item ++ eachNumbered pieces (number + 1) rest

def callbackPieces : List String :=
  eachNumbered timerPieces 0 draft.timers ++ eachNumbered buttonPieces 0 draft.buttons

def viewPieces : List String :=
  [emptyRow,
    bodyRow "app->view_dispatcher = view_dispatcher_alloc();",
    bodyRow ("view_dispatcher_attach_to_gui(app->view_dispatcher, gui, " ++
      "ViewDispatcherTypeFullscreen);"),
    bodyRow ("view_dispatcher_set_custom_event_callback(app->view_dispatcher, " ++
      "app_custom_event_callback);"),
    bodyRow ("view_dispatcher_set_navigation_event_callback(app->view_dispatcher, " ++
      "app_navigation_callback);"),
    bodyRow "view_dispatcher_set_event_callback_context(app->view_dispatcher, app);",
    emptyRow,
    bodyRow "app->widget = widget_alloc();",
    bodyRow ("view_set_previous_callback(widget_get_view(app->widget), " ++
      "app_view_navigation_callback);"),
    bodyRow "view_set_input_callback(widget_get_view(app->widget), app_input_callback);",
    bodyRow "view_set_context(widget_get_view(app->widget), app);",
    bodyRow ("view_dispatcher_add_view(app->view_dispatcher, MyViewWidget, " ++
      "widget_get_view(app->widget));"),
    bodyRow "view_dispatcher_switch_to_view(app->view_dispatcher, MyViewWidget);"]

/-- Rows with an empty one in front, if there are any. -/
def paragraph : List String → List String
  | [] => []
  | rows => emptyRow :: rows

/-- How long the climate sensor needs before it is first read, in milliseconds. -/
def climateWarmUp : Nat := 1200

def climateInterval : Nat := 2000

/-- The interval of a timer, which leaves the climate sensor its time. -/
def interval (timer : Timer) : Nat :=
  if draft.features.has .dht11 then max timer.milliseconds climateInterval
  else timer.milliseconds

def timerAllocation (number : Nat) : String :=
  bodyRow ("app->timer_" ++ toString number ++ " = furi_timer_alloc(app_timer_callback_" ++
    toString number ++ ", FuriTimerTypePeriodic, app);")

def timerStart (number : Nat) (timer : Timer) : List String :=
  [bodyRow ("furi_timer_start(app->timer_" ++ toString number ++ ", furi_ms_to_ticks(" ++
    toString (interval draft timer) ++ "));")]

def timerRows : List String :=
  match draft.timers with
  | [] => []
  | timers =>
    (timerNumbers draft).map timerAllocation ++
    (if draft.features.has .dht11 then
      [bodyRow ("furi_delay_ms(" ++ toString climateWarmUp ++ ");")] else []) ++
    eachNumbered (timerStart draft) 0 timers

def allocationPieces : List String :=
  function "static App* app_alloc(void)" <|
    [bodyRow "App* app = malloc(sizeof(App));",
      bodyRow "furi_assert(app);",
      emptyRow,
      bodyRow "Gui* gui = furi_record_open(RECORD_GUI);"] ++
    (if draft.features.has .notifications then
      [bodyRow "app->notif = furi_record_open(RECORD_NOTIFICATION);"] else []) ++
    viewPieces ++
    paragraph (draft.storage.filterMap fun storage => storage.reset?.map fun line => bodyRow line.text) ++
    (if draft.features.hasAny Feature.powered then
      [emptyRow, bodyRow "power_ensure_5v();"] else []) ++
    paragraph (draft.setups.map fun setup => bodyRow setup.line.text) ++
    (if isBlank draft.setup then [] else [emptyRow, bodyOf draft.setup]) ++
    paragraph (timerRows draft) ++
    [emptyRow, bodyRow "return app;"]

/-- Rows with an empty one after them, if there are any. -/
def closedParagraph : List String → List String
  | [] => []
  | rows => rows ++ [emptyRow]

def timerRelease (number : Nat) : List String :=
  [bodyRow ("furi_timer_stop(app->timer_" ++ toString number ++ ");"),
    bodyRow ("furi_timer_free(app->timer_" ++ toString number ++ ");")]

/-- The line that stops an output, if it runs. -/
def outputRelease (output : PwmOutput) : C.Line :=
  .guarded (Lowering.isRunning output) (Lowering.stopOutput output)

def releasePieces : List String :=
  function "static void app_free(App* app)" <|
    [bodyRow "furi_assert(app);", emptyRow] ++
    closedParagraph ((timerNumbers draft).flatMap timerRelease) ++
    closedParagraph (draft.pwm.map fun output => bodyRow (outputRelease output).text) ++
    [bodyRow "view_dispatcher_remove_view(app->view_dispatcher, MyViewWidget);",
      bodyRow "widget_free(app->widget);",
      bodyRow "view_dispatcher_free(app->view_dispatcher);",
      emptyRow,
      bodyRow "furi_record_close(RECORD_GUI);"] ++
    (if draft.features.has .notifications then
      [bodyRow "furi_record_close(RECORD_NOTIFICATION);"] else []) ++
    (if draft.features.hasAny Feature.powered then
      [bodyRow "if(furi_hal_power_is_otg_enabled()) furi_hal_power_disable_otg();"] else []) ++
    [emptyRow, bodyRow "free(app);"]

def mainPieces : List String :=
  [row ("int32_t " ++ Manifest.entryPoint ++ "(void* p) \x7b"),
    bodyRow "UNUSED(p);",
    bodyRow "App* app = app_alloc();",
    emptyRow,
    bodyRow (C.Line.run Lowering.redraw).text,
    bodyRow "view_dispatcher_run(app->view_dispatcher);"] ++
  (if isBlank draft.loop then [] else [emptyRow, bodyOf draft.loop]) ++
  [emptyRow, bodyRow "app_free(app);", bodyRow "return 0;", row "\x7d"]

def manifestStart : String := "----- application.fam -----"

def manifestEnd : String := "---------------------------"

/-- The manifests in a comment at the end. -/
def manifestPieces : List String :=
  match draft.manifests with
  | [] => []
  | manifests =>
    [emptyRow, row "/*"] ++
    manifests.flatMap (fun manifest => [row manifestStart, row manifest.text, row manifestEnd]) ++
    [row "*/"]

def sourcePieces : List String :=
  headerPieces draft.features ++ [emptyRow] ++ typePieces ++ routinePieces draft.features ++
  globalPieces draft ++ structurePieces draft ++ announcementPieces draft ++ drawPieces draft ++
  customEventPieces ++ inputPieces draft ++ navigationPieces ++ callbackPieces draft ++
  allocationPieces draft ++ releasePieces draft ++ mainPieces draft

def pieces : List String := sourcePieces draft ++ manifestPieces draft

def text : String := "".intercalate (pieces draft)

end FlipperBlocks.Application
