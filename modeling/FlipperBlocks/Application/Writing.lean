import FlipperBlocks.Application.Assembly
import FlipperBlocks.Sink

/-! Writing an application to a sink.

Each part of the text has its writer. A writer stops at the first piece that the sink refuses, and so do
all writers after it. -/
namespace FlipperBlocks

open Sink (offer)

variable (draft : Draft)

namespace Application

def write (rows : List String) : Writing Unit := offer ("".intercalate rows)

def endLine : Writing Unit := offer emptyRow

def emit (text : String) : Writing Unit := offer (row text)

/-- Writes a row of a body: first its indentation, and then the rest. -/
def emitBody (text : String) : Writing Unit := do
  offer "    "
  emit text

/-- Writes a part that is there only in some applications. -/
def provided (wanted : Bool) (writing : Writing Unit) : Writing Unit :=
  if wanted then writing else pure ()

def writeHeaders (features : Features) : Writing Unit :=
  (headersFor features).forM fun header => emit ("#include <" ++ header.name ++ ">")

def writeTypes : Writing Unit := write typePieces

def writeRoutines (features : Features) : Writing Unit := do
  provided (features.has .files) do
    emit "// Storage helpers"
  (routinesFor features).forM fun routine => do
    write (routine.rows.map row)
    endLine

def writeGlobals : Writing Unit := do
  let globals := storageIn .program draft
  provided (!globals.isEmpty) do
    emit "// Global storage generated from blocks"
    globals.forM fun storage => emit storage.declaration
    endLine

def writeStructure : Writing Unit := do
  emit "typedef struct \x7b"
  emitBody "ViewDispatcher* view_dispatcher;"
  emitBody "Widget* widget;"
  provided (draft.features.has .notifications) do
    emitBody "NotificationApp* notif;"
  (timerNumbers draft).forM fun number => emitBody ("FuriTimer* timer_" ++ toString number ++ ";")
  (storageIn .application draft).forM fun storage => emitBody storage.declaration
  emit "\x7d App;"
  endLine

def writeAnnouncements : Writing Unit := do
  provided (!(draft.timers.isEmpty && draft.buttons.isEmpty)) do
    (timerNumbers draft).forM fun number => emit (timerHeading number ++ ";")
    (buttonNumbers draft).forM fun number => emit (buttonHeading number ++ ";")
    endLine

def writeDraw : Writing Unit := do
  emit "static void update_render(App* app) \x7b"
  emitBody "furi_assert(app);"
  emitBody "widget_reset(app->widget);"
  draft.beforeDraw.forM fun line => emitBody line.text
  (if isBlank draft.draw then emitBody drawPlaceholder else offer (bodyOf draft.draw))
  emit "\x7d"
  endLine

def writeDispatch : Writing Unit := do
  write customEventPieces
  emit "static bool app_input_callback(InputEvent* event, void* context) \x7b"
  emitBody "App* app = context;"
  emitBody "furi_assert(app);"
  emitBody "UNUSED(app);"
  emitBody "(void)event;"
  emitBody "bool consumed = false;"
  offer (bodyOf draft.input)
  emitBody "return consumed;"
  emit "\x7d"
  endLine
  write navigationPieces

def writeTimer (timer : Timer) (number : Nat) : Writing Unit := do
  emit (timerHeading number ++ " \x7b")
  emitBody "App* app = context;"
  emitBody "furi_assert(app);"
  emitBody "UNUSED(app);"
  offer (bodyOf timer.body)
  emit "\x7d"
  endLine

def writeButton (body : C.Code) (number : Nat) : Writing Unit := do
  emit (buttonHeading number ++ " \x7b")
  emitBody "App* app = context;"
  emitBody "furi_assert(app);"
  emitBody "UNUSED(app);"
  emitBody "UNUSED(result);"
  emitBody "if(type == InputTypeShort) \x7b"
  offer (Text.indent (bodyOf body))
  emitBody "\x7d"
  emit "\x7d"
  endLine

def writeCallbacks : Writing Unit := do
  draft.timers.zipIdx.forM fun (timer, number) => writeTimer timer number
  draft.buttons.zipIdx.forM fun (body, number) => writeButton body number

/-- Writes the code of a section, if it has any. -/
def writeSection (code : C.Code) : Writing Unit :=
  provided (!isBlank code) do
    endLine
    offer (bodyOf code)

def writeTimerStart (timer : Timer) (number : Nat) : Writing Unit :=
  emitBody ("furi_timer_start(app->timer_" ++ toString number ++ ", furi_ms_to_ticks(" ++
    toString (interval draft timer) ++ "));")

def writeTimerStarts : Writing Unit := do
  endLine
  (timerNumbers draft).forM fun number =>
    emitBody ("app->timer_" ++ toString number ++ " = furi_timer_alloc(app_timer_callback_" ++
      toString number ++ ", FuriTimerTypePeriodic, app);")
  provided (draft.features.has .dht11) do
    emitBody ("furi_delay_ms(" ++ toString climateWarmUp ++ ");")
  draft.timers.zipIdx.forM fun (timer, number) => writeTimerStart draft timer number

def writeAllocation : Writing Unit := do
  emit "static App* app_alloc(void) \x7b"
  emitBody "App* app = malloc(sizeof(App));"
  emitBody "furi_assert(app);"
  endLine
  emitBody "Gui* gui = furi_record_open(RECORD_GUI);"
  provided (draft.features.has .notifications) do
    emitBody "app->notif = furi_record_open(RECORD_NOTIFICATION);"
  write viewPieces
  let resets := draft.storage.filterMap Storage.reset?
  provided (!resets.isEmpty) do
    endLine
    resets.forM fun line => emitBody line.text
  provided (draft.features.hasAny Feature.powered) do
    endLine
    emitBody "power_ensure_5v();"
  provided (!draft.setups.isEmpty) do
    endLine
    draft.setups.forM fun setup => emitBody setup.line.text
  writeSection draft.setup
  provided (!draft.timers.isEmpty) do
    writeTimerStarts draft
  endLine
  emitBody "return app;"
  emit "\x7d"
  endLine

def writeTimerRelease (number : Nat) : Writing Unit := do
  emitBody ("furi_timer_stop(app->timer_" ++ toString number ++ ");")
  emitBody ("furi_timer_free(app->timer_" ++ toString number ++ ");")

def writeRelease : Writing Unit := do
  emit "static void app_free(App* app) \x7b"
  emitBody "furi_assert(app);"
  endLine
  provided (!draft.timers.isEmpty) do
    (timerNumbers draft).forM writeTimerRelease
    endLine
  provided (!draft.pwm.isEmpty) do
    draft.pwm.forM fun output => emitBody (outputRelease output).text
    endLine
  emitBody "view_dispatcher_remove_view(app->view_dispatcher, MyViewWidget);"
  emitBody "widget_free(app->widget);"
  emitBody "view_dispatcher_free(app->view_dispatcher);"
  endLine
  emitBody "furi_record_close(RECORD_GUI);"
  provided (draft.features.has .notifications) do
    emitBody "furi_record_close(RECORD_NOTIFICATION);"
  provided (draft.features.hasAny Feature.powered) do
    emitBody "if(furi_hal_power_is_otg_enabled()) furi_hal_power_disable_otg();"
  endLine
  emitBody "free(app);"
  emit "\x7d"
  endLine

def writeMain : Writing Unit := do
  emit ("int32_t " ++ Manifest.entryPoint ++ "(void* p) \x7b")
  emitBody "UNUSED(p);"
  emitBody "App* app = app_alloc();"
  endLine
  emitBody (C.Line.run Lowering.redraw).text
  emitBody "view_dispatcher_run(app->view_dispatcher);"
  writeSection draft.loop
  endLine
  emitBody "app_free(app);"
  emitBody "return 0;"
  emit "\x7d"

def writeManifest (manifest : Manifest) : Writing Unit := do
  emit "App("
  manifest.fields.forM fun field => emitBody (field.1 ++ "=" ++ field.2 ++ ",")
  offer ")"

def writeMarked (manifest : Manifest) : Writing Unit := do
  emit manifestStart
  writeManifest manifest
  endLine
  emit manifestEnd

def writeManifests : Writing Unit := do
  provided (!draft.manifests.isEmpty) do
    endLine
    emit "/*"
    draft.manifests.forM writeMarked
    emit "*/"

def writeText : Writing Unit := do
  writeHeaders draft.features
  endLine
  writeTypes
  writeRoutines draft.features
  writeGlobals draft
  writeStructure draft
  writeAnnouncements draft
  writeDraw draft
  writeDispatch draft
  writeCallbacks draft
  writeAllocation draft
  writeRelease draft
  writeMain draft
  writeManifests draft

end Application

end FlipperBlocks
