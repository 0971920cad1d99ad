import FlipperBlocks.Application.Routine

/-! The headers and routines that a program brings along for its features. -/
namespace FlipperBlocks.Application

def headers : List Header :=
  [⟨[], "furi.h"⟩,
    ⟨[], "furi_hal.h"⟩,
    ⟨[.analog], "furi_hal_adc.h"⟩,
    ⟨[.analog], "furi_hal_resources.h"⟩,
    ⟨[.bus], "furi_hal_i2c.h"⟩,
    ⟨[], "gui/gui.h"⟩,
    ⟨[], "gui/view_dispatcher.h"⟩,
    ⟨[], "gui/modules/widget.h"⟩,
    ⟨[], "input/input.h"⟩,
    ⟨[.files], "storage/storage.h"⟩,
    ⟨[], "string.h"⟩,
    ⟨[], "stdio.h"⟩,
    ⟨[], "stdlib.h"⟩,
    ⟨[], "stdint.h"⟩,
    ⟨[.math], "math.h"⟩,
    ⟨[.notifications], "notification/notification.h"⟩,
    ⟨[.notifications], "notification/notification_messages.h"⟩,
    ⟨[.pwm], "furi_hal_pwm.h"⟩,
    ⟨[.servoTimer1], "stm32wbxx_ll_tim.h"⟩,
    ⟨[.servoLowPower], "stm32wbxx_ll_lptim.h"⟩,
    ⟨Feature.servo, "stm32wbxx_ll_rcc.h"⟩,
    ⟨Feature.powered, "furi_hal_power.h"⟩,
    ⟨[], "furi/core/log.h"⟩]

/-- The routines, in an order in which each one stands after those it calls. -/
def routines : List Routine :=
  [.readFile, .writeFile, .fileExists, .createFile, .deleteFile, .randomRange, .extractNumber,
    .readAnalog, .ensurePower, .measureDistance, .resolveBus, .readRegister8, .writeRegister8,
    .readRegister16, .writeRegister16, .writeMemory, .readMemory, .deviceReady, .readClimate,
    .servoTimer1, .servoLowPower]

def headersFor (features : Features) : List Header :=
  headers.filter fun header => isWanted header.wantedBy features

def routinesFor (features : Features) : List Routine :=
  routines.filter fun routine => isWanted routine.wantedBy features

def headerPieces (features : Features) : List String :=
  (headersFor features).map fun header => "#include <" ++ header.name ++ ">\n"

def routinePieces (features : Features) : List String :=
  (if features.has .files then ["// Storage helpers\n"] else []) ++
    (routinesFor features).flatMap fun routine => routine.rows.map (· ++ "\n") ++ ["\n"]

end FlipperBlocks.Application
