import FlipperBlocks.Lowering.Conversion

/-! Pins and the sensors on them. -/
namespace FlipperBlocks.Lowering

open C (Code Expr)

variable (site : Site)

def pinOf : Pin := Pin.general (site.head.field? "PIN")

/-- Sets a pin up where the block stands. The block does so even if the pin is in use otherwise. -/
def setupPin : Lowering Code := do
  let setup : PinSetup :=
    { pin := pinOf site, mode := .ofSelector (site.head.field? "MODE")
      pull := .ofSelector (site.head.field? "PULL") }
  enable [.pins]
  let _ ← usePin setup.pin setup.mode
  return Code.line setup.line

def writePin : Lowering Code := do
  enable [.pins]
  let high := site.head.field? "STATE" == some "HIGH"
  return Code.run (.call "furi_hal_gpio_write" [(pinOf site).symbol, .truth high])

def pinLevel (pin : Pin) : Expr := .call "furi_hal_gpio_read" [pin.symbol]

def readPin : Lowering Value := do
  enable [.pins]
  return ⟨pinLevel (pinOf site), .truth, none⟩

def analogScale : Expr := .name "FuriHalAdcScale2500"

/-- A voltage measurement that takes as long as the sampling says. -/
def measurement (pin : Pin) (sampling : String) : Expr :=
  .call "adc_read_raw_on_gpio"
    [pin.symbol, analogScale, .name "FuriHalAdcClockSync64", .name "FuriHalAdcOversample64",
      .name sampling]

/-- Measures on a pin, if the pin can do it. -/
def analog (site : Site) (result : Pin → Expr) : Lowering Value := do
  let pin := pinOf site
  if pin.isAnalog then
    enable [.analog]
    configurePin { pin, mode := .analog }
    return ⟨result pin, .number, none⟩
  else
    degrade (.unsupportedPin pin.name "analog input")
    return ⟨.group (.remark "no ADC channel" (.number "0")), .number, none⟩

def millivolts (raw : Expr) : Expr := .call "adc_raw_to_mv_scale" [raw, analogScale]

def percent (raw : Expr) : Expr :=
  .group (.castGroup "int"
    (.binary .divide (.group (.binary .multiply raw (.number "100UL"))) (.number "4095UL")))

def readAnalog : Lowering Value :=
  analog site fun pin =>
    let raw := measurement pin "FuriHalAdcSamplingtime92_5"
    if site.head.fieldOr "MODE" "RAW" = "MV" then millivolts raw else .group raw

def resistance : Float :=
  let value := ((site.head.numberField? "R_VALUE").map Binary64.toFloat).getD 10.0
  match site.head.field? "R_UNIT" with
  | some "OHM" => value * 1.0
  | some "MOHM" => value * 1000000.0
  | _ => value * 1000.0

/-- The sampling that suits a potentiometer: the greater its resistance, the longer. -/
def sampling (ohms : Float) : String :=
  if ohms ≤ 10000.0 then "FuriHalAdcSamplingtime24_5"
  else if ohms ≤ 50000.0 then "FuriHalAdcSamplingtime92_5"
  else "FuriHalAdcSamplingtime247_5"

def potentiometer : Lowering Value :=
  analog site fun pin =>
    let raw := measurement pin (sampling (resistance site))
    match site.head.fieldOr "MODE" "PERCENT" with
    | "MV" => millivolts raw
    | "PERCENT" => percent raw
    | _ => .group raw

def distance : Lowering Value := do
  let trigger := Pin.ranging (site.head.field? "TRIG_PIN") "USART_TX"
  let echo := Pin.ranging (site.head.field? "ECHO_PIN") "USART_RX"
  enable [.distance]
  return ⟨.call "hc_sr04_measure_cm" [trigger.symbol, echo.symbol], .number, none⟩

def motion : Lowering Value := do
  let pin := pinOf site
  enable [.pins, .power5V]
  configurePin { pin, mode := .input }
  return ⟨.group (.conditional (pinLevel pin) (.number "1") (.number "0")), .number, none⟩

/-- A quantity that the climate sensor measures: the function that reads it, what the names of its
storage start with, and its own short name. -/
structure Climate where
  reader : String
  stem : String
  label : String

def temperature : Climate := ⟨"dht11_read_temperature_c", "dht11_temp", "temp"⟩

def humidity : Climate := ⟨"dht11_read_humidity_percent", "dht11_hum", "hum"⟩

/-- Reads a quantity from the climate sensor. Reads of the same quantity on the same pin share
their storage. -/
def readClimate (quantity : Climate) (site : Site) : Lowering Value := do
  let pin := pinOf site
  enable [.dht11, .power5V]
  let key := "dht11:" ++ quantity.label ++ ":" ++ pin.name
  let storage ← readSlot key quantity.stem .int
  deferred (.assign .set storage.place (.call quantity.reader [pin.symbol]))
    ⟨storage.place, .number, none⟩

end FlipperBlocks.Lowering
