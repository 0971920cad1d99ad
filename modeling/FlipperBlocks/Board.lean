import FlipperBlocks.C.Code

/-! Pins of the board's connector, their uses, and how they are set up; and the board's buses. -/
namespace FlipperBlocks

/-- A hardware output for pulse width modulation. -/
inductive PwmOutput where
  | timer1
  | lowPowerTimer2
  deriving DecidableEq

namespace PwmOutput

def channel : PwmOutput → String
  | timer1 => "FuriHalPwmOutputIdTim1PA7"
  | lowPowerTimer2 => "FuriHalPwmOutputIdLptim2PA4"

/-- What the names of the output's state variables start with. -/
def stateStem : PwmOutput → String
  | timer1 => "pwm_pa7"
  | lowPowerTimer2 => "pwm_pa4"

end PwmOutput

inductive Pin where
  | pa7
  | pa6
  | pa4
  | pb3
  | pb2
  | pc3
  | pc1
  | pc0
  | usartTx
  | usartRx
  deriving DecidableEq

namespace Pin

/-- The pins, in the order in which they are searched. -/
def all : List Pin := [pa7, pa6, pa4, pb3, pb2, pc3, pc1, pc0, usartTx, usartRx]

def name : Pin → String
  | pa7 => "PA7"
  | pa6 => "PA6"
  | pa4 => "PA4"
  | pb3 => "PB3"
  | pb2 => "PB2"
  | pc3 => "PC3"
  | pc1 => "PC1"
  | pc0 => "PC0"
  | usartTx => "USART_TX"
  | usartRx => "USART_RX"

def object : Pin → String
  | pa7 => "gpio_ext_pa7"
  | pa6 => "gpio_ext_pa6"
  | pa4 => "gpio_ext_pa4"
  | pb3 => "gpio_ext_pb3"
  | pb2 => "gpio_ext_pb2"
  | pc3 => "gpio_ext_pc3"
  | pc1 => "gpio_ext_pc1"
  | pc0 => "gpio_ext_pc0"
  | usartTx => "gpio_usart_tx"
  | usartRx => "gpio_usart_rx"

def symbol (pin : Pin) : C.Expr := .unary .address (.name pin.object)

def isAnalog : Pin → Bool
  | pa7 | pa6 | pa4 | pc3 | pc1 | pc0 => true
  | pb3 | pb2 | usartTx | usartRx => false

def pwm? : Pin → Option PwmOutput
  | pa7 => some .timer1
  | pa4 => some .lowPowerTimer2
  | _ => none

/-- Whether the pin belongs to the serial line. -/
def isSerial : Pin → Bool
  | usartTx | usartRx => true
  | _ => false

def default : Pin := pa7

/-- The pin among those given whose name the selector spells in any case. -/
def find? (pins : List Pin) (selector : Option String) : Option Pin :=
  selector.bind fun text => pins.find? fun pin => Text.sameLetters pin.name (Text.trim text)

/-- A pin for general use; the serial ones are not among them. -/
def general (selector : Option String) : Pin :=
  (find? (all.filter fun pin => !pin.isSerial) selector).getD default

/-- A pin for measuring distances, which may be a serial one. -/
def ranging (selector : Option String) (otherwise : String) : Pin :=
  ((find? all selector).or (find? all (some otherwise))).getD default

end Pin

inductive PinMode where
  | input
  | output
  | analog
  deriving DecidableEq

namespace PinMode

def ofSelector (selector : Option String) : PinMode :=
  match selector.map Text.trim with
  | some "OUTPUT" => output
  | some "ANALOG" => analog
  | _ => input

def symbol : PinMode → String
  | input => "GpioModeInput"
  | output => "GpioModeOutputPushPull"
  | analog => "GpioModeAnalog"

def describe : PinMode → String
  | input => "digital input"
  | output => "digital output"
  | analog => "analog input"

end PinMode

/-- The resistor inside a pin. -/
inductive Pull where
  | none
  | up
  | down
  deriving DecidableEq

namespace Pull

def ofSelector (selector : Option String) : Pull :=
  match selector.map Text.trim with
  | some "UP" => up
  | some "DOWN" => down
  | _ => none

def symbol : Pull → String
  | none => "GpioPullNo"
  | up => "GpioPullUp"
  | down => "GpioPullDown"

end Pull

structure PinSetup where
  pin : Pin
  mode : PinMode
  pull : Pull := .none
  deriving DecidableEq

def PinSetup.line (setup : PinSetup) : C.Line :=
  .run (.call "furi_hal_gpio_init"
    [setup.pin.symbol, .name setup.mode.symbol, .name setup.pull.symbol,
      .name "GpioSpeedVeryHigh"])

/-- A two-wire bus of the board. -/
inductive Bus where
  | connector
  | power
  deriving DecidableEq

namespace Bus

/-- The bus that a selector names: `EXT`, in any case, is the one on the connector, and anything
else is the internal one. -/
def ofSelector : Option String → Bus
  | some selector => if Text.sameLetters (Text.trim selector) "EXT" then connector else power
  | none => power

def index : Bus → Nat
  | connector => 0
  | power => 1

end Bus

end FlipperBlocks
