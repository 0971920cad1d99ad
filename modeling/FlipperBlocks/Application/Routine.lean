import FlipperBlocks.Feature

/-! Headers and routines that come with features, and the texts of the routines. -/
namespace FlipperBlocks.Application

/-- Whether something that comes with any of these features is needed. With no feature to come with,
it always is. -/
def isWanted (wantedBy : List Feature) (features : Features) : Bool :=
  wantedBy.isEmpty || features.hasAny wantedBy

structure Header where
  wantedBy : List Feature
  name : String

/-- A routine, under the name of the function that programs call, with the rows of its text. -/
structure Routine where
  wantedBy : List Feature
  name : String
  rows : List String

namespace Routine

/-! Files. -/


/-- The rows of a function that opens a file for some steps. -/
def onFile (opening : String) (steps : List String) : List String :=
  [opening,
    "    Storage* storage = furi_record_open(RECORD_STORAGE);",
    "    File* file = storage_file_alloc(storage);"] ++
  steps ++
  ["",
    "    storage_file_close(file);",
    "    storage_file_free(file);",
    "    furi_record_close(RECORD_STORAGE);",
    "    return success;",
    "\x7d"]

def readFile : Routine where
  wantedBy := [.fileRead]
  name := "storage_simple_read"
  rows := onFile "static bool storage_simple_read(char* buffer, size_t buffer_size, const char* path) \x7b"
    ["    bool success = false;",
      "",
      "    if(storage_file_open(file, path, FSAM_READ, FSOM_OPEN_EXISTING)) \x7b",
      "        size_t bytes_read = storage_file_read(file, buffer, buffer_size - 1);",
      "        buffer[bytes_read] = '\\0';",
      "        success = true;",
      "    \x7d else \x7b",
      "        buffer[0] = '\\0';",
      "    \x7d"]

def writeFile : Routine where
  wantedBy := [.fileWrite]
  name := "storage_simple_write"
  rows := onFile "static bool storage_simple_write(const char* path, const char* data) \x7b"
    ["    bool success = false;",
      "",
      "    if(storage_file_open(file, path, FSAM_WRITE, FSOM_CREATE_ALWAYS)) \x7b",
      "        size_t length = strlen(data);",
      "        success = storage_file_write(file, data, length) == length;",
      "    \x7d"]

def fileExists : Routine where
  wantedBy := [.fileExists]
  name := "storage_simple_exists"
  rows :=
    ["static bool storage_simple_exists(const char* path) \x7b",
      "    Storage* storage = furi_record_open(RECORD_STORAGE);",
      "    bool exists = storage_file_exists(storage, path);",
      "    furi_record_close(RECORD_STORAGE);",
      "    return exists;",
      "\x7d"]

def createFile : Routine where
  wantedBy := [.fileCreate]
  name := "storage_simple_create"
  rows := onFile "static bool storage_simple_create(const char* path) \x7b"
    ["    bool success = storage_file_open(file, path, FSAM_WRITE, FSOM_CREATE_ALWAYS);"]

def deleteFile : Routine where
  wantedBy := [.fileDelete]
  name := "storage_simple_delete"
  rows :=
    ["static bool storage_simple_delete(const char* path) \x7b",
      "    Storage* storage = furi_record_open(RECORD_STORAGE);",
      "    bool success = storage_simply_remove(storage, path);",
      "    furi_record_close(RECORD_STORAGE);",
      "    return success;",
      "\x7d"]

/-! Numbers. -/

def randomRange : Routine where
  wantedBy := [.random]
  name := "random_range"
  rows :=
    ["// Uniform integer in [min, max], rejecting draws that would bias the modulo",
      "static int random_range(int min, int max) \x7b",
      "    if(min > max) \x7b",
      "        int swap = min;",
      "        min = max;",
      "        max = swap;",
      "    \x7d",
      "",
      "    if(min == max) \x7b",
      "        return min;",
      "    \x7d",
      "",
      "    uint32_t range = (uint32_t)(max - min + 1);",
      "    uint32_t limit = UINT32_MAX - (UINT32_MAX % range);",
      "    uint32_t draw;",
      "",
      "    do \x7b",
      "        draw = furi_hal_random_get();",
      "    \x7d while(draw >= limit);",
      "",
      "    return min + (int)(draw % range);",
      "\x7d"]

def extractNumber : Routine where
  wantedBy := [.textToNumber]
  name := "extract_number_from_string"
  rows :=
    ["// First run of digits in the text, or 0 if there is none",
      "static int extract_number_from_string(const char* str) \x7b",
      "    if(!str) return 0;",
      "",
      "    while(*str && (*str < '0' || *str > '9')) \x7b",
      "        str++;",
      "    \x7d",
      "",
      "    if(!*str) return 0;",
      "    return atoi(str);",
      "\x7d"]

/-! Sensors and their power. -/

def readAnalog : Routine where
  wantedBy := [.analog]
  name := "adc_read_raw_on_gpio"
  rows :=
    ["static FuriHalAdcChannel adc_channel_for_gpio(const GpioPin* pin) \x7b",
      "    int32_t number = furi_hal_resources_get_ext_pin_number(pin);",
      "    if(number < 0) return FuriHalAdcChannelNone;",
      "",
      "    const GpioPinRecord* record = furi_hal_resources_pin_by_number((uint8_t)number);",
      "    return record ? record->channel : FuriHalAdcChannelNone;",
      "\x7d",
      "",
      "static uint16_t adc_read_raw_on_channel(",
      "    FuriHalAdcChannel channel,",
      "    FuriHalAdcScale scale,",
      "    FuriHalAdcClock clock,",
      "    FuriHalAdcOversample oversample,",
      "    FuriHalAdcSamplingTime sampling) \x7b",
      "    if(channel == FuriHalAdcChannelNone) return 0;",
      "",
      "    FuriHalAdcHandle* handle = furi_hal_adc_acquire();",
      "    furi_hal_adc_configure_ex(handle, scale, clock, oversample, sampling);",
      "    uint16_t raw = furi_hal_adc_read(handle, channel);",
      "    furi_hal_adc_release(handle);",
      "    return raw;",
      "\x7d",
      "",
      "static uint16_t adc_read_raw_on_gpio(",
      "    const GpioPin* pin,",
      "    FuriHalAdcScale scale,",
      "    FuriHalAdcClock clock,",
      "    FuriHalAdcOversample oversample,",
      "    FuriHalAdcSamplingTime sampling) \x7b",
      "    return adc_read_raw_on_channel(adc_channel_for_gpio(pin), scale, clock, oversample, sampling);",
      "\x7d",
      "",
      "static inline int adc_raw_to_mv_scale(uint16_t raw, FuriHalAdcScale scale) \x7b",
      "    const int scale_mv = (scale == FuriHalAdcScale2500) ? 2500 : 2048;",
      "    int mv = (int)((raw * (long)scale_mv) / 4095L);",
      "    if(mv < 0) mv = 0;",
      "    if(mv > scale_mv) mv = scale_mv;",
      "    return mv;",
      "\x7d"]

def ensurePower : Routine where
  wantedBy := Feature.powered
  name := "power_ensure_5v"
  rows :=
    ["// External sensors are powered from the 5V header",
      "static void power_ensure_5v(void) \x7b",
      "    if(!furi_hal_power_is_otg_enabled() && !furi_hal_power_is_charging()) \x7b",
      "        furi_hal_power_enable_otg();",
      "    \x7d",
      "\x7d"]

def measureDistance : Routine where
  wantedBy := [.distance]
  name := "hc_sr04_measure_cm"
  rows :=
    ["static inline void cycle_counter_enable(void) \x7b",
      "    if(!(DWT->CTRL & DWT_CTRL_CYCCNTENA_Msk)) \x7b",
      "        CoreDebug->DEMCR |= CoreDebug_DEMCR_TRCENA_Msk;",
      "        DWT->CYCCNT = 0;",
      "        DWT->CTRL |= DWT_CTRL_CYCCNTENA_Msk;",
      "    \x7d",
      "\x7d",
      "",
      "static inline float hc_sr04_us_to_cm(uint32_t us) \x7b",
      "    return (float)us / 58.0f;",
      "\x7d",
      "",
      "// Distance in centimeters, or -1 on timeout",
      "static float hc_sr04_measure_cm(const GpioPin* trig, const GpioPin* echo) \x7b",
      "    power_ensure_5v();",
      "    cycle_counter_enable();",
      "",
      "    bool serial_pins = (trig == &gpio_usart_tx) || (trig == &gpio_usart_rx) ||",
      "                       (echo == &gpio_usart_tx) || (echo == &gpio_usart_rx);",
      "    FuriHalSerialHandle* serial = NULL;",
      "    if(serial_pins) \x7b",
      "        serial = furi_hal_serial_control_acquire(FuriHalSerialIdUsart);",
      "    \x7d",
      "",
      "    furi_hal_gpio_write(trig, false);",
      "    furi_hal_gpio_init(trig, GpioModeOutputPushPull, GpioPullNo, GpioSpeedVeryHigh);",
      "    furi_hal_gpio_init(echo, GpioModeInput, GpioPullNo, GpioSpeedVeryHigh);",
      "",
      "    const uint32_t timeout_ms = 50;",
      "    float cm = -1.0f;",
      "",
      "    furi_hal_gpio_write(trig, true);",
      "    furi_delay_us(10);",
      "    furi_hal_gpio_write(trig, false);",
      "",
      "    const uint32_t start = furi_get_tick();",
      "    while((furi_get_tick() - start) < timeout_ms && !furi_hal_gpio_read(echo)) \x7b",
      "    \x7d",
      "",
      "    if(furi_hal_gpio_read(echo)) \x7b",
      "        const uint32_t pulse_start = DWT->CYCCNT;",
      "        while((furi_get_tick() - start) < timeout_ms && furi_hal_gpio_read(echo)) \x7b",
      "        \x7d",
      "        const uint32_t pulse_end = DWT->CYCCNT;",
      "",
      "        uint32_t us = (pulse_end - pulse_start) / furi_hal_cortex_instructions_per_microsecond();",
      "        cm = hc_sr04_us_to_cm(us);",
      "    \x7d",
      "",
      "    if(serial_pins) \x7b",
      "        furi_hal_gpio_init_ex(",
      "            &gpio_usart_tx, GpioModeAltFunctionPushPull, GpioPullUp, GpioSpeedVeryHigh, GpioAltFn7USART1);",
      "        furi_hal_gpio_init_ex(",
      "            &gpio_usart_rx, GpioModeAltFunctionPushPull, GpioPullUp, GpioSpeedVeryHigh, GpioAltFn7USART1);",
      "        if(serial) furi_hal_serial_control_release(serial);",
      "    \x7d",
      "",
      "    return cm;",
      "\x7d"]

def readClimate : Routine where
  wantedBy := [.dht11]
  name := "dht11_read_raw"
  rows :=
    ["// Single-wire DHT11 reader; bits are told apart by comparing high and low pulse lengths",
      "static inline void dht11_line_setup(const GpioPin* pin) \x7b",
      "    furi_hal_gpio_write(pin, true);",
      "    furi_hal_gpio_init(pin, GpioModeOutputOpenDrain, GpioPullUp, GpioSpeedVeryHigh);",
      "\x7d",
      "",
      "static int dht11_read_raw(const GpioPin* pin, uint8_t data[5]) \x7b",
      "    power_ensure_5v();",
      "    dht11_line_setup(pin);",
      "",
      "    furi_hal_gpio_write(pin, false);",
      "    furi_delay_ms(19);",
      "",
      "    __disable_irq();",
      "    furi_hal_gpio_write(pin, true);",
      "",
      "    uint16_t timeout = 0;",
      "    while(!furi_hal_gpio_read(pin)) \x7b",
      "        if(++timeout > 500) \x7b __enable_irq(); return -1; \x7d",
      "    \x7d",
      "    timeout = 0;",
      "    while(furi_hal_gpio_read(pin)) \x7b",
      "        if(++timeout > 500) \x7b __enable_irq(); return -2; \x7d",
      "    \x7d",
      "    while(!furi_hal_gpio_read(pin)) \x7b",
      "        if(++timeout > 500) \x7b __enable_irq(); return -3; \x7d",
      "    \x7d",
      "    timeout = 0;",
      "    while(furi_hal_gpio_read(pin)) \x7b",
      "        if(++timeout > 500) \x7b __enable_irq(); return -4; \x7d",
      "    \x7d",
      "",
      "    for(uint8_t byte = 0; byte < 5; byte++) \x7b",
      "        data[byte] = 0;",
      "        for(int8_t bit = 7; bit >= 0; bit--) \x7b",
      "            uint16_t high = 0, low = 0;",
      "            while(!furi_hal_gpio_read(pin) && low != 65535) low++;",
      "            while(furi_hal_gpio_read(pin) && high != 65535) high++;",
      "            if(high > low) data[byte] |= (1u << bit);",
      "        \x7d",
      "    \x7d",
      "",
      "    __enable_irq();",
      "",
      "    if(((uint8_t)(data[0] + data[1] + data[2] + data[3])) != data[4]) return -5;",
      "    return 0;",
      "\x7d",
      "",
      "// Degrees Celsius, or -99 if the sensor did not answer",
      "static inline int dht11_read_temperature_c(const GpioPin* pin) \x7b",
      "    uint8_t data[5] = \x7b0\x7d;",
      "    if(dht11_read_raw(pin, data) != 0) return -99;",
      "",
      "    int temp = (int)data[2];",
      "    if((data[3] & 0x80) && (data[3] & 0x7F)) \x7b",
      "        temp = -(temp + 1);",
      "    \x7d else if(data[3] & 0x80) \x7b",
      "        temp = -temp;",
      "    \x7d",
      "    return temp;",
      "\x7d",
      "",
      "// Relative humidity in percent, or -1 if the sensor did not answer",
      "static inline int dht11_read_humidity_percent(const GpioPin* pin) \x7b",
      "    uint8_t data[5] = \x7b0\x7d;",
      "    if(dht11_read_raw(pin, data) != 0) return -1;",
      "    return (int)data[0];",
      "\x7d"]

/-! Servos. -/

def servoTimer1 : Routine where
  wantedBy := [.servoTimer1]
  name := "servo_custom_pwm_set_params"
  rows :=
    ["// Servo angle to TIM1 compare at 50Hz (about 3% to 13% duty)",
      "static inline uint32_t servo_angle_to_compare(uint8_t angle) \x7b",
      "    const uint32_t min_compare = 1920;",
      "    const uint32_t max_compare = 8320;",
      "    if(angle >= 180) return max_compare;",
      "    return min_compare + ((uint32_t)angle * (max_compare - min_compare)) / 180u;",
      "\x7d",
      "",
      "static void servo_custom_pwm_set_params(uint32_t freq, uint32_t compare) \x7b",
      "    if(freq == 0) return;",
      "",
      "    uint32_t freq_div = 64000000UL / freq;",
      "    uint32_t prescaler = freq_div / 0x10000UL;",
      "    uint32_t period = freq_div / (prescaler + 1UL);",
      "    if(period == 0) period = 1;",
      "",
      "    LL_TIM_SetPrescaler(TIM1, prescaler);",
      "    LL_TIM_SetAutoReload(TIM1, period - 1);",
      "    LL_TIM_OC_SetCompareCH1(TIM1, compare);",
      "\x7d"]

def servoLowPower : Routine where
  wantedBy := [.servoLowPower]
  name := "servo_lptim2_set_params"
  rows :=
    ["// Servo angle to an LPTIM2 compare for 500us to 2400us pulses in a 20ms period",
      "static inline uint32_t servo_angle_to_lptim_compare(uint8_t angle, uint32_t period_ticks) \x7b",
      "    const uint32_t min_us = 500;",
      "    const uint32_t max_us = 2400;",
      "    if(angle > 180) angle = 180;",
      "",
      "    uint32_t pulse_us = min_us + ((uint32_t)angle * (max_us - min_us)) / 180u;",
      "    return (pulse_us * period_ticks) / 20000u;",
      "\x7d",
      "",
      "static void servo_lptim2_set_params(uint32_t freq_hz, uint32_t compare) \x7b",
      "    if(freq_hz == 0) return;",
      "",
      "    uint32_t period_ticks = LL_LPTIM_GetAutoReload(LPTIM2);",
      "    if(period_ticks == 0) return;",
      "    if(compare >= period_ticks) compare = period_ticks - 1;",
      "",
      "    LL_LPTIM_SetAutoReload(LPTIM2, period_ticks);",
      "    LL_LPTIM_SetCompare(LPTIM2, compare);",
      "\x7d"]

/-! Devices on the two-wire buses. -/

def resolveBus : Routine where
  wantedBy := [.bus]
  name := "_resolve_i2c_handle"
  rows :=
    ["// Bus 0 is the external header (PC0 SCL, PC1 SDA), bus 1 the internal power bus",
      "static inline const FuriHalI2cBusHandle* _resolve_i2c_handle(int bus) \x7b",
      "    return bus == 0 ? &furi_hal_i2c_handle_external : &furi_hal_i2c_handle_power;",
      "\x7d"]

/-- The rows of a function that acquires a bus for one action. -/
def onBus (opening : List String) (action : String) : List String :=
  opening ++
  ["    const FuriHalI2cBusHandle* handle = _resolve_i2c_handle(bus);",
    "    furi_hal_i2c_acquire(handle);",
    action,
    "    furi_hal_i2c_release(handle);",
    "    return ok;",
    "\x7d"]

def readRegister8 : Routine where
  wantedBy := [.busRead8]
  name := "kb_i2c_read_reg8"
  rows := onBus
    ["static bool kb_i2c_read_reg8(int bus, uint8_t addr7, uint8_t reg, uint8_t* out, uint32_t timeout) \x7b"]
    "    bool ok = furi_hal_i2c_read_reg_8(handle, (uint8_t)(addr7 << 1), reg, out, timeout);"

def writeRegister8 : Routine where
  wantedBy := [.busWrite8]
  name := "kb_i2c_write_reg8"
  rows := onBus
    ["static bool kb_i2c_write_reg8(int bus, uint8_t addr7, uint8_t reg, uint8_t value, uint32_t timeout) \x7b"]
    "    bool ok = furi_hal_i2c_write_reg_8(handle, (uint8_t)(addr7 << 1), reg, value, timeout);"

def readRegister16 : Routine where
  wantedBy := [.busRead16]
  name := "kb_i2c_read_reg16"
  rows := onBus
    ["static bool kb_i2c_read_reg16(int bus, uint8_t addr7, uint8_t reg, uint16_t* out, uint32_t timeout) \x7b"]
    "    bool ok = furi_hal_i2c_read_reg_16(handle, (uint8_t)(addr7 << 1), reg, out, timeout);"

def writeRegister16 : Routine where
  wantedBy := [.busWrite16]
  name := "kb_i2c_write_reg16"
  rows := onBus
    ["static bool kb_i2c_write_reg16(int bus, uint8_t addr7, uint8_t reg, uint16_t value, uint32_t timeout) \x7b"]
    "    bool ok = furi_hal_i2c_write_reg_16(handle, (uint8_t)(addr7 << 1), reg, value, timeout);"

def writeMemory : Routine where
  wantedBy := [.busWriteBytes]
  name := "kb_i2c_write_mem_bytes"
  rows := onBus
    ["static bool kb_i2c_write_mem_bytes(",
      "    int bus,",
      "    uint8_t addr7,",
      "    uint8_t start,",
      "    const uint8_t* data,",
      "    size_t length,",
      "    uint32_t timeout) \x7b"]
    "    bool ok = furi_hal_i2c_write_mem(handle, (uint8_t)(addr7 << 1), start, data, length, timeout);"

def readMemory : Routine where
  wantedBy := [.busReadBytes]
  name := "kb_i2c_read_mem_bytes"
  rows := onBus
    ["static bool kb_i2c_read_mem_bytes(",
      "    int bus,",
      "    uint8_t addr7,",
      "    uint8_t start,",
      "    uint8_t* data,",
      "    size_t length,",
      "    uint32_t timeout) \x7b"]
    "    bool ok = furi_hal_i2c_read_mem(handle, (uint8_t)(addr7 << 1), start, data, length, timeout);"

def deviceReady : Routine where
  wantedBy := [.busReady]
  name := "kb_i2c_device_ready"
  rows := onBus
    ["static bool kb_i2c_device_ready(int bus, uint8_t addr7, uint32_t timeout) \x7b"]
    "    bool ok = furi_hal_i2c_is_device_ready(handle, (uint8_t)(addr7 << 1), timeout);"

end Routine

end FlipperBlocks.Application
