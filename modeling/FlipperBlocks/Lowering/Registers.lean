import FlipperBlocks.Lowering.Bytes

/-! Devices on the two-wire buses: registers and memory. -/
namespace FlipperBlocks.Lowering

open C (Code Expr)

variable (site : Site)

/-- What every transfer needs: the bus, the address of the device and how long to wait for it. -/
structure Transfer where
  bus : Bus
  address : Expr
  timeout : Expr

namespace Transfer

def ofSite : Lowering Transfer := do
  let address ← site.numeric "ADDR" "0x00"
  let timeout ← site.numeric "TIMEOUT" "50"
  return ⟨.ofSelector (site.head.field? "BUS"), address.expr, timeout.expr⟩

def busNumber (transfer : Transfer) : Expr := .ofNat transfer.bus.index

def device (transfer : Transfer) : List Expr := [transfer.busNumber, .castGroup "uint8_t" transfer.address]

/-- The time to wait as an argument of a call. -/
def patience (transfer : Transfer) : Expr := .castGroup "uint32_t" transfer.timeout

/-- A call on a device with arguments of its own between the device and the time to wait. -/
def call (transfer : Transfer) (function : String) (arguments : List Expr) : Expr :=
  .call function (transfer.device ++ arguments ++ [transfer.patience])

end Transfer

def byteArgument (e : Expr) : Expr := .castGroup "uint8_t" e

def deviceReady : Lowering Value := do
  let transfer ← Transfer.ofSite site
  enable [.bus, .busReady]
  return ⟨transfer.call "kb_i2c_device_ready" [], .truth, none⟩

inductive RegisterWidth where
  | eight
  | sixteen
  deriving DecidableEq

namespace RegisterWidth

def reader : RegisterWidth → String
  | eight => "kb_i2c_read_reg8"
  | sixteen => "kb_i2c_read_reg16"

def writer : RegisterWidth → String
  | eight => "kb_i2c_write_reg8"
  | sixteen => "kb_i2c_write_reg16"

def stem : RegisterWidth → String
  | eight => "i2c_reg8"
  | sixteen => "i2c_reg16"

def storageType : RegisterWidth → StorageType
  | eight => .unsigned8
  | sixteen => .unsigned16

def typeName : RegisterWidth → String
  | eight => "uint8_t"
  | sixteen => "uint16_t"

def readFeature : RegisterWidth → Feature
  | eight => .busRead8
  | sixteen => .busRead16

def writeFeature : RegisterWidth → Feature
  | eight => .busWrite8
  | sixteen => .busWrite16

end RegisterWidth

def slotKey (parts : List String) : String := ":".intercalate parts

/-- Reads a register. Reads that are written alike share their storage. -/
def readRegister (width : RegisterWidth) (site : Site) : Lowering Value := do
  let transfer ← Transfer.ofSite site
  let register ← site.numeric "REG" "0x00"
  enable [.bus, width.readFeature]
  let key := slotKey [width.stem, toString transfer.bus.index, transfer.address.code,
    register.code, transfer.timeout.code]
  let storage ← readSlot key width.stem width.storageType
  deferred
    (transfer.call width.reader [byteArgument register.expr, .unary .address storage.place])
    ⟨storage.place, .number, none⟩

def writeRegister (width : RegisterWidth) (site : Site) : Lowering Code := do
  let transfer ← Transfer.ofSite site
  let register ← site.numeric "REG" "0x00"
  let value ← site.numeric "VALUE" "0"
  enable [.bus, width.writeFeature]
  return Code.run (transfer.call width.writer
    [byteArgument register.expr, .castGroup width.typeName value.expr])

/-- The length of a block of memory to read: from one byte to sixty-four. -/
def blockLength (value : Value) : Nat := (max 1 (min 64 (value.integer?.getD 1))).toNat

/-- Reads a block of memory. Reads that are written alike share their array. -/
def readBytes : Lowering Value := do
  let transfer ← Transfer.ofSite site
  let memory ← site.numeric "MEM" "0x00"
  let length := blockLength (← site.number "LEN" "1")
  enable [.bus, .busReadBytes]
  let key := slotKey ["i2c_read_bytes", toString transfer.bus.index, transfer.address.code,
    memory.code, toString length, transfer.timeout.code]
  let array ← namedSlot key "i2c_read_bytes" (.bytes length none)
  deferred
    (transfer.call "kb_i2c_read_mem_bytes" [byteArgument memory.expr, .name array, .ofNat length])
    (.bytes array)

def writeBytes : Lowering Code := do
  match ← streamIn? site "DATA" with
  | some stream =>
    let transfer ← Transfer.ofSite site
    let memory ← site.numeric "MEM" "0x00"
    enable [.bus, .busWriteBytes]
    return Code.ofLines (stream.read.toList.map .run) ++
      Code.run (transfer.call "kb_i2c_write_mem_bytes"
        [byteArgument memory.expr, .name stream.array, .sizeOf (.name stream.array)])
  | none => return Code.comment "I2C write bytes: DATA is not a byte stream"

/-- Replaces the bits of a register under a mask, the value being moved to the lowest bit of the
mask. -/
def replaceBits (transfer : Transfer) (register mask value : Expr) : Code :=
  let label (text : String) : Expr := .name text
  let set (text : String) (e : Expr) : C.Line := .run (.assign .set (label text) e)
  let declare (text : String) (e : Expr) : C.Line := .run (.declare "uint8_t" text e)
  let shift : Code :=
    Code.framed
      (.openWhile (.binary .equal (.group (.binary .bitAnd (label "_t") (.number "1u"))) (.number "0u")))
      (Code.ofLines
        [.run (.assign .shiftRight (label "_t") (.number "1")),
          .run (.increment (label "_shift"))])
  let moved : Expr := .binary .bitAnd (.group (.binary .shiftLeft (label "_v") (label "_shift"))) (label "_m")
  let kept : Expr := .binary .bitAnd (label "_tmp") (byteArgument (.unary .complement (label "_m")))
  Code.framed .openBlock <|
    Code.line (.reserve "uint8_t" "_tmp") ++
    Code.framed
      (.openIf (transfer.call "kb_i2c_read_reg8" [byteArgument register, .unary .address (label "_tmp")]))
      (Code.line (declare "_m" (byteArgument mask)) ++
        Code.framed (.openIf (label "_m"))
          (Code.ofLines
            [declare "_v" (byteArgument value),
              declare "_shift" (.number "0"),
              declare "_t" (label "_m")] ++
            shift ++
            Code.ofLines
              [set "_v" (byteArgument moved),
                set "_tmp" (byteArgument (.binary .bitOr (.group kept) (label "_v"))),
                .run (transfer.call "kb_i2c_write_reg8" [byteArgument register, label "_tmp"])]))

def updateBits : Lowering Code := do
  let transfer ← Transfer.ofSite site
  let register ← site.numeric "REG" "0x00"
  let mask ← site.numeric "MASK" "0"
  let value ← site.numeric "VALUE" "0"
  enable [.bus, .busRead8, .busWrite8]
  return replaceBits transfer register.expr mask.expr value.expr

end FlipperBlocks.Lowering
