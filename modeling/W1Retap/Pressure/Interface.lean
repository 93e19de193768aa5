import W1Retap.Sensors.Readers

/-!
# The TAI8570 interface of `pressure.c`

A pressure sensor hangs between two DS2406 switches, of which one sends it commands and
the other reads it. The functions of the 1-wire library that work on single bytes and on
the files of a switch are a parameter: a `Wire` answers every call from a bus state of any
type. What the file keeps between two calls is in its static variables, which all
pressure sensors share.
-/
namespace W1Retap.Tai8570

/-- The calls that `pressure.c` and `swt12.c` make. `owSerialNum` selects a device; `none` is a
failed `owBlock` or `owOpenFile`. `owReadFile` gives the first eight bytes of the caller's buffer
afterwards, whether or not the call worked. -/
structure Wire (σ : Type) where
  owSerialNum : Serno → σ → σ
  owAccess : σ → Bool × σ
  owBlock {k : ℕ} : Vector UInt8 k → σ → Option (Vector UInt8 k) × σ
  owTouchByte : UInt8 → σ → UInt8 × σ
  owTouchBit : Bool → σ → Bool × σ
  owReadByte : σ → UInt8 × σ
  owWriteByte : UInt8 → σ → σ
  owOpenFile : Serno → CString → σ → Option Int × σ
  owReadFile : Serno → Int → σ → Serno × σ
  owCloseFile : Serno → Int → σ → σ

/-- The coefficients `C1` to `C6`. -/
structure Coefficients where
  c1 : ℕ := 0
  c2 : ℕ := 0
  c3 : ℕ := 0
  c4 : ℕ := 0
  c5 : ℕ := 0
  c6 : ℕ := 0
  deriving DecidableEq, Repr

/-- The static variables of the file, and the bus. A role of -1 indexes the bytes in
memory before `SwitchSN`, which are `below`. -/
structure Statics (σ : Type) where
  bus : σ
  below : Serno
  switchSN : Vector Serno 2 := Vector.replicate 2 (Vector.replicate 8 0)
  reader : Int := -1
  writer : Int := 0
  coeffs : Coefficients := {}
  d1 : ℕ := 0
  d2 : ℕ := 0

/-- `SwitchSN[i]` -/
def Statics.switch {σ : Type} (p : Statics σ) (i : Int) : Serno :=
  if i = 0 then p.switchSN[0] else if i = 1 then p.switchSN[1] else p.below

/-- A function of `pressure.c`. -/
abbrev PM (σ : Type) := StateM (Statics σ)

/-- A library call. -/
def Statics.call {σ α : Type} (f : σ → α × σ) (p : Statics σ) : α × Statics σ :=
  let r := f p.bus
  (r.1, { p with bus := r.2 })

/-- A library call whose result nobody reads. -/
def Statics.send {σ : Type} (f : σ → σ) (p : Statics σ) : Unit × Statics σ :=
  ((), { p with bus := f p.bus })

/-! ## Checksums -/

def oddparity : Vector Bool 16 := #v[false, true, true, false, true, false, false, true,
  true, false, false, true, false, true, true, false]

/-- `docrc16`, from the checksum so far. -/
def docrc16 (crc cdata : UInt16) : UInt16 :=
  let cdata := (cdata ^^^ (crc &&& 0xff)) &&& 0xff
  let crc := crc >>> 8
  let crc :=
    if oddparity[(cdata &&& 0xf).toNat]? = oddparity[(cdata >>> 4).toNat]? then crc
    else crc ^^^ 0xc001
  let cdata := cdata <<< 6
  let crc := crc ^^^ cdata
  crc ^^^ (cdata <<< 1)

/-- `docrc16` for each byte of a list, after `setcrc16 (portnum, 0)` -/
def crc16 (bytes : List UInt8) : UInt16 :=
  bytes.foldl (fun crc b => docrc16 crc b.toUInt16) 0

section
variable {σ : Type} (wire : Wire σ)

/-! ## Switches -/

/-- `ReadSwitch12 (portnum, false)`: the info byte, or -1. -/
def readSwitch12 : PM σ Int := do
  if ← Statics.call wire.owAccess then
    match ← Statics.call (wire.owBlock #v[0xF5, 0x55, 0xFF, 0xFF, 0xFF, 0xFF, 0xFF]) with
    | some transfer =>
      if crc16 ([0xF5, 0x55, 0xFF] ++ transfer.toList.drop 3) = 0xB001 then
        return (transfer[3].toNat : Int)
      else return -1
    | none => return -1
  else return -1

def writeSwitch12 (serialNum : Serno) (st : UInt8) : PM σ Bool := do
  Statics.send (wire.owSerialNum serialNum)
  if ← Statics.call wire.owAccess then
    match ← Statics.call (wire.owBlock #v[0x55, 0x07, 0x00, st, 0xFF, 0xFF]) with
    | some block => return crc16 ([0x55, 0x07, 0x00, st] ++ block.toList.drop 4) = 0xB001
    | none => return false
  else return false

/-- The loop of `OpenA` and `OpenB`: `set` is the bit of the channel, `keep` the others. The
last round ends the function as well when it finds the switch closed. -/
def openChannel (set keep : UInt8) (serialNum : Serno) : ℕ → PM σ Bool
  | 0 => pure false
  | ind + 1 => do
    Statics.send (wire.owSerialNum serialNum)
    let i ← readSwitch12 wire
    let _ ← writeSwitch12 wire serialNum (UInt8.ofInt i ||| set)
    let i ← readSwitch12 wire
    if UInt8.ofInt i &&& keep ≠ 0 then return true else openChannel set keep serialNum ind

def openA (serialNum : Serno) : PM σ Bool := openChannel wire 0x20 0xDF serialNum 5

def openB (serialNum : Serno) : PM σ Bool := openChannel wire 0x40 0xBF serialNum 5

/-- Both switches, reader first. -/
def openPios (openPio : Serno → PM σ Bool) : PM σ Bool := do
  let p ← get
  if ← openPio (p.switch p.reader) then openPio (p.switch p.writer) else return false

def openPiosA : PM σ Bool := openPios (openA wire)

def openPiosB : PM σ Bool := openPios (openB wire)

/-- `ChannelAccess`; no caller reads the info byte. -/
def channelAccess (serialNum : Serno) (aChanC1 aChanC2 : UInt8) : PM σ Bool := do
  Statics.send (wire.owSerialNum serialNum)
  if ← Statics.call wire.owAccess then
    let _ ← Statics.call (wire.owTouchByte 0xF5)
    let _ ← Statics.call (wire.owTouchByte aChanC1)
    let _ ← Statics.call (wire.owTouchByte aChanC2)
    let _ ← Statics.call (wire.owTouchByte 0xFF)
    return true
  else return false

def cfgRead : UInt8 := 0xEC
def cfgWrite : UInt8 := 0x8C
def cfgReadpulse : UInt8 := 0xC8

def configWrite : PM σ Bool := do
  let p ← get
  channelAccess wire (p.switch p.writer) cfgWrite 0xFF

def configRead : PM σ Bool := do
  let p ← get
  channelAccess wire (p.switch p.reader) cfgRead 0xFF

def configReadPulse : PM σ Bool := do
  let p ← get
  channelAccess wire (p.switch p.reader) cfgReadpulse 0xFF

/-! ## Bits -/

def sendPressureBit (i : Bool) : PM σ Unit := do
  let _ ← Statics.call (wire.owTouchByte (if i then 0x0e else 0x04))

/-- `WritePressureSensor`: the command and a final 0. -/
def writePressureSensor (cmd : CString) : PM σ Bool := do
  if ← configWrite wire then
    cmd.forM fun c => sendPressureBit wire (c != '0')
    sendPressureBit wire false
    return true
  else return false

def readPressureBit : PM σ Bool := do
  let res ← Statics.call wire.owReadByte
  Statics.send (wire.owWriteByte 0xfa)
  return res &&& 0x80 != 0

def readPressureBits : ℕ → PM σ CString
  | 0 => pure []
  | count + 1 => do
    let c := if ← readPressureBit wire then '1' else '0'
    return c :: (← readPressureBits count)

/-- `ReadPressureSensor`; an empty string when the reader cannot be accessed. -/
def readPressureSensor (count : ℕ) : PM σ CString := do
  if ← configRead wire then readPressureBits wire count else return []

/-- The loop of `CheckConversion`: wait for a 0 on the bus. -/
def awaitLow : ℕ → PM σ Bool
  | 0 => pure false
  | i + 1 => do if ← Statics.call (wire.owTouchBit true) then awaitLow i else return true

def checkConversion : PM σ Bool := do
  if ← configReadPulse wire then awaitLow wire 100 else return false

/-! ## Readings -/

def secReadw1 : CString := "111010101000".toList
def secReadw2 : CString := "111010110000".toList
def secReadw3 : CString := "111011001000".toList
def secReadw4 : CString := "111011010000".toList
def secReadd1 : CString := "11110100000".toList
def secReadd2 : CString := "11110010000".toList
def secReset : CString := "101010101010101000000".toList

def pressureReset : PM σ Bool := do
  if ← openPiosA wire then
    if ← configWrite wire then writePressureSensor wire secReset else return false
  else return false

/-- The bits of `Lect`, most significant first. -/
def lectValue (lect : CString) : ℕ :=
  lect.foldl (fun res c => if c = '1' then (res <<< 1) + 1 else res <<< 1) 0

/-- `ReadSensorValue`, with `none` for each `return 0` on a failure. -/
def sensorValue (comm : CString) : PM σ (Option ℕ) := do
  if !(← pressureReset wire) then return none
  if !(← writePressureSensor wire comm) then return none
  if !(← checkConversion wire) then return none
  if !(← openPiosA wire) then return none
  let lect ← readPressureSensor wire 16
  if !(← openPiosB wire) then return none
  if lect.length ≠ 16 then return none
  return some (lectValue lect)

def readSensorValue (comm : CString) : PM σ ℕ := do return (← sensorValue wire comm).getD 0

/-- `ReadPressureValues`: temperature and pressure. -/
def readPressureValues : PM σ (Option (ℚ × ℚ)) := do
  let d1 ← readSensorValue wire secReadd1
  modify fun p => { p with d1 }
  let d2 ← readSensorValue wire secReadd2
  modify fun p => { p with d2 }
  let c := (← get).coeffs
  let dt : ℚ := d2 - ((8 * c.c5 : ℕ) + 20224)
  let off : ℚ := (c.c2 * 4 : ℕ) + (((c.c4 : Int) - 512 : Int) * dt) / 4096
  let sense : ℚ := (24576 + c.c1 : ℕ) + (c.c3 * dt) / 1024
  let x : ℚ := (sense * ((d1 : Int) - 7168 : Int)) / 16384 - off
  return some (20 + (dt * (c.c6 + 50 : ℕ)) / 10240, 250 + x / 32)

/-! ## Calibration -/

/-- `SW1` to `SW4` -/
structure Words where
  sw1 : CString := ['0']
  sw2 : CString := ['0']
  sw3 : CString := ['0']
  sw4 : CString := ['0']
  deriving DecidableEq, Repr

/-- `ReadSensorValueStr`, giving what it leaves in `Lect`. -/
def readSensorValueStr (cmd : CString) : PM σ CString := do
  if !(← openPiosA wire) then return []
  if !(← writePressureSensor wire cmd) then return []
  if !(← openPiosA wire) then return []
  let lect ← readPressureSensor wire 16
  let _ ← openPiosB wire
  return lect

/-- One pass of the loop of `ReadSensor_Calibration`; `none` is its `return false`. -/
def readWords : PM σ (Option Words) := do
  if !(← pressureReset wire) then return none
  let sw1 ← readSensorValueStr wire secReadw1
  let sw2 ← readSensorValueStr wire secReadw2
  let sw3 ← readSensorValueStr wire secReadw3
  let sw4 ← readSensorValueStr wire secReadw4
  if sw1.length ≠ 16 then return none
  if sw2.length ≠ 16 then return none
  if sw3.length ≠ 16 then return none
  if sw4.length ≠ 16 then return none
  return some { sw1, sw2, sw3, sw4 }

/-- The passes that are left, after one that read `last`; the words of the last pass made. -/
def readPasses : ℕ → Words → PM σ (Option Words)
  | 0, last => return some last
  | count + 1, last => do
    match ← readWords wire with
    | some sw => if sw = last then return some sw else readPasses count sw
    | none => return none

/-- `i` from `hi` down to `lo` -/
def downFrom (hi lo : ℕ) : List ℕ := ((List.range (hi + 1)).drop lo).reverse

/-- `if (sw[i] == '1') c = c | (uno << k)` -/
def orBit (sw : CString) (i k c : ℕ) : ℕ := if sw[i]? = some '1' then c ||| (1 <<< k) else c

/-- A decoding loop for `i` from `hi` down to `lo`, whose shift is `hi - i`. -/
def orBits (sw : CString) (hi lo c : ℕ) : ℕ :=
  (downFrom hi lo).foldl (fun c i => orBit sw i (hi - i) c) c

/-- A decoding loop whose shift is the counter `im`. -/
def orCounted (sw : CString) (hi lo : ℕ) (r : ℕ × ℕ) : ℕ × ℕ :=
  (downFrom hi lo).foldl (fun r i => (orBit sw i r.2 r.1, r.2 + 1)) r

/-- The loops at the end of `ReadSensor_Calibration`. -/
def Words.decode (sw : Words) : Coefficients where
  c1 := orBits sw.sw1 14 0 0
  c2 := (orCounted sw.sw3 15 10 (orCounted sw.sw4 15 10 (0, 0))).1
  c3 := orBits sw.sw4 9 0 0
  c4 := orBits sw.sw3 9 0 0
  c5 := orBit sw.sw1 15 10 (orBits sw.sw2 9 0 0)
  c6 := orBits sw.sw2 15 10 0

def readSensorCalibration : PM σ Bool := do
  match ← readPasses wire 5 {} with
  | some sw =>
    modify fun p => { p with coeffs := sw.decode }
    return true
  | none => return false

/-! ## Initialisation -/

/-- One round of the loop of `find_press_roles`: the second switch is named in a file of the
first, whose info byte tells which of them reads. -/
def findRoles (serno : Serno) : PM σ Bool := do
  modify fun p => { p with reader := -1, writer := -1, switchSN := p.switchSN.set 0 serno }
  Statics.send (wire.owSerialNum serno)
  match ← Statics.call (wire.owOpenFile serno "8570".toList) with
  | some hnd =>
    let buf ← Statics.call (wire.owReadFile serno hnd)
    Statics.send (wire.owSerialNum serno)
    Statics.send (wire.owCloseFile serno hnd)
    let info ← readSwitch12 wire
    if info = -1 then
      return false
    else
      let reader : Int := if UInt8.ofInt info &&& 0x80 = 0 then 0 else 1
      modify fun p => { p with reader, writer := 1 - reader, switchSN := p.switchSN.set 1 buf }
      return true
  | none => return false

def findPressRoles (serno : Serno) : PM σ Bool := do
  if ← findRoles wire serno then return true else findRoles wire serno

def initPressure (serno : Serno) : PM σ Bool := do
  if ← findPressRoles wire serno then readSensorCalibration wire else return false

/-- The 1-wire library with the pressure sensors of `pressure.c`. -/
def driver (drv : Driver σ) : Driver (Statics σ) where
  owAcquireEx iface := Statics.call (drv.owAcquireEx iface)
  owRelease portnum p := (Statics.send (drv.owRelease portnum) p).2
  setSwitch1F serno lines := Statics.call (drv.setSwitch1F serno lines)
  owSearch family serno := Statics.call (drv.owSearch family serno)
  readTemperature serno scan := Statics.call (drv.readTemperature serno scan)
  readCounter serno page := Statics.call (drv.readCounter serno page)
  setupAtoDControl serno := Statics.call (drv.setupAtoDControl serno)
  writeAtoD serno control := Statics.call (drv.writeAtoD serno control)
  doAtoDConversion serno := Statics.call (drv.doAtoDConversion serno)
  readAtoDResults serno control := Statics.call (drv.readAtoDResults serno control)
  readAtoD vdd serno := Statics.call (drv.readAtoD vdd serno)
  readVsens serno := Statics.call (drv.readVsens serno)
  getTemperature serno := Statics.call (drv.getTemperature serno)
  readSHT11 serno := Statics.call (drv.readSHT11 serno)
  initPressure serno := initPressure wire serno
  readPressureValues := readPressureValues wire
  readDS2760 serno := Statics.call (drv.readDS2760 serno)
  readDS1923 serno log := Statics.call (drv.readDS1923 serno log)
  readDS1921 serno log := Statics.call (drv.readDS1921 serno log)
  hbuvReadData serno := Statics.call (drv.hbuvReadData serno)
  hbhtReadData serno := Statics.call (drv.hbhtReadData serno)
  exp := drv.exp

end
end W1Retap.Tai8570
