import W1Retap.Model.Machine
import W1Retap.Support.Framing

/-!
# The serial adapter

`owllu.c`, `ds2480ut.c` and `owBlock_` of `owtrnu.c`: the calls of the 1-wire library over a
DS2480 on a serial line. The chip takes bytes as data for the net or as commands, and the library
keeps in `UMode` which of the two it is in. A `Com` answers the calls on the line from everything
that has happened there before, so a result for all of them holds for every line.
-/
namespace W1Retap.Bus.Ds2480

open Framing (Mode)

/-! ## Constants -/

def modeData : UInt8 := 0xE1
def modeCommand : UInt8 := 0xE3
def modeStopPulse : UInt8 := 0xF1

def rbResetMask : UInt8 := 0x03
def rbPresence : UInt8 := 0x01
def rbAlarmpresence : UInt8 := 0x02
def rbBitMask : UInt8 := 0x03
def rbBitOne : UInt8 := 0x03

def cmdComm : UInt8 := 0x81
def cmdConfig : UInt8 := 0x01
def functselBit : UInt8 := 0x00
def functselSearchon : UInt8 := 0x30
def functselSearchoff : UInt8 := 0x20
def functselReset : UInt8 := 0x40
def functselChmod : UInt8 := 0x60
def bitpolOne : UInt8 := 0x10
def bitpolZero : UInt8 := 0x00
def bitpol5V : UInt8 := 0x00
def bitpol12V : UInt8 := 0x10
def speedselFlex : UInt8 := 0x04
def speedselOd : UInt8 := 0x08
def speedselPulse : UInt8 := 0x0C
def prime5VTrue : UInt8 := 0x02
def prime5VFalse : UInt8 := 0x00

def parmselParmread : UInt8 := 0x00
def parmselSlew : UInt8 := 0x10
def parmsel12Vpulse : UInt8 := 0x20
def parmsel5Vpulse : UInt8 := 0x30
def parmselWrite1low : UInt8 := 0x40
def parmselSampleoffset : UInt8 := 0x50
def parmselBaudrate : UInt8 := 0x70
def parmsetSlew1p37Vus : UInt8 := 0x06
def parmsetWrite10us : UInt8 := 0x04
def parmsetSampOff8us : UInt8 := 0x0A
def parmset512us : UInt8 := 0x08
def parmsetInfinite : UInt8 := 0x0E
def parmset9600 : UInt8 := 0x00
def maxBaud : UInt8 := 0x06

def modeNormal : UInt8 := 0x00
def modeOverdrive : UInt8 := 0x01
def modeStrong5 : UInt8 := 0x02
def modeProgram : UInt8 := 0x04

def versionMask : UInt8 := 0x1C
def verLink : UInt8 := 0x1C

/-! ## The line -/

/-- What the library keeps for a port: the state of the chip, and that of the search. `mode` is
`UMode`. -/
structure Port where
  mode : Mode := .data
  baud : UInt8 := 0
  speed : UInt8 := 0
  level : UInt8 := 0
  version : UInt8 := 0
  programAvailable : Bool := false
  serialNum : Serno := Vector.replicate 8 0
  lastDiscrepancy : ℕ := 0
  lastDevice : Bool := false
  lastFamilyDiscrepancy : ℕ := 0
  deriving DecidableEq, Repr

/-- What happens on the line. Of the bytes that are written the first `count` go out. -/
inductive Traffic where
  | wrote (sent : List UInt8) (count : ℕ)
  | read (answer : Option (List UInt8))
  | flush
  | break
  | baud (rate : UInt8)
  | delay (ms : ℕ)
  deriving DecidableEq, Repr

/-- The line: how many bytes of a packet go out, and the bytes that are read, unless there are
too few. -/
structure Com where
  writeCOM : List Traffic → List UInt8 → ℕ
  readCOM : List Traffic → (n : ℕ) → Option (Vector UInt8 n)

/-- A port with what has happened on its line, the latest first. -/
structure Line where
  port : Port := {}
  traffic : List Traffic := []

abbrev PortM := StateM Line

def port : PortM Port := do return (← get).port

def modifyPort (f : Port → Port) : PortM Unit := modify fun l => { l with port := f l.port }

def tell (t : Traffic) : PortM Unit := modify fun l => { l with traffic := t :: l.traffic }

def flushCOM : PortM Unit := tell .flush

def breakCOM : PortM Unit := tell .break

def setBaudCOM (rate : UInt8) : PortM Unit := tell (.baud rate)

def msDelay (ms : ℕ) : PortM Unit := tell (.delay ms)

section
variable (com : Com)

def writeCOM (sent : List UInt8) : PortM Bool := do
  let count := min (com.writeCOM (← get).traffic sent) sent.length
  tell (.wrote sent count)
  return count = sent.length

def readCOM (n : ℕ) : PortM (Option (Vector UInt8 n)) := do
  let answer := com.readCOM (← get).traffic n
  tell (.read (answer.map (·.toList)))
  return answer

/-- `readbuffer[i]` -/
def readbuffer {n : ℕ} (r : Vector UInt8 n) (i : ℕ) : UInt8 := r.toList.getD i 0

/-- Flush the buffers, send a packet and read the response. -/
def transfer (sent : List UInt8) (n : ℕ) : PortM (Option (Vector UInt8 n)) := do
  flushCOM
  if ← writeCOM com sent then readCOM com n else return none

/-- The byte that changes to a mode, unless the port is in it. -/
def changeMode (mode : Mode) (byte : UInt8) : PortM (List UInt8) := do
  if (← port).mode = mode then return []
  else
    modifyPort fun p => { p with mode }
    return [byte]

def commandMode : PortM (List UInt8) := changeMode .command modeCommand

def dataMode : PortM (List UInt8) := changeMode .data modeData

/-! ## `ds2480ut.c` -/

/-- The parameters that `DS2480Detect` sets, and its two tests. -/
def detectPacket : List UInt8 :=
  [cmdConfig ||| parmselSlew ||| parmsetSlew1p37Vus,
    cmdConfig ||| parmselWrite1low ||| parmsetWrite10us,
    cmdConfig ||| parmselSampleoffset ||| parmsetSampOff8us,
    cmdConfig ||| parmselParmread ||| (parmselBaudrate >>> 3),
    cmdComm ||| functselBit ||| parmset9600 ||| bitpolOne]

def ds2480Detect : PortM Bool := do
  modifyPort fun p => { p with mode := .command, baud := parmset9600, speed := speedselFlex }
  setBaudCOM parmset9600
  breakCOM
  msDelay 2
  flushCOM
  if ← writeCOM com [0xC1] then
    msDelay 4
    match ← transfer com detectPacket 5 with
    | some r => return readbuffer r 3 &&& 0xF1 = 0x00 ∧ readbuffer r 3 &&& 0x0E = parmset9600 ∧
        readbuffer r 4 &&& 0xF0 = 0x90 ∧ readbuffer r 4 &&& 0x0C = parmset9600
    | none => return false
  else return false

/-- An error occurred, so re-sync with the chip. -/
def resync {α : Type} (result : α) : PortM α := do
  let _ ← ds2480Detect com
  return result

/-- If communication with the chip is lost, re-sync. -/
def recover (rt : Bool) : PortM Unit := if rt then return () else resync com ()

/-- The new rate is set, and read back. -/
def newBaud (newbaud : UInt8) (command : UInt8) : PortM Bool := do
  msDelay 5
  setBaudCOM newbaud
  modifyPort fun p => { p with baud := newbaud }
  msDelay 5
  match ← transfer com [cmdConfig ||| parmselParmread ||| (parmselBaudrate >>> 3)] 1 with
  | some r => return readbuffer r 0 &&& 0x0E = command &&& 0x0E
  | none => return false

/-- The command goes out, and then the rate is changed on this side. -/
def sendBaud (newbaud : UInt8) (change : List UInt8) : PortM Bool := do
  let command := cmdConfig ||| parmselBaudrate ||| newbaud
  flushCOM
  if ← writeCOM com (change ++ [command]) then newBaud com newbaud command else return false

def ds2480ChangeBaud (newbaud : UInt8) : PortM UInt8 := do
  let p ← port
  if p.baud = newbaud then return p.baud
  else
    let change ← commandMode
    let rt ← sendBaud com newbaud change
    recover com rt
    return (← port).baud

/-! ## `owllu.c` -/

/-- The branch of `owLevel_` that puts the net back to normal. -/
def stopPulse (change : List UInt8) : PortM Bool := do
  match ← transfer com (change ++ [modeStopPulse,
    cmdComm ||| functselChmod ||| speedselPulse ||| bitpol5V ||| prime5VFalse, modeStopPulse]) 2
      with
  | some r =>
    if readbuffer r 0 &&& 0xE0 = 0xE0 ∧ readbuffer r 1 &&& 0xE0 = 0xE0 then
      modifyPort fun p => { p with level := modeNormal }
      return true
    else return false
  | none => return false

/-- The commands that begin a pulse; a level that is none of the two has none. -/
def pulseCommands (newLevel : UInt8) : List UInt8 :=
  if newLevel = modeStrong5 then
    [cmdConfig ||| parmsel5Vpulse ||| parmsetInfinite,
      cmdComm ||| functselChmod ||| speedselPulse ||| bitpol5V]
  else if newLevel = modeProgram then
    [cmdConfig ||| parmsel12Vpulse ||| parmsetInfinite,
      cmdComm ||| functselChmod ||| speedselPulse ||| bitpol12V]
  else []

/-- The branch of `owLevel_` that sets a new level. -/
def startPulse (newLevel : UInt8) (change : List UInt8) : PortM Bool := do
  match ← transfer com (change ++ pulseCommands newLevel) 1 with
  | some r =>
    if readbuffer r 0 &&& 0x81 = 0 then
      modifyPort fun p => { p with level := newLevel }
      return true
    else return false
  | none => return false

def changeLevel (newLevel : UInt8) (change : List UInt8) : PortM Bool :=
  if newLevel = modeNormal then stopPulse com change else startPulse com newLevel change

/-- `owLevel_` on a port with this level and voltage. Where there is no programming voltage it
returns after it has changed `UMode`. -/
def setLevel (p : Port) (newLevel : UInt8) : PortM UInt8 := do
  if newLevel = p.level then return p.level
  else
    let change ← commandMode
    if newLevel = modeProgram ∧ p.programAvailable = false then return modeNormal
    else
      let rt ← changeLevel com newLevel change
      recover com rt
      return (← port).level

def owLevel (newLevel : UInt8) : PortM UInt8 := do setLevel com (← port) newLevel

def owTouchReset : PortM Bool := do
  let _ ← owLevel com modeNormal
  let change ← commandMode
  match ← transfer com (change ++ [cmdComm ||| functselReset ||| (← port).speed]) 1 with
  | some r =>
    if readbuffer r 0 &&& rbResetMask = rbPresence ∨ readbuffer r 0 &&& rbResetMask =
      rbAlarmpresence then
      modifyPort fun p => { p with
        programAvailable := readbuffer r 0 &&& 0x20 = 0x20
        version := readbuffer r 0 &&& versionMask }
      return true
    else resync com false
  | none => resync com false

/-- The command for a single bit. -/
def bitCommand (bit : Bool) (speed : UInt8) : UInt8 :=
  (if bit then bitpolOne else bitpolZero) ||| (cmdComm ||| functselBit ||| speed)

def owTouchBit (sendbit : Int) : PortM Bool := do
  let _ ← owLevel com modeNormal
  let change ← commandMode
  match ← transfer com (change ++ [bitCommand (sendbit ≠ 0) (← port).speed]) 1 with
  | some r => return readbuffer r 0 &&& 0xE0 = 0x80 ∧ readbuffer r 0 &&& rbBitMask = rbBitOne
  | none => resync com false

/-- The byte to send, twice if it looks like the change to command mode. -/
def touchPacket (sendbyte : Int) : List UInt8 :=
  [UInt8.ofInt sendbyte] ++ if sendbyte = modeCommand.toNat then [UInt8.ofInt sendbyte] else []

def owTouchByte (sendbyte : Int) : PortM UInt8 := do
  let _ ← owLevel com modeNormal
  let change ← dataMode
  match ← transfer com (change ++ touchPacket sendbyte) 1 with
  | some r => return readbuffer r 0
  | none => resync com 0

def owWriteByte (sendbyte : Int) : PortM Bool := do
  return (← owTouchByte com sendbyte) = UInt8.ofInt sendbyte

def owReadByte : PortM UInt8 := owTouchByte com 0xFF

def setSpeed (speed : UInt8) : PortM Bool := do
  modifyPort fun p => { p with speed }
  return true

/-- Whether the rate that goes with the new speed has been set. -/
def changeSpeed (newSpeed version : UInt8) : PortM Bool := do
  if newSpeed = modeOverdrive then
    if version = verLink then return false
    else if (← ds2480ChangeBaud com maxBaud) = maxBaud then setSpeed speedselOd
    else return false
  else if (← ds2480ChangeBaud com parmset9600) = parmset9600 then setSpeed speedselFlex
  else return false

/-- The chip is told the new speed. -/
def sendSpeed : PortM Unit := do
  let change ← commandMode
  let sent ← writeCOM com (change ++ [cmdComm ||| functselSearchoff ||| (← port).speed])
  recover com sent

def currentSpeed : PortM UInt8 := do
  return if (← port).speed = speedselOd then modeOverdrive else modeNormal

def owSpeed (newSpeed : UInt8) : PortM UInt8 := do
  let p ← port
  if newSpeed = modeOverdrive ∧ p.speed ≠ speedselOd ∨
      newSpeed = modeNormal ∧ p.speed ≠ speedselFlex then
    if ← changeSpeed com newSpeed p.version then
      sendSpeed com
      currentSpeed
    else currentSpeed
  else currentSpeed

/-- A pulse of 512 microseconds at 12 volts. -/
def duration512us : UInt8 := cmdConfig ||| parmsel12Vpulse ||| parmset512us

def pulse12V : UInt8 := cmdComm ||| functselChmod ||| bitpol12V ||| speedselPulse

def owProgramPulse : PortM Bool := do
  if (← port).programAvailable then
    let _ ← owLevel com modeNormal
    let change ← commandMode
    match ← transfer com (change ++ [duration512us, pulse12V]) 2 with
    | some r =>
      if readbuffer r 0 ||| cmdConfig = duration512us ∧
          readbuffer r 1 &&& 0xFC = 0xFC &&& pulse12V then return true
      else resync com false
    | none => resync com false
  else return false

/-- The strong pullup lasts until it is stopped. -/
def durationInfinite : UInt8 := cmdConfig ||| parmsel5Vpulse ||| parmsetInfinite

/-- Eight single bits, lowest first; the last one turns the strong pullup on. -/
def powerBits (byte speed : UInt8) : List UInt8 :=
  (List.range 8).map fun i =>
    bitCommand (byte.toNat.testBit i) speed ||| if i = 7 then prime5VTrue else prime5VFalse

/-- The byte that was read with `powerBits`. -/
def echoByte (r : Vector UInt8 9) : UInt8 :=
  (r.toList.drop 1).foldl (fun b x => b >>> 1 ||| if x &&& 0x01 ≠ 0 then 0x80 else 0) 0

/-- The transfer of `owWriteBytePower_` and `owReadBytePower_`. -/
def transferPower (byte : UInt8) : PortM (Option UInt8) := do
  let change ← commandMode
  match ← transfer com (change ++ durationInfinite :: powerBits byte (← port).speed) 9 with
  | some r =>
    if readbuffer r 0 &&& 0x81 = 0 then
      modifyPort fun p => { p with level := modeStrong5 }
      return some (echoByte r)
    else return none
  | none => return none

def owWriteBytePower (sendbyte : Int) : PortM Bool := do
  match ← transferPower com (UInt8.ofInt sendbyte) with
  | some echo => if (echo.toNat : Int) = sendbyte then return true else resync com false
  | none => resync com false

/-- `owReadBytePower_`; where the transfer fails the byte that was sent is left in `temp_byte`,
shifted out. -/
def owReadBytePower : PortM UInt8 := do
  match ← transferPower com 0xFF with
  | some echo => return echo
  | none => resync com 0

def owReadBitPower (applyPowerResponse : Int) : PortM Bool := do
  let change ← commandMode
  match ← transfer com
    (change ++ [durationInfinite, bitCommand true (← port).speed ||| prime5VTrue]) 2 with
  | some r =>
    if readbuffer r 0 &&& 0x81 = 0 then
      modifyPort fun p => { p with level := modeStrong5 }
      if ((readbuffer r 1 &&& 0x01).toNat : Int) = applyPowerResponse then return true
      else do
        let _ ← owLevel com modeNormal
        return false
    else resync com false
  | none => resync com false

end

/-! ## `owBlock_` -/

/-- `sendpacket` with `sendlen`, which is an unsigned char. -/
structure Packet where
  sendpacket : Vector UInt8 256 := Vector.replicate 256 0
  sendlen : UInt8 := 0

def Packet.push (p : Packet) (byte : UInt8) : Packet where
  sendpacket := p.sendpacket.set p.sendlen.toNat byte p.sendlen.toNat_lt
  sendlen := p.sendlen + 1

/-- The bytes that are sent. -/
def Packet.bytes (p : Packet) : List UInt8 := p.sendpacket.toList.take p.sendlen.toNat

/-- A byte of the block, twice if it looks like the change to command mode. -/
def Packet.add (p : Packet) (byte : UInt8) : Packet :=
  if byte = modeCommand then (p.push byte).push byte else p.push byte

def blockPacket (change tranBuf : List UInt8) : Packet :=
  tranBuf.foldl Packet.add (change.foldl Packet.push {})

section
variable (com : Com)

def sendBlock {k : ℕ} (tranBuf : Vector UInt8 k) : PortM (Option (Vector UInt8 k)) := do
  let change ← dataMode
  match ← transfer com (blockPacket change tranBuf.toList).bytes k with
  | some r => return some r
  | none => resync com none

def owBlock (doReset : Bool) {k : ℕ} (tranBuf : Vector UInt8 k) : PortM (Option (Vector UInt8 k)) :=
    do
  if k > 160 then return none
  else if doReset then
    if ← owTouchReset com then sendBlock com tranBuf else return none
  else sendBlock com tranBuf

end
end W1Retap.Bus.Ds2480
