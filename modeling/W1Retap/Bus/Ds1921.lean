import W1Retap.Bus.Wire

/-!
# `ReadDS1921`

The reader of a thermometer that logs: it looks at the status, has a temperature converted
unless a mission is running, waits until the device is ready, and reads the temperature.
-/
namespace W1Retap.Bus.Ds1921

open Programs

def statusOffset : ℕ := 0x214
def tempOffset : ℕ := 0x211
def bitReady : UInt8 := 0x80
def bitMip : UInt8 := 0x20

/-- The two bytes of an address. -/
def low (adr : ℕ) : UInt8 := UInt8.ofNat (adr &&& 0xFF)
def high (adr : ℕ) : UInt8 := UInt8.ofNat ((adr >>> 8) &&& 0xFF)

/-- The block that asks for the byte at `offset`. -/
def readCommand (offset : ℕ) : Vector UInt8 4 := #v[0xF0, low offset, high offset, 0xFF]

/-- `(adr + ln - 1) & 0x1F` -/
def endOffset (adr ln : ℕ) : UInt8 := UInt8.ofNat ((adr + ln - 1) &&& 0x1F)

/-- The block that writes to the scratchpad. -/
def writeCommand {ln : ℕ} (buf : Vector UInt8 ln) (adr : ℕ) : Vector UInt8 (3 + ln) :=
  (#v[0x0F, low adr, high adr] : Vector UInt8 3) ++ buf

/-- The block that reads the scratchpad back. -/
def verifyCommand (ln : ℕ) : Vector UInt8 (4 + ln) :=
  (#v[0xAA, 0xFF, 0xFF, 0xFF] : Vector UInt8 4) ++ Vector.replicate ln (0xFF : UInt8)

/-- The block that copies the scratchpad, with room for the result. -/
def copyCommand (ln adr : ℕ) : Vector UInt8 14 :=
  (#v[0x55, low adr, high adr, endOffset adr ln] : Vector UInt8 4) ++ Vector.replicate 10 (0xFF : UInt8)

section
variable (wire : Wire)

/-- `block[3]`, the byte that follows the command of three. -/
def data (block : Vector UInt8 4) : UInt8 := block.get (Fin.last 3)

/-- `readblock`: the byte, unless the access or the transfer fails. -/
def readblock (offset : ℕ) : Talk (Option UInt8) := do
  if ← owAccess wire then
    return (← owBlock wire (readCommand offset)).map data
  else
    return none

/-- `WriteScratch`: write, and compare with what is read back. -/
def writeScratch {ln : ℕ} (buf : Vector UInt8 ln) (adr : ℕ) : Talk Bool := do
  if ← owAccess wire then
    match ← owBlock wire (writeCommand buf adr) with
    | none => return false
    | some _ =>
      if ← owAccess wire then
        match ← owBlock wire (verifyCommand ln) with
        | none => return false
        | some pbuf =>
          return pbuf.toList.drop 1 = [low adr, high adr, endOffset adr ln] ++ buf.toList
      else return false
  else return false

/-- `CopyScratch` -/
def copyScratch (ln adr : ℕ) : Talk Bool := do
  if ← owAccess wire then
    match ← owBlock wire (copyCommand ln adr) with
    | some pbuf => return pbuf[13] = 0x55 ∨ pbuf[13] = 0xAA
    | none => return false
  else return false

/-- `WriteMemory` -/
def writeMemory {ln : ℕ} (buf : Vector UInt8 ln) (adr : ℕ) : Talk Bool := do
  if ← writeScratch wire buf adr then copyScratch wire ln adr else return false

/-- What is done before the polling: a running mission is left alone or killed, otherwise a
conversion is started. The value is `ret`, which keeps the result of the status read when
nothing is sent. -/
def prepare (kill : Bool) (status : UInt8) : Talk Bool := do
  if status &&& bitMip ≠ 0 then
    if kill then writeMemory wire (.replicate 1 0) statusOffset else return true
  else
    if ← owAccess wire then return (← owTouchByte wire 0x44) ≠ 0 else return true

/-- The loop that waits for the device; the value is `ret` where it is left. -/
def poll : ℕ → Talk Bool
  | 0 => throw .running
  | rounds + 1 => do
    match ← readblock wire statusOffset with
    | none => return false
    | some status =>
      if status &&& bitReady ≠ 0 then return true
      else
        msDelay 1
        poll rounds

/-- The id of the model, and its temperature scale. -/
def temperature (serno : Serno) (raw : UInt8) : ℚ :=
  let id := (serno[5].toNat >>> 4) ||| (serno[6].toNat <<< 4)
  if id = 0x4F2 then raw.toNat / 8 + 14.5
  else if id = 0x3B2 then raw.toNat / 8 - 5.5
  else raw.toNat / 2 - 40

/-- `ReadDS1921`, with the rounds that the polling is given: `ret` and `v->temp`. -/
def readDs1921 (rounds : ℕ) (serno : Serno) (kill : Bool) : Talk (Bool × ℚ) := do
  owSerialNum serno
  match ← readblock wire statusOffset with
  | none => return (false, -42)
  | some status =>
    if ← prepare wire kill status then
      let _ ← poll wire rounds
      match ← readblock wire tempOffset with
      | some raw => return (true, temperature serno raw)
      | none => return (false, -42)
    else
      return (false, -42)

end
end W1Retap.Bus.Ds1921
