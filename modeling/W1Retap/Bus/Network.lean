import W1Retap.Bus.Ds2480
import W1Retap.Sensors.Ds2438

/-!
# The network functions

`ownetu.c`: finding the devices on the net one after the other, and addressing one of them. The
DS2480 does the steps of a search; it is sent a buffer with two bits for each position, of which
the second is the direction, and answers with whether the devices differed there and where it went.
-/
namespace W1Retap.Bus.Ds2480

/-! ## `bitacc` -/

def bitRead {k : ℕ} (buf : Vector UInt8 k) (loc : ℕ) : Bool :=
  (buf.toList.getD (loc / 8) 0).toNat.testBit (loc % 8)

def bitWrite {k : ℕ} (state : Bool) (loc : ℕ) (buf : Vector UInt8 k) : Vector UInt8 k :=
  let byte := buf.toList.getD (loc / 8) 0
  let mask : UInt8 := 0x01 <<< UInt8.ofNat (loc % 8)
  buf.setIfInBounds (loc / 8) (if state then byte ||| mask else byte &&& ~~~mask)

theorem testBit_write (state : Bool) (byte : UInt8) (n i : ℕ) (hn : n < 8) (hi : i < 8) :
    (if state then byte ||| 0x01 <<< UInt8.ofNat n else byte &&&
      ~~~(0x01 <<< UInt8.ofNat n)).toNat.testBit i =
      if i = n then state else byte.toNat.testBit i := by
  have h : ∀ (state : Bool) (b : BitVec 8) (n i : Fin 8),
      (if state then UInt8.ofBitVec b ||| 0x01 <<< UInt8.ofNat n else UInt8.ofBitVec b &&&
        ~~~(0x01 <<< UInt8.ofNat n)).toNat.testBit i =
        if i.val = n.val then state else (UInt8.ofBitVec b).toNat.testBit i := by
    decide +kernel
  exact h state byte.toBitVec ⟨n, hn⟩ ⟨i, hi⟩

/-- What was written is read, and nothing else has changed. -/
theorem bitRead_bitWrite {k : ℕ} (state : Bool) {loc : ℕ} (loc' : ℕ) (buf : Vector UInt8 k)
    (h : loc < 8 * k) :
    bitRead (bitWrite state loc buf) loc' = if loc' = loc then state else bitRead buf loc' := by
  have hk : loc / 8 < k := by omega
  have hbyte : (bitWrite state loc buf).toList.getD (loc' / 8) 0 =
      if loc' / 8 = loc / 8 then
        if state then buf.toList.getD (loc / 8) 0 ||| 0x01 <<< UInt8.ofNat (loc % 8)
        else buf.toList.getD (loc / 8) 0 &&& ~~~(0x01 <<< UInt8.ofNat (loc % 8))
      else buf.toList.getD (loc' / 8) 0 := by
    simp only [bitWrite, Vector.toList_setIfInBounds, List.getD_eq_getElem?_getD, List.getElem?_set]
    by_cases hsame : loc' / 8 = loc / 8
    · rw [if_pos hsame, if_pos hsame.symm, if_pos (by simpa using hk)]
      rfl
    · rw [if_neg hsame, if_neg (Ne.symm hsame)]
  rw [bitRead, hbyte]
  by_cases hsame : loc' / 8 = loc / 8
  · rw [if_pos hsame, testBit_write _ _ _ _ (Nat.mod_lt _ (by decide)) (Nat.mod_lt _ (by decide)),
      bitRead, hsame]
    by_cases hloc : loc' = loc
    · rw [if_pos hloc, if_pos (congrArg (· % 8) hloc)]
    · rw [if_neg hloc, if_neg (by omega)]
  · rw [if_neg hsame, if_neg (fun h => hsame (congrArg (· / 8) h)), bitRead]
/-! ## The search state -/

def owSerialNum (serialnumBuf : Serno) : PortM Unit :=
  modifyPort fun p => { p with serialNum := serialnumBuf }

/-- `owSerialNum_` that reads -/
def readSerialNum : PortM Serno := do return (← port).serialNum

def owFamilySearchSetup (searchFamily : UInt8) : PortM Unit :=
  modifyPort fun p => { p with
    serialNum := #v[searchFamily, 0, 0, 0, 0, 0, 0, 0]
    lastDiscrepancy := 64
    lastFamilyDiscrepancy := 0
    lastDevice := false }

def owSkipFamily : PortM Unit :=
  modifyPort fun p => { p with
    lastDiscrepancy := p.lastFamilyDiscrepancy
    lastFamilyDiscrepancy := 0
    lastDevice := if p.lastFamilyDiscrepancy = 0 then true else p.lastDevice }

def resetSearch : PortM Unit :=
  modifyPort fun p =>
    { p with lastDiscrepancy := 0, lastDevice := false, lastFamilyDiscrepancy := 0 }

/-! ## `owNext_` -/

/-- The direction for a position is set in the buffer of the search. -/
def setDirection (p : Port) (buf : Vector UInt8 16) (i : ℕ) : Vector UInt8 16 :=
  if i < p.lastDiscrepancy - 1 then bitWrite (bitRead p.serialNum i) (i * 2 + 1) buf
  else if i = p.lastDiscrepancy - 1 then bitWrite true (i * 2 + 1) buf
  else buf

/-- The 16 bytes of the search. -/
def searchBytes (p : Port) : Vector UInt8 16 :=
  if p.lastDiscrepancy ≠ 0 then (List.range 64).foldl (setDirection p) (Vector.replicate 16 0)
  else Vector.replicate 16 0

/-- What is read off the answer of a search. -/
structure Found where
  tmpSerialNum : Serno := Vector.replicate 8 0
  lastZero : ℕ := 0
  lastFamilyDiscrepancy : ℕ

/-- The loop over the bits, which follow the first byte. -/
def Found.add (r : Vector UInt8 17) (f : Found) (i : ℕ) : Found :=
  let bit := bitRead r (8 + (i * 2 + 1))
  let tmpSerialNum := bitWrite bit i f.tmpSerialNum
  if bitRead r (8 + i * 2) = true ∧ bit = false then
    { tmpSerialNum, lastZero := i + 1,
      lastFamilyDiscrepancy := if i < 8 then i + 1 else f.lastFamilyDiscrepancy }
  else { f with tmpSerialNum }

def interpret (p : Port) (r : Vector UInt8 17) : Found :=
  (List.range 64).foldl (Found.add r) { lastFamilyDiscrepancy := p.lastFamilyDiscrepancy }

/-- The check of the results. -/
def checkResults (r : Vector UInt8 17) : PortM Bool := do
  let p ← port
  let f := interpret p r
  if Ds2438.crc8 f.tmpSerialNum.toList ≠ 0 ∨ p.lastDiscrepancy = 63 ∨ readbuffer f.tmpSerialNum 0 =
    0 then
    resetSearch
    return false
  else
    modifyPort fun p => { p with
      lastDiscrepancy := f.lastZero
      lastDevice := if f.lastZero = 0 then true else p.lastDevice
      lastFamilyDiscrepancy := f.lastFamilyDiscrepancy
      serialNum := f.tmpSerialNum }
    return true

/-- The bytes after the first change of mode; the last ones leave the chip in command mode. -/
def searchPacket (alarmOnly : Bool) (p : Port) : List UInt8 :=
  [if alarmOnly then 0xEC else 0xF0, modeCommand, cmdComm ||| functselSearchon ||| p.speed,
    modeData] ++
    (searchBytes p).toList ++ [modeCommand, cmdComm ||| functselSearchoff ||| p.speed]

section
variable (com : Com)

/-- `owNext_` after the reset -/
def search (alarmOnly : Bool) : PortM Bool := do
  let change ← dataMode
  let p ← port
  modifyPort fun p => { p with mode := .command }
  match ← transfer com (change ++ searchPacket alarmOnly p) 17 with
  | some r => checkResults r
  | none =>
    resync com ()
    resetSearch
    return false

def owNext (doReset alarmOnly : Bool) : PortM Bool := do
  if (← port).lastDevice then
    resetSearch
    return false
  else if doReset then
    if ← owTouchReset com then search com alarmOnly
    else
      modifyPort fun p => { p with lastDiscrepancy := 0, lastFamilyDiscrepancy := 0 }
      return false
  else search com alarmOnly

def owFirst (doReset alarmOnly : Bool) : PortM Bool := do
  resetSearch
  owNext com doReset alarmOnly

/-! ## Addressing a device -/

def owAccess : PortM Bool := do
  if ← owTouchReset com then
    let serialNum := (← port).serialNum
    let sendpacket : Vector UInt8 (1 + 8) := (#v[0x55] : Vector UInt8 1) ++ serialNum
    match ← owBlock com false sendpacket with
    | some r => return r.toList.drop 1 = serialNum.toList ∧ readbuffer r 0 = 0x55
    | none => return false
  else return false

/-- The bits of `owVerify_`: two to read and one to write for each position. -/
def verifyBytes (serialNum : Serno) : Vector UInt8 24 :=
  (List.range 64).foldl (fun buf i => bitWrite (bitRead serialNum i) ((i + 1) * 3 - 1) buf)
    (Vector.replicate 24 0xFF)

/-- The loop that counts the good bits: positions where only this bit of the serial number was
answered. No answer at all ends it. -/
def goodBits (serialNum : Serno) (r : Vector UInt8 (1 + 24)) : List ℕ → ℕ → ℕ
  | [], goodbits => goodbits
  | i :: is, goodbits =>
    let bit := bitRead r (8 + i * 3)
    let complement := bitRead r (8 + (i * 3 + 1))
    let s := bitRead serialNum i
    if bit = true ∧ complement = true then 0
    else if bit = s ∧ complement = !s then goodBits serialNum r is (goodbits + 1)
    else goodBits serialNum r is goodbits

def owVerify (alarmOnly : Bool) : PortM Bool := do
  let serialNum := (← port).serialNum
  let command : Vector UInt8 1 := #v[if alarmOnly then 0xEC else 0xF0]
  match ← owBlock com true (command ++ verifyBytes serialNum) with
  | some r => return 8 ≤ goodBits serialNum r (List.range 64) 0
  | none => return false

def owOverdriveAccess : PortM Bool := do
  let _ ← owLevel com modeNormal
  let _ ← owSpeed com modeNormal
  let ok : Bool ← if ← owTouchReset com then
      if ← owWriteByte com 0x69 then
        let _ ← owSpeed com modeOverdrive
        let serialNum := (← port).serialNum
        match ← owBlock com false serialNum with
        | some r => pure (r = serialNum)
        | none => pure false
      else pure false
    else pure false
  if ok then return true
  else
    let _ ← owSpeed com modeNormal
    return false

end
end W1Retap.Bus.Ds2480
