import W1Retap.Couplers.Couplers
import W1Retap.Sensors.Validate
import W1Retap.Model.CArith

/-!
# The device readers of `w1sensors.c`

Every reader makes the ROM code of its device, selects the device and hands what the
bus delivers to `w1_validate`; it returns the number of accepted readings. Floating
point values are exact rationals.
-/
namespace W1Retap

open CStrings

/-! ## Common parts -/

/-- The loop of `w1_match_sensor`; `strcasestr` reads a name that may be missing. -/
def matchFrom (s : CString) : List Sensor → ℕ → Except Stop (Option ℕ)
  | [], _ => .ok none
  | x :: xs, j =>
    match x.abbrv, x.name with
    | none, _ => matchFrom s xs (j + 1)
    | some _, none => .error .noName
    | some abbrv, some name =>
      if strcasestr name s || strcaseeq abbrv s then .ok (some j) else matchFrom s xs (j + 1)

def w1MatchSensor (d : Device) (s : CString) : Except Stop (Option ℕ) :=
  matchFrom s (d.s.take d.ns) 0

section
variable {σ : Type} (drv : Driver σ) (n : ℕ)

/-- `if (w->init == 0)`: make the ROM code. -/
def makeSerial : M σ Unit := do
  let d ← dev n
  if d.init = 0 then
    let serno ← StateT.lift (w1MakeSerial d.serial)
    modifyDev n fun d => { d with serno, init := 1 }

def w1SetInvalid : M σ Unit := modifyDev n Device.setInvalid

/-- `w->s[j].valid = 0` -/
def clearValid (j : ℕ) : M σ Unit := modifySlot n j fun x => { x with valid := false }

def matchSensor (name : CString) : M σ (Option ℕ) := do
  let d ← dev n
  StateT.lift (w1MatchSensor d name)

/-- Assignments to the sensor in slot `j`, followed by `w1_validate`. -/
def store (j : ℕ) (f : Sensor → Sensor) : M σ ℕ := do
  modifySlot n j f
  let w1 ← getW1
  let x ← slot n j
  let x' ← StateT.lift (w1Validate w1.logtime x)
  modifySlot n j fun _ => x'
  event (.validate n j x.value w1.logtime x'.valid)
  if x'.valid then
    return 1
  else
    w1Replog
    return 0

/-- `s->value = value` and `w1_validate`, for the sensor that matches `name`. -/
def offer (name : String) (value : ℚ) : M σ ℕ := do
  match ← matchSensor n name.toList with
  | some j => store n j fun x => { x with value }
  | none => return 0

/-! ## Temperature and counters -/

def w1ReadTemp : M σ Int := do
  makeSerial n
  if ← w1SelectDevice drv n then
    let d ← dev n
    let w1 ← getW1
    match ← call (drv.readTemperature d.serno w1.tempScan) with
    | some temp => let _ ← store n 0 fun x => { x with value := temp }
    | none => pure ()
  else
    clearValid n 0
  return if (← slot n 0).valid then 1 else 0

/-- One counter of `w1_read_counter`: the page, the sensor slot, and the offset if the
device has that parameter. -/
def readCounterPage (page j : ℕ) (offset : Option ℚ) : M σ ℕ := do
  if (← slot n j).abbrv.isSome then
    let d ← dev n
    match ← call (drv.readCounter d.serno page) with
    | some cnt =>
      let off ← match offset with
        | some x => StateT.lift (doubleToInt x)
        | none => pure 0
      let cnt := cnt + UInt32.ofInt off
      store n j fun x => { x with valid := true, value := (cnt.toNat : ℚ) }
    | none =>
      clearValid n j
      return 0
  else
    return 0

def w1ReadCounter : M σ Int := do
  makeSerial n
  w1SetInvalid n
  if ← w1SelectDevice drv n then
    let params := (← dev n).params.getD []
    let nv₀ ← readCounterPage drv n 14 0 params[0]?
    let nv₁ ← readCounterPage drv n 15 1 params[1]?
    return nv₀ + nv₁
  else
    return 0

/-! ## Voltages -/

def w1ReadDs2450 : M σ Int := do
  makeSerial n
  w1SetInvalid n
  if ← w1SelectDevice drv n then
    let d ← dev n
    let setup ← call (drv.setupAtoDControl d.serno)
    let _ ← call (drv.doAtoDConversion d.serno)
    match ← call (drv.readAtoDResults d.serno setup.2) with
    | some advolts =>
      let a ← offer n "ADA" advolts[0]
      let b ← offer n "ADB" advolts[1]
      let c ← offer n "ADC" advolts[2]
      let d ← offer n "ADD" advolts[3]
      return a + b + c + d
    | none => return 0
  else
    return 0

/-- `ds2438v_t` -/
structure Ds2438v where
  vdd : ℚ := 0
  vad : ℚ := 0
  vsens : ℚ := 0
  temp : ℚ := 0
  req : ℕ := 0

def ds2438Vdd : ℕ := 1
def ds2438Vad : ℕ := 2
def ds2438Vsens : ℕ := 4
def ds2438Temp : ℕ := 8

def Ds2438v.wants (v : Option Ds2438v) (mode : ℕ) : Bool :=
  match v with
  | some v => v.req &&& mode != 0
  | none => false

/-- A channel of `w1_read_voltages`, read when it is requested or has a sensor; -1 is a
failed reading. -/
def readChannel (name : String) (wanted : Bool) (read : σ → ℚ × σ) : M σ (ℕ × Option ℚ) := do
  let s ← matchSensor n name.toList
  if wanted || s.isSome then
    let val ← call read
    match s with
    | some j =>
      if val ≠ -1 then
        let nv ← store n j fun x => { x with value := val }
        return (nv, some val)
      else
        clearValid n j
        return (0, some val)
    | none => return (0, some val)
  else
    return (0, none)

/-- The supply voltage is read for the report when only a solar sensor wants it. -/
def reportSolar (vdd : Option ℚ) : M σ Unit := do
  if vdd.isNone then
    if (← matchSensor n "Solar".toList).isSome then
      let d ← dev n
      let _ ← call (drv.readAtoD true d.serno)
      w1Replog

/-- The temperature channel: the caller's copy is set only by an accepted reading. -/
def readTempChannel (v : Option Ds2438v) : M σ (ℕ × Option Ds2438v) := do
  let s ← matchSensor n "temp".toList
  let d ← dev n
  if Ds2438v.wants v ds2438Temp || s.isSome then
    let val ← call (drv.getTemperature d.serno)
    match val == -1, s with
    | false, some j =>
      let nv ← store n j fun x => { x with value := val }
      return (nv, v.map fun v => if nv = 1 then { v with temp := val } else v)
    | _, _ => return (0, v)
  else
    return (0, v)

/-- With `v` the device has been selected by the caller. -/
def selectUnless (v : Option Ds2438v) : M σ Bool :=
  match v with
  | some _ => pure true
  | none => w1SelectDevice drv n

/-- `w1_read_voltages` -/
def w1ReadVoltages (v : Option Ds2438v) : M σ (Int × Option Ds2438v) := do
  makeSerial n
  let sel ← selectUnless drv n v
  w1SetInvalid n
  if sel then
    let d ← dev n
    let vdd ← readChannel n "vdd" (Ds2438v.wants v ds2438Vdd) (drv.readAtoD true d.serno)
    reportSolar drv n vdd.2
    let vad ← readChannel n "vad" (Ds2438v.wants v ds2438Vad) (drv.readAtoD false d.serno)
    let vsens ← readChannel n "vsens" (Ds2438v.wants v ds2438Vsens) (drv.readVsens d.serno)
    let v := v.map fun v => { v with
      vdd := vdd.2.getD v.vdd, vad := vad.2.getD v.vad, vsens := vsens.2.getD v.vsens }
    let temp ← readTempChannel drv n v
    return (vdd.1 + vad.1 + vsens.1 + temp.1, temp.2)
  else
    return (0, v)

/-- `w1_read_voltages (w1, w, &v)` for a freshly zeroed `v` -/
def voltages (req : ℕ) : M σ (Int × Ds2438v) := do
  let r ← w1ReadVoltages drv n (some { req })
  return (r.1, r.2.getD {})

def pressureAtMsl (exp : ℚ → ℚ) (pres temp : ℚ) (altitude : Int) : ℚ :=
  let kt := temp + 273.15
  pres * exp (9.80665 * altitude / (287.04 * kt))

/-- The reduction to sea level, when an altitude is configured. -/
def reducePressure (w1 : DevList) (pres temp : ℚ) : ℚ :=
  if w1.altitude ≠ 0 then
    pressureAtMsl drv.exp pres (w1.presReductionTemp.getD temp) w1.altitude
  else pres

def braySlope : ℚ := 35.949367089
def brayOffset : ℚ := 751.075949363

/-- `values[i]`, which must have been allocated -/
def param (ps : List ℚ) (i : ℕ) : Except Stop ℚ :=
  match ps[i]? with
  | some x => .ok x
  | none => .error .outOfBounds

/-- Slope, offset and temperature: a device with parameters gives all three. -/
def brayParams (ps : List ℚ) (temp : ℚ) : Except Stop (ℚ × ℚ × ℚ) :=
  if 2 ≤ ps.length then do
    return (← param ps 0, ← param ps 1, ← param ps 2)
  else .ok (braySlope, brayOffset, temp)

def w1ReadBray : M σ Int := do
  makeSerial n
  if ← w1SelectDevice drv n then
    let r ← voltages drv n (ds2438Vad + ds2438Temp)
    if 0 < r.2.vad then
      let d ← dev n
      let w1 ← getW1
      let p ← StateT.lift (brayParams (d.params.getD []) r.2.temp)
      let nv ← offer n "Pres" (reducePressure drv w1 (p.1 * r.2.vad + p.2.1) p.2.2)
      return r.1 + nv
    else
      return r.1
  else
    w1SetInvalid n
    return 0

def inhghpa : ℚ := 33.863886
def hbSlope : ℚ := 0.6562 * inhghpa
def hbOffset : ℚ := 26.0827 * inhghpa

def hbParams (ps : Option (List ℚ)) : ℚ × ℚ :=
  match ps with
  | some [slope, offset] => (slope, offset)
  | _ => (hbSlope, hbOffset)

def w1ReadHbPressure : M σ Int := do
  makeSerial n
  w1SetInvalid n
  if ← w1SelectDevice drv n then
    let r ← voltages drv n (ds2438Vad + ds2438Vdd + ds2438Temp)
    if 0 < r.2.vad then
      let d ← dev n
      let p := hbParams d.params
      let pres := p.1 * r.2.vad + p.2
      let nv ← offer n "Pres" (if p.2 < 100 then pres * inhghpa else pres)
      return r.1 + nv
    else
      return r.1
  else
    return 0

/-- The check of the first two sensors that ends `w1_read_humidity` and `w1_read_hih`. -/
def firstTwoInvalid : M σ Bool := do
  if (← slot n 0).valid then return !(← slot n 1).valid
  else return true

def reportHumidity : M σ Unit := do
  if ← firstTwoInvalid n then w1Replog

def w1ReadHumidity : M σ Int := do
  makeSerial n
  w1SetInvalid n
  if ← w1SelectDevice drv n then
    let r ← voltages drv n (ds2438Vad + ds2438Vdd + ds2438Temp)
    let v := r.2
    let vdd := if 5.8 < v.vdd then 5.8 else if v.vdd < 4.0 then 4.0 else v.vdd
    let humid := ((v.vad / vdd - 0.8 / vdd) / 0.0062) / (1.0546 - 0.00216 * v.temp)
    let nvTemp ← offer n "Temp" v.temp
    let nvHumid ← offer n "Humidity" humid
    reportHumidity n
    return r.1 + nvTemp + nvHumid
  else
    reportHumidity n
    return 0

/-- The humidity of `w1_read_hih`; its linear term uses a local temperature that stays 0. -/
def hihHumidity (v : Ds2438v) : ℚ :=
  let humid := (v.vad / v.vdd - 0.8 / v.vdd) /
    (0.0062 * (1.0305 + 0.000044 * 0 + 0.0000011 * v.temp * v.temp))
  if 100 < humid then 99.9 else humid

/-- The end of `w1_read_hih`: both sensors count or neither does. -/
def clearUnlessBoth : M σ Unit := do
  if ← firstTwoInvalid n then
    w1Replog
    clearValid n 1
    clearValid n 0

def w1ReadHih : M σ Int := do
  makeSerial n
  w1SetInvalid n
  if ← w1SelectDevice drv n then
    let r ← voltages drv n (ds2438Vad + ds2438Vdd + ds2438Temp)
    if r.1 ≠ 0 then
      let nv ← offer n "Humidity" (hihHumidity r.2)
      clearUnlessBoth n
      return nv
    else
      clearUnlessBoth n
      return 0
  else
    return 0

def w1ReadCurrent : M σ Int := do
  makeSerial n
  w1SetInvalid n
  if ← w1SelectDevice drv n then
    let r ← voltages drv n ds2438Vad
    let vad := r.2.vad
    if -1 < vad then
      let nv ← offer n "current" (if 0.2 ≤ vad then vad * 7.36 - 0.47 else vad * 9.09 - 0.8181)
      return r.1 + nv
    else
      return r.1
  else
    return 0

/-! ## Ready-made readings -/

/-- The readers that make the ROM code, clear the sensors, select the device and offer
what a single call delivers. -/
def readAndOffer {α : Type} (read : Device → σ → Option α × σ) (offers : α → M σ ℕ) :
    M σ Int := do
  makeSerial n
  w1SetInvalid n
  if ← w1SelectDevice drv n then
    let d ← dev n
    match ← call (read d) with
    | some v => return (← offers v)
    | none => return 0
  else
    return 0

def w1ReadSht11 : M σ Int :=
  readAndOffer drv n (fun d => drv.readSHT11 d.serno) fun v => do
    return (← offer n "Temp" v.1) + (← offer n "Humidity" v.2)

def w1ReadDs2760 : M σ Int :=
  readAndOffer drv n (fun d => drv.readDS2760 d.serno) fun v => do
    return (← offer n "Temp" v.temp) + (← offer n "Current" v.curr) +
      (← offer n "Volt" v.volts) + (← offer n "Accumulator" v.accum)

def w1ReadDs1923 : M σ Int :=
  readAndOffer drv n (fun d => drv.readDS1923 d.serno d.params.isSome) fun v => do
    return (← offer n "Temp" v.temp) + (← offer n "Humidity" v.rh)

def w1ReadDs1921 : M σ Int :=
  readAndOffer drv n (fun d => drv.readDS1921 d.serno d.params.isSome) fun temp =>
    offer n "Temp" temp

/-- The sensor of the ultraviolet reading goes by three names. -/
def matchUv : M σ (Option ℕ) := do
  match ← matchSensor n "uv".toList with
  | some j => return some j
  | none =>
    match ← matchSensor n "ultra".toList with
    | some j => return some j
    | none => matchSensor n "violet".toList

def w1ReadHbuv : M σ Int :=
  readAndOffer drv n (fun d => drv.hbuvReadData d.serno) fun hb => do
    let nvTemp ← offer n "Temp" (hb.rawTemp * 0.5)
    match ← matchUv n with
    | some j => return nvTemp + (← store n j fun x => { x with value := hb.rawUvi * 0.1 })
    | none => return nvTemp

def w1ReadHbht : M σ Int :=
  readAndOffer drv n (fun d => drv.hbhtReadData d.serno) fun hb => do
    return (← offer n "Temp" hb.temp) + (← offer n "Humidity" hb.humid)

/-! ## Pressure and wind -/

/-- Calibrate a pressure sensor that is not yet; `init` is 2 once it is. -/
def calibrate : M σ Unit := do
  let d ← dev n
  if d.init = 1 then
    if ← call (drv.initPressure d.serno) then modifyDev n fun d => { d with init := 2 }

/-- `w1_read_pressure`; a failed reading starts over with the ROM code. -/
def w1ReadPressure : M σ Int := do
  makeSerial n
  if ← w1SelectDevice drv n then
    calibrate drv n
    if (← dev n).init = 2 then
      match ← call drv.readPressureValues with
      | some v =>
        let w1 ← getW1
        let nvTemp ← offer n "Temp" v.1
        let nvPres ← offer n "Pres" (reducePressure drv w1 v.2 v.1)
        return nvTemp + nvPres
      | none =>
        modifyDev n fun d => { d with init := 0 }
        return 0
    else
      return 0
  else
    modifyDev n fun d => { d with init := 1 }
    return 0

def windvaneVcc : ℚ := 1
def windvaneR2 : ℚ := windvaneVcc / 2
def windvaneR1 : ℚ := windvaneVcc * (2 / 3)
def windvaneGnd : ℚ := 0
def windvaneMaxError : ℚ := (windvaneR1 - windvaneR2) / 2

def windConversionTable : Vector (Vector ℚ 4) 16 :=
  let g := windvaneGnd; let v := windvaneVcc; let r₁ := windvaneR1; let r₂ := windvaneR2
  #v[#v[g, v, v, v], #v[g, g, v, v], #v[v, g, v, v], #v[v, g, g, v],
    #v[v, v, g, v], #v[v, v, g, g], #v[v, v, v, g], #v[r₂, v, v, g],
    #v[r₂, v, v, v], #v[r₁, r₁, v, v], #v[v, r₂, v, v], #v[v, r₁, r₁, v],
    #v[v, v, r₂, v], #v[v, v, r₁, r₁], #v[v, v, v, r₂], #v[g, v, v, r₂]]

/-- The first position of the table within the error of all four scaled readings. -/
def windPosition (scaled : Vector ℚ 4) : Option (Fin 16) :=
  (List.finRange 16).find? fun i => (List.finRange 4).all fun k =>
    scaled[k] ≤ windConversionTable[i][k] + windvaneMaxError &&
      windConversionTable[i][k] - windvaneMaxError ≤ scaled[k]

/-- The windvane's `private->control`. -/
def Device.control (d : Device) : AtoDControl :=
  match d.priv with
  | some (.windvane control) => control
  | _ => Vector.replicate 16 0

/-- `if (w->init == 0)` of the windvane, which also gets its private data. -/
def makeVane : M σ Unit := do
  let d ← dev n
  makeSerial n
  if d.init = 0 ∧ d.priv = none then
    modifyDev n fun d => { d with priv := some (.windvane (Vector.replicate 16 0)) }

/-- Set the converter up once; `init` is 2 when that has worked. -/
def setupVane : M σ Unit := do
  let d ← dev n
  if d.init = 1 then
    let setup ← call (drv.setupAtoDControl d.serno)
    modifyDev n fun d => { d with priv := some (.windvane setup.2) }
    if setup.1 then
      if ← call (drv.writeAtoD d.serno setup.2) then modifyDev n fun d => { d with init := 2 }

/-- The largest reading, which stands for the supply voltage. -/
def vaneFactor (analogue : Vector ℚ 4) : ℚ :=
  max analogue[0] (max analogue[1] (max analogue[2] analogue[3]))

/-- The position found in the table becomes a direction, counted from the offset. -/
def storeDirection (analogue : Vector ℚ 4) : M σ ℕ := do
  let factor := max analogue[0] (max analogue[1] (max analogue[2] analogue[3]))
  let w1 ← getW1
  modifySlot n 0 fun x => { x with value := -1 }
  match windPosition (analogue.map (· / factor)) with
  | some i => store n 0 fun x => { x with value := ((((i : ℕ) : Int) - w1.vaneOffset) % 16 : Int) }
  | none => return 0

def w1ReadWindvane : M σ Int := do
  makeVane n
  clearValid n 1
  clearValid n 0
  if ← w1SelectDevice drv n then
    if (← dev n).priv.isSome then
      setupVane drv n
      let d ← dev n
      if d.init = 2 then
        if ← call (drv.doAtoDConversion d.serno) then
          match ← call (drv.readAtoDResults d.serno d.control) with
          | some analogue => return (← storeDirection n analogue)
          | none => return 0
        else
          return 0
      else
        return 0
    else
      return 0
  else
    return 0

end
end W1Retap
