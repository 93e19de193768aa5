import W1Retap.Pressure.Interface
import W1Retap.Sensors.Counts

/-!
# Failed conversions

`ReadSensorValue` returns 0 when a step of the conversion fails, and its caller computes
with it. So `ReadPressureValues` never fails, and `w1_read_pressure` offers what comes of
the zeros to the sensors of the device.
-/
namespace W1Retap.Tai8570

open Programs

section
variable {σ : Type} (wire : Wire σ)

/-! ## When a conversion fails -/

/-- Calls made one after the other, each of which reports success. -/
def AllWork : List (PM σ Bool) → Statics σ → Prop
  | [], _ => True
  | m :: ms, p => (m p).1 = true ∧ AllWork ms (m p).2

/-- The sixteen bits of a conversion can be read. -/
def readsBits : PM σ Bool := do return (← readPressureSensor wire 16).length == 16

/-- What has to work in `ReadSensorValue`. -/
def conversionSteps (comm : CString) : List (PM σ Bool) :=
  [pressureReset wire, writePressureSensor wire comm, checkConversion wire, openPiosA wire,
    readsBits wire, openPiosB wire]

/-- Reset, command, conversion wait, switches and bits all work. -/
def Converts (comm : CString) (p : Statics σ) : Prop := AllWork (conversionSteps wire comm) p

theorem bind_apply {α β : Type} (m : PM σ α) (f : α → PM σ β) (p : Statics σ) :
    (m >>= f) p = f (m p).1 (m p).2 := rfl

/-- A step that ends the function when it fails. -/
theorem guard_isSome {α : Type} (m : PM σ Bool) (k : PM σ (Option α)) (p : Statics σ) :
    ((do if !(← m) then return none
         k : PM σ (Option α)) p).1.isSome = true ↔
      (m p).1 = true ∧ (k (m p).2).1.isSome = true := by
  rw [bind_apply]
  cases (m p).1 with
  | false => simp [pure, StateT.pure]
  | true => simp

/-- The early exits of `ReadSensorValue` are taken exactly when a step fails. -/
theorem sensorValue_isSome {comm : CString} {p : Statics σ} :
    (sensorValue wire comm p).1.isSome = true ↔ Converts wire comm p := by
  have hbits : ∀ p, readsBits wire p =
      ((readPressureSensor wire 16 p).1.length == 16, (readPressureSensor wire 16 p).2) :=
    fun _ => rfl
  unfold sensorValue
  rw [guard_isSome, guard_isSome, guard_isSome, guard_isSome, bind_apply, guard_isSome]
  simp only [Converts, conversionSteps, AllWork, hbits, beq_iff_eq]
  by_cases hlen : (readPressureSensor wire 16 (openPiosA wire (checkConversion wire
      (writePressureSensor wire comm (pressureReset wire p).2).2).2).2).1.length = 16
  · simp [hlen, pure, StateT.pure]
  · simp [hlen, pure, StateT.pure]

/-- A failed conversion is a reading of 0. -/
theorem readSensorValue_of_fails {comm : CString} {p : Statics σ} (h : ¬ Converts wire comm p) :
    (readSensorValue wire comm p).1 = 0 := by
  have hnone : (sensorValue wire comm p).1 = none := by
    rw [← sensorValue_isSome] at h
    simpa using h
  change (sensorValue wire comm p).1.getD 0 = 0
  rw [hnone]
  rfl

/-- One of the two conversions of `ReadPressureValues` fails. -/
def ConversionFails (p : Statics σ) : Prop :=
  ¬ Converts wire secReadd1 p ∨
    ¬ Converts wire secReadd2 { (readSensorValue wire secReadd1 p).2 with
        d1 := (readSensorValue wire secReadd1 p).1 }

/-- `ReadPressureValues` returns true whatever happens. -/
theorem readPressureValues_isSome (p : Statics σ) :
    (readPressureValues wire p).1.isSome = true := by
  unfold readPressureValues
  rw [bind_apply, bind_apply, bind_apply, bind_apply, bind_apply]
  rfl

end

/-! ## Reading the device -/

section
variable {σ : Type} (drv : Driver σ) (n : ℕ)

/-- The part of `w1_read_pressure` before the reading; whether it comes to that. -/
def prepare : M σ Bool := do
  makeSerial n
  if ← w1SelectDevice drv n then
    calibrate drv n
    return (← dev n).init == 2
  else return false

/-- The readings go to the sensors that match their names. -/
def offerValues (temp pres : ℚ) : M σ Int := do
  let w1 ← getW1
  let nvTemp ← offer n "Temp" temp
  let nvPres ← offer n "Pres" (reducePressure drv w1 pres temp)
  return nvTemp + nvPres

/-- The call of `ReadPressureValues` and what follows it. -/
def readPrepared : M σ Int := do
  match ← call drv.readPressureValues with
  | some v => offerValues drv n v.1 v.2
  | none =>
    modifyDev n fun d => { d with init := 0 }
    return 0

variable {drv n}

/-- From a device that is prepared, `w1_read_pressure` goes on to read it. -/
theorem run_w1ReadPressure {s s₁ : Machine σ} (h : (prepare drv n).run s = .ok (true, s₁)) :
    (w1ReadPressure drv n).run s = (readPrepared drv n).run s₁ := by
  obtain ⟨u, sa, hserial, h⟩ := run_bind_ok.mp h
  obtain ⟨found, sb, hselect, h⟩ := run_bind_ok.mp h
  unfold w1ReadPressure
  rw [run_bind_of_ok hserial, run_bind_of_ok hselect]
  cases found with
  | false => cases (run_pure_ok.mp h).1
  | true =>
    obtain ⟨u', sc, hcalibrate, h⟩ := run_bind_ok.mp h
    obtain ⟨d, hd, h⟩ := run_dev_bind_ok.mp h
    obtain ⟨hinit, rfl⟩ := run_pure_ok.mp h
    rw [if_pos rfl, run_bind_of_ok hcalibrate, run_dev_bind hd, if_pos (by simpa using hinit.symm)]
    rfl

/-- What `ReadPressureValues` delivers goes to the sensors. -/
theorem run_readPrepared {s : Machine σ} {v : ℚ × ℚ}
    (h : (drv.readPressureValues s.bus).1 = some v) : (readPrepared drv n).run s =
      (offerValues drv n v.1 v.2).run (s.setBus (drv.readPressureValues s.bus).2) := by
  rw [readPrepared, run_call_bind, h]

end

/-! ## Sensors without limits -/

/-- `w1_validate` accepts any value for a sensor without limits. -/
theorem w1Validate_free {t : Int} {x : Sensor} {a : CString} (ha : x.abbrv = some a)
    (hrgc : Sensor.isRgc a = false) (hflags : x.flags = 0) : w1Validate t x = .ok (x.accept t) := by
  have hhas : ∀ flag, x.has flag = false := fun flag => by simp [Sensor.has, hflags]
  have haccepts : Accepts t x x.value := by
    refine ⟨fun h => ?_, fun h => ?_, fun h => ?_, fun b hb h => ?_⟩
    · simp [hhas] at h
    · simp [hhas] at h
    · simp [hhas] at h
    · obtain rfl : a = b := Option.some.inj (ha.symm.trans hb)
      simp [hrgc] at h
  obtain ⟨x', hx'⟩ := w1Validate_total t x ha
  rcases w1Validate_cases hx' with ⟨-, rfl⟩ | ⟨hrejects, -⟩
  · exact hx'
  · exact absurd haccepts hrejects

/-- The sensor that matches the name takes the value, when it has no limits. -/
theorem run_offer_free {σ : Type} {s : Machine σ} {n j : ℕ} {d : Device} {x : Sensor}
    {a : CString} (name : String) (v : ℚ) (hd : s.w1.devs[n]? = some d)
    (hmatch : w1MatchSensor d name.toList = .ok (some j)) (hx : d.s[j]? = some x)
    (ha : x.abbrv = some a) (hrgc : Sensor.isRgc a = false) (hflags : x.flags = 0) :
    ∃ s', (offer n name v).run s = .ok (1, s') ∧ s'.w1.devs[n]? =
      some ((d.modifySlot j fun x => { x with value := v }).modifySlot j
        fun _ => { x with value := v }.accept s.w1.logtime) := by
  let take : Sensor → Sensor := fun x => { x with value := v }
  have hslot : s.slot? n j = some x := by rw [Machine.slot?, hd, Option.bind_some, hx]
  have hfound : (matchSensor n name.toList).run s = .ok (some j, s) := by
    rw [matchSensor, run_dev_bind hd]
    exact run_lift_ok.mpr ⟨hmatch, rfl⟩
  have hassign : (modifySlot n j take).run s = .ok ((), s.modifyDev n (·.modifySlot j take)) :=
    run_modifySlot_ok.mpr ⟨by rw [hslot]; rfl, rfl⟩
  have htaken := Machine.slot?_modifySlot_self (f := take) hslot
  have hread : (slot n j).run (s.modifyDev n (·.modifySlot j take)) = .ok (take x, _) :=
    run_slot_ok.mpr ⟨htaken, rfl⟩
  have hjudge : (StateT.lift (w1Validate s.w1.logtime (take x)) : M σ Sensor).run
      (s.modifyDev n (·.modifySlot j take)) = .ok ((take x).accept s.w1.logtime, _) :=
    run_lift_ok.mpr ⟨w1Validate_free ha hrgc hflags, rfl⟩
  have hkeep : (modifySlot n j fun _ => (take x).accept s.w1.logtime).run
      (s.modifyDev n (·.modifySlot j take)) = .ok ((), _) :=
    run_modifySlot_ok.mpr ⟨by rw [htaken]; rfl, rfl⟩
  rw [offer, run_bind_of_ok hfound]
  dsimp only
  rw [store, run_bind_of_ok hassign, run_getW1_bind, run_bind_of_ok hread,
    Machine.modifyDev_logtime, run_bind_of_ok hjudge, run_bind_of_ok hkeep, run_event_bind]
  refine ⟨_, rfl, ?_⟩
  rw [Machine.log_w1, Machine.modifyDev_getElem?, if_pos rfl, Machine.modifyDev_getElem?,
    if_pos rfl, hd]
  rfl

/-! ## What becomes of a failure -/

section
variable {σ : Type} (wire : Wire σ) (drv : Driver σ) (n : ℕ)

/-- When `w1_read_pressure` for device `n` comes to a reading in which a conversion fails,
`ReadPressureValues` returns false and no sensor of the device is valid afterwards. -/
def FailuresReported (s : Machine (Statics σ)) : Prop :=
  ∀ s₁, (prepare (driver wire drv) n).run s = .ok (true, s₁) → ConversionFails wire s₁.bus →
    (readPressureValues wire s₁.bus).1 = none ∧
      ∀ r s', (w1ReadPressure (driver wire drv) n).run s = .ok (r, s') → ¬ s'.hasValid n

theorem failuresReported_iff (s : Machine (Statics σ)) :
    FailuresReported wire drv n s ↔
      ∀ s₁, (prepare (driver wire drv) n).run s = .ok (true, s₁) → ¬ ConversionFails wire s₁.bus := by
  constructor
  · intro h s₁ hs₁ hfails
    have hnone := (h s₁ hs₁ hfails).1
    have hsome := readPressureValues_isSome wire s₁.bus
    rw [hnone] at hsome
    cases hsome
  · intro h s₁ hs₁ hfails
    exact absurd hfails (h s₁ hs₁)

end

/-! ## A loose contact -/

/-- A bus on which the switches of the sensor cannot be accessed. -/
def looseWire : Wire Unit where
  owSerialNum _ b := b
  owAccess b := (false, b)
  owBlock _ b := (none, b)
  owTouchByte c b := (c, b)
  owTouchBit _ b := (true, b)
  owReadByte b := (0xFF, b)
  owWriteByte _ b := b
  owOpenFile _ _ b := (none, b)
  owReadFile serno _ b := (serno, b)
  owCloseFile _ _ b := b

def barometer : Device where
  serial := some "12.000000000000".toList
  init := 2
  stype := .pres
  s := [{ abbrv := some "BTMP".toList, name := some "Temp".toList },
    { abbrv := some "PRES".toList, name := some "Pressure".toList }]
  ns := 2

/-- A sensor that was calibrated, and whose contact has come loose since. -/
def looseContact : Machine (Statics Unit) where
  w1 := { devs := [barometer] }
  bus :=
    { bus := (), below := Vector.replicate 8 0, reader := 0, writer := 1
      coeffs := { c1 := 23470, c2 := 1324, c3 := 737, c4 := 393, c5 := 628, c6 := 25 } }

def looseDriver : Driver Unit :=
  { Driver.silent with owSearch := fun _ serno b => ([serno], b) }

theorem loose_reset_fails (p : Statics Unit) : (pressureReset looseWire p).1 = false := rfl

theorem loose_fails (p : Statics Unit) : ConversionFails looseWire p := by
  refine .inl fun h => ?_
  have hreset := h.1
  rw [loose_reset_fails] at hreset
  cases hreset

theorem loose_prepare : ∃ tr, (prepare (driver looseWire looseDriver) 0).run looseContact =
    .ok (true, { looseContact with trace := tr }) := ⟨_, rfl⟩

/-- Any two values that the library delivers for the barometer end as valid readings. -/
theorem run_barometer {σ : Type} {drv : Driver σ} {s : Machine σ} (hd : s.w1.devs = [barometer])
    (hread : (drv.readPressureValues s.bus).1.isSome = true) :
    ∃ r s', (readPrepared drv 0).run s = .ok (r, s') ∧ s'.hasValid 0 := by
  obtain ⟨v, hv⟩ := Option.isSome_iff_exists.mp hread
  have hdev : (s.setBus (drv.readPressureValues s.bus).2).w1.devs[0]? = some barometer := by
    rw [Machine.setBus_w1, hd]
    rfl
  obtain ⟨s₁, htemp, hd₁⟩ :=
    run_offer_free (j := 0) "Temp" v.1 hdev rfl rfl rfl (by decide) rfl
  obtain ⟨s₂, hpres, hd₂⟩ :=
    run_offer_free (j := 1) "Pres" (reducePressure drv s.w1 v.2 v.1) hd₁ rfl rfl rfl (by decide) rfl
  refine ⟨2, s₂, ?_, _, hd₂, rfl⟩
  rw [run_readPrepared hv, offerValues, run_getW1_bind, run_bind_of_ok htemp, Machine.setBus_w1,
    run_bind_of_ok hpres]
  rfl

theorem failures_not_reported :
    ¬ FailuresReported looseWire looseDriver 0 looseContact ∧
      ∃ s₁ r s', (prepare (driver looseWire looseDriver) 0).run looseContact = .ok (true, s₁) ∧
        ConversionFails looseWire s₁.bus ∧
        (w1ReadPressure (driver looseWire looseDriver) 0).run looseContact = .ok (r, s') ∧
        s'.hasValid 0 := by
  obtain ⟨tr, hprepare⟩ := loose_prepare
  have hfails := loose_fails looseContact.bus
  have hread : ((driver looseWire looseDriver).readPressureValues looseContact.bus).1.isSome = true :=
    readPressureValues_isSome looseWire looseContact.bus
  obtain ⟨r, s', hrun, hvalid⟩ := run_barometer (s := { looseContact with trace := tr }) rfl hread
  rw [← run_w1ReadPressure hprepare] at hrun
  constructor
  · intro h
    exact (h _ hprepare hfails).2 r s' hrun hvalid
  · exact ⟨_, r, s', hprepare, hfails, hrun, hvalid⟩

end W1Retap.Tai8570
