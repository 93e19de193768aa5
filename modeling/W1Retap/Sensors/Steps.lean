import W1Retap.Couplers.Switching
import W1Retap.Sensors.History
import W1Retap.Sensors.Readers

/-!
# What a reader can do to the sensors

Every run of a reader is a chain of `SensorStep`s on its own device: bus traffic that
leaves all sensors alone, clearing `valid`, storing a value without a verdict, and
storing a value that `w1_validate` then judges. Whatever these steps preserve, all
readers preserve, on every failure path.
-/
namespace W1Retap

open Programs

/-- The part of a sensor that only an accepted reading changes. -/
def Sensor.memory (x : Sensor) : (Option CString × ℕ × ℚ × ℚ × ℚ) × ℚ × Int :=
  (x.config, x.lval, x.ltime)

/-- The tests look at the memory of the sensor only. -/
theorem accepts_congr {t : Int} {x y : Sensor} {v : ℚ} (h : y.memory = x.memory)
    (hy : Accepts t y v) : Accepts t x v := by
  simp only [Sensor.memory, Sensor.config, Prod.mk.injEq] at h
  obtain ⟨⟨habbrv, hflags, hrmin, hrmax, hroc⟩, hlval, hltime⟩ := h
  have hhas : ∀ flag, y.has flag = x.has flag := fun flag => by rw [Sensor.has, Sensor.has, hflags]
  have hrate : rate t y v = rate t x v := by rw [rate, rate, hlval, hltime]
  refine ⟨?_, ?_, ?_, ?_⟩
  · rw [← hhas, ← hrmin]
    exact hy.rmin
  · rw [← hhas, ← hrmax]
    exact hy.rmax
  · rw [← hhas, ← hltime, ← hroc, ← hrate]
    exact hy.roc
  · rw [← habbrv, ← hlval]
    exact hy.seq

/-- The part of a device that selecting it or another one never changes. -/
def Device.sensors (d : Device) : ℕ × Int × List Sensor := (d.ns, d.intvl, d.s)

/-- The same, with the type of the device. -/
def Device.kept (d : Device) : W1Type × ℕ × Int × List Sensor := (d.stype, d.sensors)

/-- Events of the bus and of the report plugins. -/
def Event.isBus : Event → Bool
  | .acquire | .release | .switch .. | .search .. | .report .. => true
  | _ => false

/-- Events of the bus alone. -/
def Event.isWire : Event → Bool
  | .acquire | .release | .switch .. | .search .. => true
  | _ => false

section
variable {σ : Type}

/-- Nothing but the bus, and what the program keeps about it, has changed. -/
structure Quiet (s s' : Machine σ) : Prop where
  w1 : s'.w1 = { s.w1 with devs := s'.w1.devs }
  devs : s'.w1.devs.map Device.sensors = s.w1.devs.map Device.sensors
  trace : s'.trace = s.trace ∨ ∃ e, e.isBus = true ∧ s'.trace = e :: s.trace

/-- One step of a reader of device `n`. -/
inductive SensorStep (n : ℕ) : Machine σ → Machine σ → Prop
  | quiet {s s'} : Quiet s s' → SensorStep n s s'
  | port (s portnum) : SensorStep n s (s.setW1 { s.w1 with portnum })
  | clear (s) : SensorStep n s (s.modifyDev n Device.setInvalid)
  | assign (s j f) : (∀ x : Sensor, (f x).memory = x.memory ∧
      ((f x).valid = true → x.valid = true)) →
      SensorStep n s (s.modifyDev n (·.modifySlot j f))
  | validate (s j f x x') : s.slot? n j = some x → (f x).memory = x.memory →
      w1Validate s.w1.logtime (f x) = .ok x' →
      SensorStep n s (((s.modifyDev n (·.modifySlot j f)).modifyDev n
        (·.modifySlot j fun _ => x')).log (.validate n j (f x).value s.w1.logtime x'.valid))

namespace Machine
variable {s : Machine σ} {n m j k : ℕ} {f : Sensor → Sensor}

theorem slot?_modifySlot_self {x : Sensor} (h : s.slot? n j = some x) :
    (s.modifyDev n (·.modifySlot j f)).slot? n j = some (f x) := by
  obtain ⟨d, hd, hx⟩ := Option.bind_eq_some_iff.mp h
  simp [slot?, hd, hx]

theorem slot?_modifySlot_of_ne (h : ¬ (n = m ∧ j = k)) :
    (s.modifyDev n (·.modifySlot j f)).slot? m k = s.slot? m k := by
  unfold slot?
  rw [modifyDev_getElem?]
  by_cases hn : n = m
  · subst hn
    have hj : j ≠ k := fun hj => h ⟨rfl, hj⟩
    cases hd : s.w1.devs[n]? with
    | none => simp
    | some d => simp [hj]
  · rw [if_neg hn]

end Machine

/-! ## The primitive operations -/

section
variable {s s' : Machine σ} {n m : ℕ}

theorem Quiet.setBus (s : Machine σ) (b : σ) : Quiet s (s.setBus b) := ⟨rfl, rfl, Or.inl rfl⟩

theorem Quiet.log (s : Machine σ) {e : Event} (he : e.isBus = true) : Quiet s (s.log e) :=
  ⟨rfl, rfl, Or.inr ⟨e, he, rfl⟩⟩

theorem Quiet.modifyDev (s : Machine σ) (m : ℕ) {f : Device → Device}
    (hf : ∀ d, (f d).sensors = d.sensors) : Quiet s (s.modifyDev m f) := by
  refine ⟨rfl, ?_, Or.inl rfl⟩
  apply List.ext_getElem?
  intro k
  rw [List.getElem?_map, List.getElem?_map, Machine.modifyDev_getElem?]
  by_cases hk : m = k
  · rw [if_pos hk]
    cases s.w1.devs[k]? <;> simp [hf]
  · rw [if_neg hk]

theorem Quiet.slot?_eq (h : Quiet s s') (n j : ℕ) : s'.slot? n j = s.slot? n j := by
  have hn := congrArg (fun l => (l[n]?).bind fun d => d.2.2[j]?) h.devs
  simpa [Machine.slot?, Device.sensors, Option.bind_map, Function.comp_def] using hn

/-- Reading the state is no step. -/
theorem does_dev {R : Machine σ → Machine σ → Prop} (m : ℕ) : Does R (dev m) := by
  intro s d s' h
  obtain ⟨-, rfl⟩ := run_dev_ok.mp h
  exact .refl

theorem does_slot {R : Machine σ → Machine σ → Prop} (m j : ℕ) : Does R (slot m j) := by
  intro s x s' h
  obtain ⟨-, rfl⟩ := run_slot_ok.mp h
  exact .refl

theorem does_getW1 {R : Machine σ → Machine σ → Prop} : Does R (getW1 (σ := σ)) := by
  intro s w s' h
  obtain ⟨-, rfl⟩ := run_getW1_ok.mp h
  exact .refl

theorem does_matchSensor {R : Machine σ → Machine σ → Prop} (m : ℕ) (name : CString) :
    Does R (matchSensor m name) :=
  .bind (does_dev m) fun _ => .lift _

/-! ## Step relations -/

/-- Relations that contain every change of the bus. -/
class AnyBus (R : Machine σ → Machine σ → Prop) : Prop where
  setBus : ∀ s b, R s (s.setBus b)

/-- Relations that contain the calls to the devices on the bus. -/
class DriverSteps (drv : Driver σ) (R : Machine σ → Machine σ → Prop) : Prop where
  setSwitch1F : ∀ serno lines s, R s (s.setBus (drv.setSwitch1F serno lines s.bus).2)
  owSearch : ∀ family serno s, R s (s.setBus (drv.owSearch family serno s.bus).2)
  readTemperature : ∀ serno scan s, R s (s.setBus (drv.readTemperature serno scan s.bus).2)
  readCounter : ∀ serno page s, R s (s.setBus (drv.readCounter serno page s.bus).2)
  setupAtoDControl : ∀ serno s, R s (s.setBus (drv.setupAtoDControl serno s.bus).2)
  writeAtoD : ∀ serno control s, R s (s.setBus (drv.writeAtoD serno control s.bus).2)
  doAtoDConversion : ∀ serno s, R s (s.setBus (drv.doAtoDConversion serno s.bus).2)
  readAtoDResults : ∀ serno control s, R s (s.setBus (drv.readAtoDResults serno control s.bus).2)
  readAtoD : ∀ vdd serno s, R s (s.setBus (drv.readAtoD vdd serno s.bus).2)
  readVsens : ∀ serno s, R s (s.setBus (drv.readVsens serno s.bus).2)
  getTemperature : ∀ serno s, R s (s.setBus (drv.getTemperature serno s.bus).2)
  readSHT11 : ∀ serno s, R s (s.setBus (drv.readSHT11 serno s.bus).2)
  initPressure : ∀ serno s, R s (s.setBus (drv.initPressure serno s.bus).2)
  readPressureValues : ∀ s, R s (s.setBus (drv.readPressureValues s.bus).2)
  readDS2760 : ∀ serno s, R s (s.setBus (drv.readDS2760 serno s.bus).2)
  readDS1923 : ∀ serno log s, R s (s.setBus (drv.readDS1923 serno log s.bus).2)
  readDS1921 : ∀ serno log s, R s (s.setBus (drv.readDS1921 serno log s.bus).2)
  hbuvReadData : ∀ serno s, R s (s.setBus (drv.hbuvReadData serno s.bus).2)
  hbhtReadData : ∀ serno s, R s (s.setBus (drv.hbhtReadData serno s.bus).2)

instance (drv : Driver σ) (R : Machine σ → Machine σ → Prop) [AnyBus R] : DriverSteps drv R where
  setSwitch1F _ _ s := AnyBus.setBus s _
  owSearch _ _ s := AnyBus.setBus s _
  readTemperature _ _ s := AnyBus.setBus s _
  readCounter _ _ s := AnyBus.setBus s _
  setupAtoDControl _ s := AnyBus.setBus s _
  writeAtoD _ _ s := AnyBus.setBus s _
  doAtoDConversion _ s := AnyBus.setBus s _
  readAtoDResults _ _ s := AnyBus.setBus s _
  readAtoD _ _ s := AnyBus.setBus s _
  readVsens _ s := AnyBus.setBus s _
  getTemperature _ s := AnyBus.setBus s _
  readSHT11 _ s := AnyBus.setBus s _
  initPressure _ s := AnyBus.setBus s _
  readPressureValues s := AnyBus.setBus s _
  readDS2760 _ s := AnyBus.setBus s _
  readDS1923 _ _ s := AnyBus.setBus s _
  readDS1921 _ _ s := AnyBus.setBus s _
  hbuvReadData _ s := AnyBus.setBus s _
  hbhtReadData _ s := AnyBus.setBus s _

/-- Relations that contain every change of the port number. -/
class PortSteps (R : Machine σ → Machine σ → Prop) : Prop where
  port : ∀ s portnum, R s (s.setW1 { s.w1 with portnum })

/-- Relations that contain the marks of bus traffic, the reports, and what the program
keeps about the bus. -/
class BusSteps (R : Machine σ → Machine σ → Prop) : Prop where
  wire : ∀ s e, Event.isWire e = true → R s (s.log e)
  touch : ∀ s m f, (∀ d, Device.kept (f d) = d.kept) → R s (s.modifyDev m f)
  replog : Does R w1Replog

/-- Relations that contain the marks of bus traffic, the reports, and the lines that are kept
for a coupler. -/
class WireSteps (R : Machine σ → Machine σ → Prop) : Prop where
  wire : ∀ s e, Event.isWire e = true → R s (s.log e)
  lines : ∀ s m d lines, s.w1.devs[m]? = some d → d.stype = .coupler →
    R s (s.modifyDev m fun d => { d with priv := some (.coupler lines) })
  replog : Does R w1Replog

/-- Relations that contain what the program keeps about device `m` and the bus. -/
class TouchSteps (m : ℕ) (R : Machine σ → Machine σ → Prop) : Prop where
  touch : ∀ s f, (∀ d, Device.kept (f d) = d.kept) → R s (s.modifyDev m f)

instance (R : Machine σ → Machine σ → Prop) [BusSteps R] : WireSteps R where
  wire := BusSteps.wire
  lines s m _ _ _ _ := BusSteps.touch s m _ fun _ => rfl
  replog := BusSteps.replog

instance (m : ℕ) (R : Machine σ → Machine σ → Prop) [BusSteps R] : TouchSteps m R :=
  ⟨fun s => BusSteps.touch s m⟩

/-- Relations that contain what a reader does to the sensors of device `n`. -/
class ReaderSteps (n : ℕ) (R : Machine σ → Machine σ → Prop) : Prop where
  clear : ∀ s, R s (s.modifyDev n Device.setInvalid)
  assign : ∀ s j f, (∀ x : Sensor, (f x).memory = x.memory ∧
    ((f x).valid = true → x.valid = true)) → R s (s.modifyDev n (·.modifySlot j f))
  validate : ∀ s j f x x', s.slot? n j = some x → (f x).memory = x.memory →
    w1Validate s.w1.logtime (f x) = .ok x' →
      R s (((s.modifyDev n (·.modifySlot j f)).modifyDev n (·.modifySlot j fun _ => x')).log
        (.validate n j (f x).value s.w1.logtime x'.valid))

theorem isBus_of_isWire {e : Event} (he : e.isWire = true) : e.isBus = true := by
  cases e <;> first | exact he | simp [Event.isWire] at he

instance : AnyBus (Quiet (σ := σ)) := ⟨.setBus⟩

/-- Reports alone are within every relation that contains their marks. -/
theorem does_reports {R : Machine σ → Machine σ → Prop}
    (hlog : ∀ s i dll, R s (s.log (.report i dll))) : Does R (w1Replog (σ := σ)) := by
  refine .bind does_getW1 fun w1 => .forM fun i _ => ?_
  cases w1.dlls[i]? with
  | none => exact .pure _
  | some dll =>
    refine .ite (fun _ => ?_) fun _ => .pure _
    intro s u s' h
    obtain rfl := run_event_ok.mp h
    exact .single (hlog s i dll)

instance : BusSteps (Quiet (σ := σ)) where
  wire s _ he := .log s (isBus_of_isWire he)
  touch s m _ hf := .modifyDev s m fun d => congrArg Prod.snd (hf d)
  replog := does_reports fun s _ _ => .log s rfl

instance : AnyBus (SensorStep (σ := σ) n) := ⟨fun s b => .quiet (.setBus s b)⟩

instance : PortSteps (SensorStep (σ := σ) n) := ⟨.port⟩

instance : BusSteps (SensorStep (σ := σ) n) where
  wire s _ he := .quiet (.log s (isBus_of_isWire he))
  touch s m _ hf := .quiet (.modifyDev s m fun d => congrArg Prod.snd (hf d))
  replog := BusSteps.replog.mono fun _ _ => .quiet

instance : ReaderSteps n (SensorStep (σ := σ) n) where
  clear := .clear
  assign := .assign
  validate := .validate

theorem does_call {R : Machine σ → Machine σ → Prop} {α : Type} {f : σ → α × σ}
    (hf : ∀ s : Machine σ, R s (s.setBus (f s.bus).2)) : Does R (call f) := by
  intro s a s' h
  obtain ⟨-, rfl⟩ := run_call_ok.mp h
  exact .single (hf s)

theorem does_anyCall {R : Machine σ → Machine σ → Prop} [AnyBus R] {α : Type} (f : σ → α × σ) :
    Does R (call f) :=
  does_call fun s => AnyBus.setBus s _

theorem does_setPortnum {R : Machine σ → Machine σ → Prop} [PortSteps R] (portnum : Int) :
    Does R (modifyW1 fun w1 => { w1 with portnum }) := by
  intro s u s' h
  obtain rfl := run_modifyW1_ok.mp h
  exact .single (PortSteps.port s portnum)

variable {R : Machine σ → Machine σ → Prop}

theorem does_modifyDev (m : ℕ) [TouchSteps m R] {f : Device → Device}
    (hf : ∀ d, (f d).kept = d.kept) : Does R (modifyDev m f) := by
  intro s u s' h
  obtain rfl := run_modifyDev_ok.mp h
  exact .single (TouchSteps.touch s f hf)

variable [WireSteps R] [TouchSteps n R] [ReaderSteps n R]

theorem does_event {e : Event} (he : e.isWire = true) : Does R (event e) := by
  intro s u s' h
  obtain rfl := run_event_ok.mp h
  exact .single (WireSteps.wire s e he)

theorem does_w1Replog : Does R w1Replog := WireSteps.replog

omit [WireSteps R] [TouchSteps n R] in
theorem does_modifySlot (j : ℕ) {f : Sensor → Sensor}
    (hf : ∀ x, (f x).memory = x.memory ∧ ((f x).valid = true → x.valid = true)) :
    Does R (modifySlot n j f) := by
  intro s u s' h
  obtain ⟨-, rfl⟩ := run_modifySlot_ok.mp h
  exact .single (ReaderSteps.assign s j f hf)

/-! ## The common parts of the readers -/

variable (drv : Driver σ) [DriverSteps drv R]

theorem does_w1SetCoupler (m : ℕ) (lines : Int) : Does R (w1SetCoupler drv m lines) := by
  intro s u s' h
  obtain ⟨d, hd, h⟩ := run_dev_bind_ok.mp h
  split at h
  · rename_i hswitch
    rw [run_call_bind, run_event_bind] at h
    obtain rfl := run_modifyDev_ok.mp h
    have hcall : R s (s.setBus (drv.setSwitch1F d.serno lines s.bus).2) :=
      DriverSteps.setSwitch1F d.serno lines s
    have hmark := WireSteps.wire (R := R) (s.setBus (drv.setSwitch1F d.serno lines s.bus).2)
      (.switch m d.serno lines (drv.setSwitch1F d.serno lines s.bus).1) rfl
    exact .tail (.tail (.single hcall) hmark) (WireSteps.lines _ m d lines hd hswitch.1)
  · obtain ⟨-, rfl⟩ := run_pure_ok.mp h
    exact .refl

theorem does_switchOff (own : Option ℕ) (i : ℕ) : Does R (switchOff drv own i) :=
  .bind (does_dev i) fun _ => .ite (fun _ => does_w1SetCoupler drv i _) fun _ => .pure _

theorem does_w1AllCouplersOff : Does R (w1AllCouplersOff drv) :=
  .bind does_getW1 fun _ => .ite (fun _ => .forM fun i _ => does_switchOff drv none i) fun _ =>
    .pure _

theorem does_w1SelectDevice (m : ℕ) : Does R (w1SelectDevice drv m) := by
  refine .bind does_getW1 fun w1 => .bind (does_dev m) fun w => ?_
  refine .bind (.forM fun i _ => does_switchOff drv _ i) fun _ => .bind ?_ fun _ => ?_
  · cases w.coupler with
    | none => exact .pure _
    | some c => exact does_w1SetCoupler drv c.couplerDevice c.branch
  · exact .bind (does_event rfl) fun _ => .bind (does_call (DriverSteps.owSearch _ _)) fun _ => .pure _

omit [WireSteps R] in
theorem does_makeSerial (m : ℕ) [TouchSteps m R] : Does R (makeSerial (σ := σ) m) :=
  .bind (does_dev m) fun _ => .ite
    (fun _ => .bind (.lift _) fun _ => does_modifyDev m fun _ => rfl) fun _ => .pure _

omit [WireSteps R] [TouchSteps n R] in
theorem does_w1SetInvalid : Does R (w1SetInvalid (σ := σ) n) := by
  intro s u s' h
  obtain rfl := run_modifyDev_ok.mp h
  exact .single (ReaderSteps.clear s)

omit [WireSteps R] [TouchSteps n R] in
theorem does_clearValid (j : ℕ) : Does R (clearValid (σ := σ) n j) :=
  does_modifySlot j fun _ => ⟨rfl, fun h => by simp at h⟩

omit [TouchSteps n R] in
/-- Storing a value and validating it is one step, followed by the report of a rejection. -/
theorem does_store (j : ℕ) {f : Sensor → Sensor} (hf : ∀ x, (f x).memory = x.memory) :
    Does R (store (σ := σ) n j f) := by
  intro s a s' h
  rw [store, run_bind_ok] at h
  obtain ⟨_, s₁, h₁, h⟩ := h
  obtain ⟨hslot, rfl⟩ := run_modifySlot_ok.mp h₁
  obtain ⟨x, hx⟩ := Option.isSome_iff_exists.mp hslot
  rw [run_getW1_bind, run_bind_ok] at h
  obtain ⟨y, s₂, h₂, h⟩ := h
  obtain ⟨hy, rfl⟩ := run_slot_ok.mp h₂
  obtain rfl : f x = y := Option.some.inj ((Machine.slot?_modifySlot_self hx).symm.trans hy)
  rw [run_bind_ok] at h
  obtain ⟨x', s₃, h₃, h⟩ := h
  obtain ⟨hx', rfl⟩ := run_lift_ok.mp h₃
  rw [run_bind_ok] at h
  obtain ⟨_, s₄, h₄, h⟩ := h
  obtain ⟨-, rfl⟩ := run_modifySlot_ok.mp h₄
  rw [run_event_bind] at h
  have hrest : Does R
      (if x'.valid = true then pure 1 else do w1Replog; pure 0) :=
    .ite (fun _ => .pure _) fun _ => .bind does_w1Replog fun _ => .pure _
  exact .head (ReaderSteps.validate s j f x x' hx (hf x) hx') (hrest _ _ _ h)

omit [TouchSteps n R] in
theorem does_offer (name : String) (v : ℚ) : Does R (offer (σ := σ) n name v) := by
  refine .bind (does_matchSensor n _) fun j => ?_
  cases j with
  | none => exact .pure _
  | some j => exact does_store j fun _ => rfl

/-! ## The readers -/

theorem does_w1ReadTemp : Does R (w1ReadTemp drv n) := by
  refine .bind (does_makeSerial n) fun _ => .bind (does_w1SelectDevice drv n) fun found => ?_
  have hend : Does R (do return if (← slot n 0).valid then (1 : Int) else 0) :=
    .bind (does_slot n 0) fun _ => .pure _
  refine .ite (fun _ => ?_) fun _ => .bind (does_clearValid 0) fun _ => hend
  refine .bind (does_dev n) fun d => .bind does_getW1 fun w1 => ?_
  refine .bind (does_call (DriverSteps.readTemperature _ _)) fun temp => ?_
  cases temp with
  | none => exact hend
  | some temp => exact .bind (does_store 0 fun _ => rfl) fun _ => hend

omit [TouchSteps n R] in
theorem does_readCounterPage (page j : ℕ) (offset : Option ℚ) :
    Does R (readCounterPage drv n page j offset) := by
  refine .bind (does_slot n j) fun x => .ite (fun _ => ?_) fun _ => .pure _
  refine .bind (does_dev n) fun d => .bind (does_call (DriverSteps.readCounter _ _)) fun cnt => ?_
  cases cnt with
  | none => exact .bind (does_clearValid j) fun _ => .pure _
  | some cnt =>
    cases offset with
    | none => exact does_store j fun _ => rfl
    | some off => exact .bind (.lift _) fun _ => does_store j fun _ => rfl

theorem does_w1ReadCounter : Does R (w1ReadCounter drv n) := by
  refine .bind (does_makeSerial n) fun _ => .bind (does_w1SetInvalid) fun _ => ?_
  refine .bind (does_w1SelectDevice drv n) fun found => .ite (fun _ => ?_) fun _ => .pure _
  refine .bind (does_dev n) fun d => .bind (does_readCounterPage drv _ _ _) fun _ => ?_
  exact .bind (does_readCounterPage drv _ _ _) fun _ => .pure _

theorem does_w1ReadDs2450 : Does R (w1ReadDs2450 drv n) := by
  refine .bind (does_makeSerial n) fun _ => .bind (does_w1SetInvalid) fun _ => ?_
  refine .bind (does_w1SelectDevice drv n) fun found => .ite (fun _ => ?_) fun _ => .pure _
  refine .bind (does_dev n) fun d => .bind (does_call (DriverSteps.setupAtoDControl _)) fun setup => ?_
  refine .bind (does_call (DriverSteps.doAtoDConversion _)) fun _ => ?_
  refine .bind (does_call (DriverSteps.readAtoDResults _ _)) fun advolts => ?_
  cases advolts with
  | none => exact .pure _
  | some advolts =>
    refine .bind (does_offer _ _) fun _ => .bind (does_offer _ _) fun _ => ?_
    exact .bind (does_offer _ _) fun _ => .bind (does_offer _ _) fun _ => .pure _

omit [TouchSteps n R] [DriverSteps drv R] in
theorem does_readChannel (name : String) (wanted : Bool) {read : σ → ℚ × σ}
    (hread : ∀ s : Machine σ, R s (s.setBus (read s.bus).2)) :
    Does R (readChannel n name wanted read) := by
  refine .bind (does_matchSensor n _) fun j => .ite (fun _ => ?_) fun _ => .pure _
  refine .bind (does_call hread) fun val => ?_
  cases j with
  | none => exact .pure _
  | some j =>
    refine .ite (fun _ => ?_) fun _ => ?_
    · exact .bind (does_store j fun _ => rfl) fun _ => .pure _
    · exact .bind (does_clearValid j) fun _ => .pure _

omit [TouchSteps n R] [ReaderSteps n R] in
theorem does_reportSolar (vdd : Option ℚ) : Does R (reportSolar drv n vdd) := by
  refine .ite (fun _ => .bind (does_matchSensor n _) fun j => ?_) fun _ => .pure _
  refine .ite (fun _ => ?_) fun _ => .pure _
  exact .bind (does_dev n) fun _ => .bind (does_call (DriverSteps.readAtoD _ _)) fun _ => does_w1Replog

omit [TouchSteps n R] in
theorem does_readTempChannel (v : Option Ds2438v) :
    Does R (readTempChannel drv n v) := by
  refine .bind (does_matchSensor n _) fun j => .bind (does_dev n) fun d => ?_
  refine .ite (fun _ => .bind (does_call (DriverSteps.getTemperature _)) fun val => ?_) fun _ => .pure _
  split
  · exact .bind (does_store _ fun _ => rfl) fun _ => .pure _
  · exact .pure _

theorem does_w1ReadVoltages (v : Option Ds2438v) :
    Does R (w1ReadVoltages drv n v) := by
  have hsel : Does R (selectUnless drv n v) := by
    cases v with
    | none => exact does_w1SelectDevice drv n
    | some v => exact .pure _
  refine .bind (does_makeSerial n) fun _ => .bind hsel fun sel => ?_
  refine .bind does_w1SetInvalid fun _ => .ite (fun _ => ?_) fun _ => .pure _
  refine .bind (does_dev n) fun d => .bind (does_readChannel _ _ (DriverSteps.readAtoD _ _)) fun vdd => ?_
  refine .bind (does_reportSolar drv _) fun _ => ?_
  refine .bind (does_readChannel _ _ (DriverSteps.readAtoD _ _)) fun vad => ?_
  refine .bind (does_readChannel _ _ (DriverSteps.readVsens _)) fun vsens => ?_
  exact .bind (does_readTempChannel drv _) fun _ => .pure _

theorem does_voltages (req : ℕ) : Does R (voltages drv n req) :=
  .bind (does_w1ReadVoltages drv _) fun _ => .pure _

theorem does_w1ReadBray : Does R (w1ReadBray drv n) := by
  refine .bind (does_makeSerial n) fun _ => .bind (does_w1SelectDevice drv n) fun found => ?_
  refine .ite (fun _ => ?_) fun _ => .bind does_w1SetInvalid fun _ => .pure _
  refine .bind (does_voltages drv _) fun r => .ite (fun _ => ?_) fun _ => .pure _
  refine .bind (does_dev n) fun d => .bind does_getW1 fun w1 => .bind (.lift _) fun p => ?_
  exact .bind (does_offer _ _) fun _ => .pure _

theorem does_w1ReadHbPressure : Does R (w1ReadHbPressure drv n) := by
  refine .bind (does_makeSerial n) fun _ => .bind does_w1SetInvalid fun _ => ?_
  refine .bind (does_w1SelectDevice drv n) fun found => .ite (fun _ => ?_) fun _ => .pure _
  refine .bind (does_voltages drv _) fun r => .ite (fun _ => ?_) fun _ => .pure _
  exact .bind (does_dev n) fun d => .bind (does_offer _ _) fun _ => .pure _

theorem does_firstTwoInvalid {R : Machine σ → Machine σ → Prop} : Does R (firstTwoInvalid n) :=
  .bind (does_slot n 0) fun _ => .ite (fun _ => .bind (does_slot n 1) fun _ => .pure _) fun _ =>
    .pure _

omit [TouchSteps n R] [ReaderSteps n R] in
theorem does_reportHumidity : Does R (reportHumidity n) :=
  .bind does_firstTwoInvalid fun _ => .ite (fun _ => does_w1Replog) fun _ => .pure _

theorem does_w1ReadHumidity : Does R (w1ReadHumidity drv n) := by
  refine .bind (does_makeSerial n) fun _ => .bind does_w1SetInvalid fun _ => ?_
  refine .bind (does_w1SelectDevice drv n) fun found => .ite (fun _ => ?_) fun _ => ?_
  · refine .bind (does_voltages drv _) fun r => .bind (does_offer _ _) fun _ => ?_
    exact .bind (does_offer _ _) fun _ => .bind does_reportHumidity fun _ => .pure _
  · exact .bind does_reportHumidity fun _ => .pure _

omit [TouchSteps n R] in
theorem does_clearUnlessBoth : Does R (clearUnlessBoth n) := by
  refine .bind does_firstTwoInvalid fun _ => .ite (fun _ => ?_) fun _ => .pure _
  exact .bind does_w1Replog fun _ => .bind (does_clearValid 1) fun _ => does_clearValid 0

theorem does_w1ReadHih : Does R (w1ReadHih drv n) := by
  refine .bind (does_makeSerial n) fun _ => .bind does_w1SetInvalid fun _ => ?_
  refine .bind (does_w1SelectDevice drv n) fun found => .ite (fun _ => ?_) fun _ => .pure _
  refine .bind (does_voltages drv _) fun r => .ite (fun _ => ?_) fun _ => ?_
  · exact .bind (does_offer _ _) fun _ => .bind does_clearUnlessBoth fun _ => .pure _
  · exact .bind does_clearUnlessBoth fun _ => .pure _

theorem does_w1ReadCurrent : Does R (w1ReadCurrent drv n) := by
  refine .bind (does_makeSerial n) fun _ => .bind does_w1SetInvalid fun _ => ?_
  refine .bind (does_w1SelectDevice drv n) fun found => .ite (fun _ => ?_) fun _ => .pure _
  refine .bind (does_voltages drv _) fun r => .ite (fun _ => ?_) fun _ => .pure _
  exact .bind (does_offer _ _) fun _ => .pure _

theorem does_readAndOffer {α : Type} {read : Device → σ → Option α × σ} {offers : α → M σ ℕ}
    (hread : ∀ d (s : Machine σ), R s (s.setBus (read d s.bus).2)) (h : ∀ v, Does R (offers v)) :
    Does R (readAndOffer drv n read offers) := by
  refine .bind (does_makeSerial n) fun _ => .bind does_w1SetInvalid fun _ => ?_
  refine .bind (does_w1SelectDevice drv n) fun found => .ite (fun _ => ?_) fun _ => .pure _
  refine .bind (does_dev n) fun d => .bind (does_call (hread d)) fun v => ?_
  cases v with
  | none => exact .pure _
  | some v => exact .bind (h v) fun _ => .pure _

theorem does_w1ReadSht11 : Does R (w1ReadSht11 drv n) :=
  does_readAndOffer drv (fun _ => DriverSteps.readSHT11 _) fun _ => .bind (does_offer _ _) fun _ => .bind (does_offer _ _) fun _ =>
    .pure _

theorem does_w1ReadDs2760 : Does R (w1ReadDs2760 drv n) := by
  refine does_readAndOffer drv (fun _ => DriverSteps.readDS2760 _) fun _ => .bind (does_offer _ _) fun _ => ?_
  refine .bind (does_offer _ _) fun _ => .bind (does_offer _ _) fun _ => ?_
  exact .bind (does_offer _ _) fun _ => .pure _

theorem does_w1ReadDs1923 : Does R (w1ReadDs1923 drv n) :=
  does_readAndOffer drv (fun _ => DriverSteps.readDS1923 _ _) fun _ => .bind (does_offer _ _) fun _ => .bind (does_offer _ _) fun _ =>
    .pure _

theorem does_w1ReadDs1921 : Does R (w1ReadDs1921 drv n) :=
  does_readAndOffer drv (fun _ => DriverSteps.readDS1921 _ _) fun _ => does_offer _ _

theorem does_matchUv {R : Machine σ → Machine σ → Prop} : Does R (matchUv n) := by
  refine .bind (does_matchSensor n _) fun j => ?_
  cases j with
  | some j => exact .pure _
  | none =>
    refine .bind (does_matchSensor n _) fun j => ?_
    cases j with
    | some j => exact .pure _
    | none => exact does_matchSensor n _

theorem does_w1ReadHbuv : Does R (w1ReadHbuv drv n) := by
  refine does_readAndOffer drv (fun _ => DriverSteps.hbuvReadData _) fun _ => .bind (does_offer _ _) fun _ => ?_
  refine .bind does_matchUv fun uv => ?_
  cases uv with
  | none => exact .pure _
  | some j => exact .bind (does_store j fun _ => rfl) fun _ => .pure _

theorem does_w1ReadHbht : Does R (w1ReadHbht drv n) :=
  does_readAndOffer drv (fun _ => DriverSteps.hbhtReadData _) fun _ => .bind (does_offer _ _) fun _ => .bind (does_offer _ _) fun _ =>
    .pure _

omit [WireSteps R] [ReaderSteps n R] in
theorem does_calibrate : Does R (calibrate drv n) := by
  refine .bind (does_dev n) fun d => .ite (fun _ => ?_) fun _ => .pure _
  refine .bind (does_call (DriverSteps.initPressure _)) fun ok => ?_
  exact .ite (fun _ => does_modifyDev n fun _ => rfl) fun _ => .pure _

theorem does_w1ReadPressure : Does R (w1ReadPressure drv n) := by
  refine .bind (does_makeSerial n) fun _ => .bind (does_w1SelectDevice drv n) fun found => ?_
  refine .ite (fun _ => ?_) fun _ => .bind (does_modifyDev n fun _ => rfl) fun _ => .pure _
  refine .bind (does_calibrate drv) fun _ => .bind (does_dev n) fun d => ?_
  refine .ite (fun _ => .bind (does_call DriverSteps.readPressureValues) fun v => ?_) fun _ => .pure _
  cases v with
  | none => exact .bind (does_modifyDev n fun _ => rfl) fun _ => .pure _
  | some v =>
    refine .bind does_getW1 fun w1 => .bind (does_offer _ _) fun _ => ?_
    exact .bind (does_offer _ _) fun _ => .pure _

omit [WireSteps R] [ReaderSteps n R] in
theorem does_makeVane : Does R (makeVane n) := by
  refine .bind (does_dev n) fun d => .bind (does_makeSerial n) fun _ => ?_
  exact .ite (fun _ => does_modifyDev n fun _ => rfl) fun _ => .pure _

omit [WireSteps R] [ReaderSteps n R] in
theorem does_setupVane : Does R (setupVane drv n) := by
  refine .bind (does_dev n) fun d => .ite (fun _ => ?_) fun _ => .pure _
  refine .bind (does_call (DriverSteps.setupAtoDControl _)) fun setup => ?_
  refine .bind (does_modifyDev n fun _ => rfl) fun _ => .ite (fun _ => ?_) fun _ => .pure _
  refine .bind (does_call (DriverSteps.writeAtoD _ _)) fun ok => ?_
  exact .ite (fun _ => does_modifyDev n fun _ => rfl) fun _ => .pure _

omit [TouchSteps n R] in
theorem does_storeDirection (analogue : Vector ℚ 4) :
    Does R (storeDirection n analogue) := by
  refine .bind does_getW1 fun w1 => .bind (does_modifySlot 0 fun _ => ⟨rfl, id⟩) fun _ => ?_
  split
  · exact does_store 0 fun _ => rfl
  · exact .pure _

theorem does_w1ReadWindvane : Does R (w1ReadWindvane drv n) := by
  refine .bind does_makeVane fun _ => .bind (does_clearValid 1) fun _ => ?_
  refine .bind (does_clearValid 0) fun _ => .bind (does_w1SelectDevice drv n) fun found => ?_
  refine .ite (fun _ => .bind (does_dev n) fun d => .ite (fun _ => ?_) fun _ => .pure _) fun _ => .pure _
  refine .bind (does_setupVane drv) fun _ => .bind (does_dev n) fun d => ?_
  refine .ite (fun _ => ?_) fun _ => .pure _
  refine .bind (does_call (DriverSteps.doAtoDConversion _)) fun ok => .ite (fun _ => ?_) fun _ => .pure _
  refine .bind (does_call (DriverSteps.readAtoDResults _ _)) fun analogue => ?_
  cases analogue with
  | none => exact .pure _
  | some analogue => exact .bind (does_storeDirection analogue) fun _ => .pure _

end
end
end W1Retap
