import W1Retap.Model.Types
import W1Retap.Support.Programs

/-!
# The process, the bus it drives, and the events of a run

The bus is a parameter: a `Driver` answers every library call from a bus state of
any type, so a result for all drivers and states holds for every bus behaviour.
The trace is a record of what happened, latest event first; no function of the
program reads it.
-/
namespace W1Retap

open Programs

/-- How the process can end before a function returns: `exit`, or an operation that
C leaves undefined and that stops the process or corrupts it. `noSlot` is an access to a
sensor slot that is not allocated, `noName` a search in a name that was never set, and
`running` is a loop still going after the rounds it was given. -/
inductive Stop where
  | exit | divByZero | intOverflow | outOfBounds | noSlot | nullDeref | noName | running
  deriving DecidableEq, Repr

/-- A sensor value handed to a logger. -/
structure Reading where
  dev : ℕ
  sensor : ℕ
  value : ℚ
  deriving DecidableEq, Repr

/-- What a run does that can be observed: commands on the bus, read passes, the
calls of `w1_validate`, the calls into plugins, and the configuration that SIGUSR2 asks for. -/
inductive Event where
  | acquire
  | release
  | switch (dev : ℕ) (serno : Serno) (lines : Int) (ok : Bool)
  | search (dev : ℕ)
  | readAll (secs : Int)
  | read (dev : ℕ) (secs : Int)
  | validate (dev sensor : ℕ) (raw : ℚ) (logtime : Int) (accepted : Bool)
  | report (slot : ℕ) (dll : Dll)
  | sleep (wakeup : Int)
  | logger (slot : ℕ) (dll : Dll) (readings : List Reading)
  | tmpfilelog (readings : List Reading)
  | showConfig
  deriving DecidableEq, Repr

structure Ds2760 where
  volts : ℚ
  curr : ℚ
  accum : ℚ
  temp : ℚ

structure Ds1923 where
  rh : ℚ
  temp : ℚ

structure Hbuv where
  rawTemp : Int
  rawUvi : ℕ

structure HbhtRes where
  temp : ℚ
  humid : ℚ

/-- The calls into the 1-wire library, and `exp` of the mathematics library. `none` is
a failed call, as is a negative port of `owAcquireEx`; `owSearch` lists the ROM codes that `owNext` delivers one by one for a
family, up to the wanted one or until it reports that there are no more. -/
structure Driver (σ : Type) where
  owAcquireEx : Option CString → σ → Int × σ
  owRelease : Int → σ → σ
  setSwitch1F : Serno → Int → σ → Bool × σ
  owSearch : UInt8 → Serno → σ → List Serno × σ
  readTemperature : Serno → Int → σ → Option ℚ × σ
  readCounter : Serno → ℕ → σ → Option UInt32 × σ
  setupAtoDControl : Serno → σ → (Bool × AtoDControl) × σ
  writeAtoD : Serno → AtoDControl → σ → Bool × σ
  doAtoDConversion : Serno → σ → Bool × σ
  readAtoDResults : Serno → AtoDControl → σ → Option (Vector ℚ 4) × σ
  readAtoD : Bool → Serno → σ → ℚ × σ
  readVsens : Serno → σ → ℚ × σ
  getTemperature : Serno → σ → ℚ × σ
  readSHT11 : Serno → σ → Option (ℚ × ℚ) × σ
  initPressure : Serno → σ → Bool × σ
  readPressureValues : σ → Option (ℚ × ℚ) × σ
  readDS2760 : Serno → σ → Option Ds2760 × σ
  readDS1923 : Serno → Bool → σ → Option Ds1923 × σ
  readDS1921 : Serno → Bool → σ → Option ℚ × σ
  hbuvReadData : Serno → σ → Option Hbuv × σ
  hbhtReadData : Serno → σ → Option HbhtRes × σ
  exp : ℚ → ℚ

/-- A bus on which switch commands work and no other call does. -/
def Driver.silent {σ : Type} : Driver σ where
  owAcquireEx := fun _ b => (0, b)
  owRelease := fun _ b => b
  setSwitch1F := fun _ _ b => (true, b)
  owSearch := fun _ _ b => ([], b)
  readTemperature := fun _ _ b => (none, b)
  readCounter := fun _ _ b => (none, b)
  setupAtoDControl := fun _ b => ((false, Vector.replicate 16 0), b)
  writeAtoD := fun _ _ b => (false, b)
  doAtoDConversion := fun _ b => (false, b)
  readAtoDResults := fun _ _ b => (none, b)
  readAtoD := fun _ _ b => (-1, b)
  readVsens := fun _ b => (-1, b)
  getTemperature := fun _ b => (0, b)
  readSHT11 := fun _ b => (none, b)
  initPressure := fun _ b => (false, b)
  readPressureValues := fun b => (none, b)
  readDS2760 := fun _ b => (none, b)
  readDS1923 := fun _ _ b => (none, b)
  readDS1921 := fun _ _ b => (none, b)
  hbuvReadData := fun _ b => (none, b)
  hbhtReadData := fun _ b => (none, b)
  exp := fun x => x

/-- The process, with the number of modules opened so far, and its bus. -/
structure Machine (σ : Type) where
  w1 : DevList
  bus : σ
  modules : ℕ := 0
  trace : List Event := []

/-- A function of the program. -/
abbrev M (σ : Type) := StateT (Machine σ) (Except Stop)

section
variable {σ : Type}

namespace Machine

/-- The sensor in slot `j` of device `n`. -/
def slot? (s : Machine σ) (n j : ℕ) : Option Sensor :=
  s.w1.devs[n]?.bind fun d => d.s[j]?

def log (s : Machine σ) (e : Event) : Machine σ := { s with trace := e :: s.trace }

def setBus (s : Machine σ) (b : σ) : Machine σ := { s with bus := b }

def setW1 (s : Machine σ) (w1 : DevList) : Machine σ := { s with w1 := w1 }

def modifyDev (s : Machine σ) (n : ℕ) (f : Device → Device) : Machine σ :=
  s.setW1 { s.w1 with devs := s.w1.devs.modify n f }

variable (s : Machine σ) (e : Event) (b : σ) (w : DevList) (n k : ℕ) (f : Device → Device)

@[simp] theorem log_w1 : (s.log e).w1 = s.w1 := rfl
@[simp] theorem log_trace : (s.log e).trace = e :: s.trace := rfl
@[simp] theorem log_bus : (s.log e).bus = s.bus := rfl
@[simp] theorem setBus_w1 : (s.setBus b).w1 = s.w1 := rfl
@[simp] theorem setBus_trace : (s.setBus b).trace = s.trace := rfl
@[simp] theorem setW1_w1 : (s.setW1 w).w1 = w := rfl
@[simp] theorem setW1_trace : (s.setW1 w).trace = s.trace := rfl
@[simp] theorem setW1_bus : (s.setW1 w).bus = s.bus := rfl
@[simp] theorem modifyDev_trace : (s.modifyDev n f).trace = s.trace := rfl
@[simp] theorem modifyDev_bus : (s.modifyDev n f).bus = s.bus := rfl
@[simp] theorem modifyDev_devs : (s.modifyDev n f).w1.devs = s.w1.devs.modify n f := rfl
@[simp] theorem modifyDev_logtime : (s.modifyDev n f).w1.logtime = s.w1.logtime := rfl

theorem modifyDev_getElem? :
    (s.modifyDev n f).w1.devs[k]? =
      if n = k then (s.w1.devs[k]?).map f else s.w1.devs[k]? := by
  rw [modifyDev_devs, List.getElem?_modify]
  split <;> simp_all

end Machine

/-! ## Primitive operations -/

/-- A library call. -/
def call {α : Type} (f : σ → α × σ) : M σ α := do
  let s ← get
  let r := f s.bus
  set (s.setBus r.2)
  pure r.1

def event (e : Event) : M σ Unit := modify (·.log e)

def getW1 : M σ DevList := do return (← get).w1

def modifyW1 (f : DevList → DevList) : M σ Unit := modify fun s => s.setW1 (f s.w1)

/-- `*w`, for the device pointer `w` -/
def dev (n : ℕ) : M σ Device := do
  match (← get).w1.devs[n]? with
  | some d => pure d
  | none => throw .outOfBounds

def modifyDev (n : ℕ) (f : Device → Device) : M σ Unit := modify (·.modifyDev n f)

/-- `w->s[j]`; reading a slot that is not allocated is undefined. -/
def slot (n j : ℕ) : M σ Sensor := do
  match (← dev n).s[j]? with
  | some s => pure s
  | none => throw .noSlot

/-- An assignment to `w->s[j]`; the slot must be allocated. -/
def modifySlot (n j : ℕ) (f : Sensor → Sensor) : M σ Unit := do
  let _ ← slot n j
  modifyDev n (·.modifySlot j f)

/-- `w1_replog`: the message goes to every report plugin. -/
def w1Replog : M σ Unit := do
  let w1 ← getW1
  (List.range w1.ndll).forM fun i =>
    match w1.dlls[i]? with
    | some dll => if dll.type = .r ∧ dll.func.isSome then event (.report i dll) else pure ()
    | none => pure ()

/-! ## Their runs -/

variable {s s' : Machine σ}

theorem run_call_ok {α : Type} {f : σ → α × σ} {a : α} :
    (call f).run s = .ok (a, s') ↔ a = (f s.bus).1 ∧ s' = s.setBus (f s.bus).2 := by
  change Except.ok ((f s.bus).1, s.setBus (f s.bus).2) = Except.ok (a, s') ↔ _
  simp [eq_comm]

theorem run_event_ok {e : Event} {u : Unit} :
    (event e).run s = .ok (u, s') ↔ s' = s.log e := run_modify_ok

theorem run_getW1_ok {w1 : DevList} :
    getW1.run s = .ok (w1, s') ↔ w1 = s.w1 ∧ s' = s := by
  change Except.ok (s.w1, s) = Except.ok (w1, s') ↔ _
  simp [eq_comm]

theorem run_modifyW1_ok {f : DevList → DevList} {u : Unit} :
    (modifyW1 f).run s = .ok (u, s') ↔ s' = s.setW1 (f s.w1) := run_modify_ok

theorem run_dev_ok {n : ℕ} {d : Device} :
    (dev n).run s = .ok (d, s') ↔ s.w1.devs[n]? = some d ∧ s' = s := by
  unfold dev
  rw [run_bind_ok]
  simp only [run_get_ok]
  constructor
  · rintro ⟨t, s₁, ⟨rfl, rfl⟩, h⟩
    cases hd : s₁.w1.devs[n]? with
    | none => exact absurd (by simpa only [hd] using h) run_throw_ok
    | some d' =>
      rw [hd] at h
      obtain ⟨rfl, rfl⟩ := run_pure_ok.mp h
      exact ⟨rfl, rfl⟩
  · rintro ⟨h, rfl⟩
    refine ⟨s', s', ⟨rfl, rfl⟩, ?_⟩
    simp only [h]
    exact run_pure_ok.mpr ⟨rfl, rfl⟩

theorem run_modifyDev_ok {n : ℕ} {f : Device → Device} {u : Unit} :
    (modifyDev n f).run s = .ok (u, s') ↔ s' = s.modifyDev n f := run_modify_ok

theorem run_slot_ok {n j : ℕ} {x : Sensor} :
    (slot n j).run s = .ok (x, s') ↔ s.slot? n j = some x ∧ s' = s := by
  unfold slot
  rw [run_bind_ok]
  simp only [run_dev_ok, Machine.slot?]
  constructor
  · rintro ⟨d, s₁, ⟨hd, rfl⟩, h⟩
    cases hx : d.s[j]? with
    | none => exact absurd (by simpa only [hx] using h) run_throw_ok
    | some x' =>
      rw [hx] at h
      obtain ⟨rfl, rfl⟩ := run_pure_ok.mp h
      exact ⟨by simp [hd, hx], rfl⟩
  · rintro ⟨h, rfl⟩
    obtain ⟨d, hd, hx⟩ := Option.bind_eq_some_iff.mp h
    refine ⟨d, s', ⟨hd, rfl⟩, ?_⟩
    simp only [hx]
    exact run_pure_ok.mpr ⟨rfl, rfl⟩

theorem run_modifySlot_ok {n j : ℕ} {f : Sensor → Sensor} {u : Unit} :
    (modifySlot n j f).run s = .ok (u, s') ↔
      (s.slot? n j).isSome ∧ s' = s.modifyDev n (·.modifySlot j f) := by
  unfold modifySlot
  rw [run_bind_ok]
  simp only [run_slot_ok, run_modifyDev_ok]
  constructor
  · rintro ⟨x, s₁, ⟨hx, rfl⟩, h⟩
    exact ⟨by simp [hx], h⟩
  · rintro ⟨h, rfl⟩
    obtain ⟨x, hx⟩ := Option.isSome_iff_exists.mp h
    exact ⟨x, s, ⟨hx, rfl⟩, rfl⟩

/-! ## The first step of a sequence -/

variable {α β : Type} {r : β × Machine σ}

theorem run_call_bind (f : σ → α × σ) (k : α → M σ β) :
    (call f >>= k).run s = (k (f s.bus).1).run (s.setBus (f s.bus).2) := rfl

theorem run_event_bind (e : Event) (k : Unit → M σ β) :
    (event e >>= k).run s = (k ()).run (s.log e) := rfl

theorem run_getW1_bind (k : DevList → M σ β) : (getW1 >>= k).run s = (k s.w1).run s := rfl

theorem run_modifyW1_bind (f : DevList → DevList) (k : Unit → M σ β) :
    (modifyW1 f >>= k).run s = (k ()).run (s.setW1 (f s.w1)) := rfl

theorem run_lift_ok_bind (a : α) (k : α → M σ β) :
    (StateT.lift (.ok a) >>= k : M σ β).run s = (k a).run s := rfl

theorem run_lift_error_bind (e : Stop) (k : α → M σ β) :
    (StateT.lift (.error e) >>= k : M σ β).run s = .error e := rfl

theorem run_dev_bind {n : ℕ} {d : Device} (hd : s.w1.devs[n]? = some d) (k : Device → M σ β) :
    (dev n >>= k).run s = (k d).run s :=
  run_bind_of_ok (run_dev_ok.mpr ⟨hd, rfl⟩)

theorem run_dev_bind_ok {n : ℕ} {k : Device → M σ β} :
    (dev n >>= k).run s = .ok r ↔ ∃ d, s.w1.devs[n]? = some d ∧ (k d).run s = .ok r := by
  obtain ⟨b, s'⟩ := r
  rw [run_bind_ok]
  constructor
  · rintro ⟨d, s₁, h₁, h⟩
    obtain ⟨hd, rfl⟩ := run_dev_ok.mp h₁
    exact ⟨d, hd, h⟩
  · rintro ⟨d, hd, h⟩
    exact ⟨d, s, run_dev_ok.mpr ⟨hd, rfl⟩, h⟩

end
end W1Retap
