import W1Retap.Sensors.Ds2438
import W1Retap.Sensors.Reports
import W1Retap.Sensors.Stores

/-!
# What becomes of a DS2438 temperature

The three readers reach the temperature in the same way and differ in what they do to its
sensor afterwards. An `Exchange` is what there is when the temperature is asked for; from it
follows what the sensor holds in the end, and so when that is the measured temperature.
-/
namespace W1Retap

open Programs

/-! ## The readers up to the temperature -/

section
variable {σ : Type} (drv : Driver σ) (n : ℕ)

/-- The channels of `w1_read_voltages` before the temperature. -/
def channels (v : Option Ds2438v) : M σ (Int × Option Ds2438v) := do
  let d ← dev n
  let vdd ← readChannel n "vdd" (Ds2438v.wants v ds2438Vdd) (drv.readAtoD true d.serno)
  reportSolar drv n vdd.2
  let vad ← readChannel n "vad" (Ds2438v.wants v ds2438Vad) (drv.readAtoD false d.serno)
  let vsens ← readChannel n "vsens" (Ds2438v.wants v ds2438Vsens) (drv.readVsens d.serno)
  return (vdd.1 + vad.1 + vsens.1, v.map fun v => { v with
    vdd := vdd.2.getD v.vdd, vad := vad.2.getD v.vad, vsens := vsens.2.getD v.vsens })

/-- `w1_read_voltages` before the temperature, if the device is there. -/
def beforeTemp (v : Option Ds2438v) : M σ (Option (Int × Option Ds2438v)) := do
  makeSerial n
  let sel ← selectUnless drv n v
  w1SetInvalid n
  if sel then
    let r ← channels drv n v
    return some r
  else
    return none

theorem w1ReadVoltages_eq (v : Option Ds2438v) : w1ReadVoltages drv n v = (do
    match ← beforeTemp drv n v with
    | some r =>
      let temp ← readTempChannel drv n r.2
      return (r.1 + temp.1, temp.2)
    | none => return (0, v)) := by
  unfold w1ReadVoltages beforeTemp channels
  simp only [bind_assoc]
  refine bind_congr fun _ => bind_congr fun sel => bind_congr fun _ => ?_
  cases sel with
  | false => simp
  | true => simp

/-- What `w1_read_humidity` and `w1_read_hih` ask of the channels. -/
def humidityReq : ℕ := ds2438Vad + ds2438Vdd + ds2438Temp

/-- The other readers select the device themselves. -/
def beforeHumidityTemp : M σ (Option (Int × Option Ds2438v)) := do
  makeSerial n
  w1SetInvalid n
  if ← w1SelectDevice drv n then beforeTemp drv n (some { req := humidityReq }) else return none

/-- The relative humidity of `w1_read_humidity`. -/
def relativeHumidity (v : Ds2438v) : ℚ :=
  let vdd := if 5.8 < v.vdd then 5.8 else if v.vdd < 4.0 then 4.0 else v.vdd
  ((v.vad / vdd - 0.8 / vdd) / 0.0062) / (1.0546 - 0.00216 * v.temp)

theorem w1ReadHumidity_eq : w1ReadHumidity drv n = (do
    match ← beforeHumidityTemp drv n with
    | some r =>
      let temp ← readTempChannel drv n r.2
      let v := temp.2.getD {}
      let nvTemp ← offer n "Temp" v.temp
      let nvHumid ← offer n "Humidity" (relativeHumidity v)
      reportHumidity n
      return r.1 + temp.1 + nvTemp + nvHumid
    | none =>
      reportHumidity n
      return 0) := by
  unfold w1ReadHumidity beforeHumidityTemp voltages
  rw [w1ReadVoltages_eq]
  simp only [bind_assoc]
  refine bind_congr fun _ => bind_congr fun _ => bind_congr fun sel => ?_
  cases sel with
  | false => simp
  | true => simp [beforeTemp, selectUnless, humidityReq, relativeHumidity]

/-- `w1_read_hih` before its check of the first two sensors, if the device is there. -/
def hihReadings : M σ (Option Int) := do
  match ← beforeHumidityTemp drv n with
  | some r =>
    let temp ← readTempChannel drv n r.2
    if r.1 + temp.1 ≠ 0 then
      let nv ← offer n "Humidity" (hihHumidity (temp.2.getD {}))
      return some nv
    else
      return some 0
  | none => return none

theorem w1ReadHih_eq : w1ReadHih drv n = (do
    match ← hihReadings drv n with
    | some nv =>
      clearUnlessBoth n
      return nv
    | none => return 0) := by
  unfold w1ReadHih hihReadings beforeHumidityTemp voltages
  rw [w1ReadVoltages_eq]
  simp only [bind_assoc]
  refine bind_congr fun _ => bind_congr fun _ => bind_congr fun sel => ?_
  cases sel with
  | false => simp
  | true =>
    simp [beforeTemp, selectUnless, humidityReq]
    refine bind_congr fun _ => bind_congr fun _ => bind_congr fun r => bind_congr fun temp => ?_
    split <;> simp

end

section
variable {σ : Type} {n : ℕ} {R : Machine σ → Machine σ → Prop} [BusSteps R] [ReaderSteps n R]
variable (drv : Driver σ) [DriverSteps drv R]

theorem does_channels (v : Option Ds2438v) : Does R (channels drv n v) := by
  refine .bind (does_dev n) fun d => .bind (does_readChannel _ _ (DriverSteps.readAtoD _ _)) fun vdd => ?_
  refine .bind (does_reportSolar drv _) fun _ => ?_
  refine .bind (does_readChannel _ _ (DriverSteps.readAtoD _ _)) fun vad => ?_
  exact .bind (does_readChannel _ _ (DriverSteps.readVsens _)) fun vsens => .pure _

theorem does_beforeTemp (v : Option Ds2438v) : Does R (beforeTemp drv n v) := by
  have hsel : Does R (selectUnless drv n v) := by
    cases v with
    | none => exact does_w1SelectDevice drv n
    | some v => exact .pure _
  refine .bind (does_makeSerial n) fun _ => .bind hsel fun sel => ?_
  refine .bind does_w1SetInvalid fun _ => .ite (fun _ => ?_) fun _ => .pure _
  exact .bind (does_channels drv v) fun _ => .pure _

theorem does_beforeHumidityTemp : Does R (beforeHumidityTemp drv n) := by
  refine .bind (does_makeSerial n) fun _ => .bind does_w1SetInvalid fun _ => ?_
  refine .bind (does_w1SelectDevice drv n) fun found => ?_
  exact .ite (fun _ => does_beforeTemp drv _) fun _ => .pure _

end

/-! ## The sensor in one slot -/

section
variable {σ : Type} {w : Device} {n j : ℕ} {t : Int} {P Q : Sensor → Prop} {s s' : Machine σ}

/-- Device `n` is set up as `w`, and this is known of its sensor `j`. -/
structure Holding (w : Device) (n j : ℕ) (t : Int) (P : Sensor → Prop) (s : Machine σ) : Prop where
  setUp : SetUp w n s
  logtime : s.w1.logtime = t
  sensor : ∃ x, s.slot? n j = some x ∧ P x

theorem Holding.mono (h : Holding w n j t P s) (hPQ : ∀ x, P x → Q x) : Holding w n j t Q s := by
  obtain ⟨x, hx, hP⟩ := h.sensor
  exact ⟨h.setUp, h.logtime, x, hx, hPQ x hP⟩

theorem holding_quiet {α : Type} {m : M σ α} (hq : Does Quiet m)
    (hset : Avoids (fun _ => False) (SetUp w n) m fun _ => SetUp w n) :
    Ends (Holding w n j t P) m fun _ => Holding w n j t P := by
  intro s a s' hs hr
  have hsame : SameSlots n s s' := by
    refine hq.keeps (P := fun u => SameSlots n s u) ?_ hr ⟨fun _ => rfl, rfl⟩
    intro u u' hstep hu
    have hnext : SameSlots n u u' := hstep.sameSlots
    exact ⟨fun k => (hnext.slot? k).trans (hu.slot? k), hnext.logtime.trans hu.logtime⟩
  obtain ⟨x, hx, hP⟩ := hs.sensor
  exact ⟨(hset s hs.setUp).2 a s' hr, hsame.logtime.trans hs.logtime, x, (hsame.slot? j).trans hx, hP⟩

theorem holding_call {α : Type} (f : σ → α × σ) :
    Ends (Holding w n j t P) (call f) fun _ => Holding w n j t P :=
  holding_quiet (does_anyCall f) (avoids_call (guard_setUp w n) f)

theorem holding_w1Replog : Ends (Holding w n j t P) (w1Replog (σ := σ)) fun _ => Holding w n j t P :=
  holding_quiet does_w1Replog (avoids_w1Replog (guard_setUp w n))

theorem holding_makeSerial :
    Ends (Holding w n j t P) (makeSerial (σ := σ) n) fun _ => Holding w n j t P :=
  holding_quiet (does_makeSerial n) (avoids_makeSerial (guard_setUp w n))

theorem holding_w1SelectDevice (drv : Driver σ) :
    Ends (Holding w n j t P) (w1SelectDevice drv n) fun _ => Holding w n j t P :=
  holding_quiet (does_w1SelectDevice drv n) (avoids_w1SelectDevice drv (guard_setUp w n))

theorem holding_dev : Ends (Holding w n j t P) (dev (σ := σ) n) fun _ => Holding w n j t P := by
  intro s d s' hs hr
  obtain ⟨-, rfl⟩ := run_dev_ok.mp hr
  exact hs

theorem holding_slot (k : ℕ) :
    Ends (Holding w n j t P) (slot (σ := σ) n k) fun _ => Holding w n j t P := by
  intro s d s' hs hr
  obtain ⟨-, rfl⟩ := run_slot_ok.mp hr
  exact hs

theorem SetUp.matchSensor (hs : SetUp w n s) {name : String} {r : Option ℕ}
    (h : (matchSensor n name.toList).run s = .ok (r, s')) : r = w.finds name ∧ s' = s := by
  obtain ⟨d, s₁, h₁, h₂⟩ := run_bind_ok.mp h
  obtain ⟨hd, rfl⟩ := run_dev_ok.mp h₁
  obtain ⟨hr, rfl⟩ := run_lift_ok.mp h₂
  obtain ⟨d', hd', hw⟩ := hs
  obtain rfl := Option.some.inj (hd'.symm.trans hd)
  rw [w1MatchSensor_setup hw] at hr
  exact ⟨(Device.finds_of_ok hr).symm, rfl⟩

theorem holding_matchSensor (name : String) :
    Ends (Holding w n j t P) (matchSensor (σ := σ) n name.toList) fun r s =>
      Holding w n j t P s ∧ r = w.finds name := by
  intro s r s' hs hr
  obtain ⟨rfl, rfl⟩ := hs.setUp.matchSensor hr
  exact ⟨hs, rfl⟩

/-- An assignment to a sensor, which may be this one. -/
theorem holding_modifySlot (k : ℕ) {f : Sensor → Sensor} (hf : ∀ x, (f x).label = x.label)
    (hj : k = j → ∀ x, P x → Q (f x)) (hne : k ≠ j → ∀ x, P x → Q x) :
    Ends (Holding w n j t P) (modifySlot (σ := σ) n k f) fun _ => Holding w n j t Q := by
  intro s u s' hs hr
  obtain ⟨hslot, rfl⟩ := run_modifySlot_ok.mp hr
  obtain ⟨y, hy⟩ := Option.isSome_iff_exists.mp hslot
  obtain ⟨x, hx, hP⟩ := hs.sensor
  refine ⟨hs.setUp.modifySlot hy (hf y), hs.logtime, ?_⟩
  by_cases hk : k = j
  · subst hk
    exact ⟨f x, Machine.slot?_modifySlot_self hx, hj rfl x hP⟩
  · exact ⟨x, by rw [Machine.slot?_modifySlot_of_ne fun h => hk h.2, hx], hne hk x hP⟩

theorem holding_clearValid (k : ℕ) (hj : k = j → ∀ x, P x → Q { x with valid := false })
    (hne : k ≠ j → ∀ x, P x → Q x) :
    Ends (Holding w n j t P) (clearValid (σ := σ) n k) fun _ => Holding w n j t Q :=
  holding_modifySlot k (fun _ => rfl) hj hne

theorem holding_w1SetInvalid (hj : j < w.ns) (hPQ : ∀ x, P x → Q { x with valid := false }) :
    Ends (Holding w n j t P) (w1SetInvalid (σ := σ) n) fun _ => Holding w n j t Q := by
  intro s u s' hs hr
  obtain rfl := run_modifyDev_ok.mp hr
  obtain ⟨d, hd, hw⟩ := hs.setUp
  obtain ⟨x, hx, hP⟩ := hs.sensor
  have hns : j < d.ns := by
    simp only [Device.setup, Prod.mk.injEq] at hw
    rw [hw.2.2.1]
    exact hj
  refine ⟨hs.setUp.modifyDev fun d _ => setup_setInvalid d, hs.logtime, _, ?_, hPQ x hP⟩
  rw [Machine.slot?, hd, Option.bind_some] at hx
  rw [Machine.slot?, Machine.modifyDev_getElem?, if_pos rfl, hd, Option.map_some, Option.bind_some,
    Device.setInvalid_getElem?, if_pos hns, hx]
  rfl

/-- `w1_validate` on a value that has been stored in the sensor. -/
def Sensor.judged (x : Sensor) (t : Int) (v : ℚ) : Sensor :=
  match w1Validate t { x with value := v } with
  | .ok x' => x'
  | .error _ => { x with value := v }

/-- Storing a value in a sensor, which may be this one. -/
theorem holding_store (k : ℕ) (v : ℚ) (hne : k ≠ j → ∀ x, P x → Q x)
    (hj : k = j → ∀ x, P x → (∃ x', w1Validate t { x with value := v } = .ok x') →
      Q (x.judged t v)) :
    Ends (Holding w n j t P) (store (σ := σ) n k fun x => { x with value := v })
      fun _ => Holding w n j t Q := by
  intro s r s' hs hr
  obtain ⟨y, y', es, hy, hy', -, -, rfl⟩ := run_store_ok hr
  obtain ⟨x, hx, hP⟩ := hs.sensor
  have hlabel := w1Validate_label hy'
  have hset : SetUp w n (s.modifyDev n (·.modifySlot k fun _ => y')) :=
    hs.setUp.modifySlot hy hlabel
  refine ⟨hset, hs.logtime, ?_⟩
  by_cases hk : k = j
  · subst hk
    obtain rfl := Option.some.inj (hx.symm.trans hy)
    rw [hs.logtime] at hy'
    have hjudged : x.judged t v = y' := by rw [Sensor.judged, hy']
    refine ⟨y', Machine.put_slot?_self _ hy, ?_⟩
    rw [← hjudged]
    exact hj rfl x hP ⟨y', hy'⟩
  · exact ⟨x, (Machine.put_slot?_of_ne _ hk).trans hx, hne hk x hP⟩

/-- The same, for the sensor that a name finds. -/
theorem holding_offer (name : String) (v : ℚ) (hne : w.finds name ≠ some j → ∀ x, P x → Q x)
    (hj : w.finds name = some j → ∀ x, P x → (∃ x', w1Validate t { x with value := v } = .ok x') →
      Q (x.judged t v)) :
    Ends (Holding w n j t P) (offer (σ := σ) n name v) fun _ => Holding w n j t Q := by
  refine .bind (holding_matchSensor name) fun r => .given fun hr => ?_
  cases r with
  | none => exact .pure fun _ hs => hs.mono (hne (by rw [← hr]; exact nofun))
  | some k =>
    refine holding_store k v (fun hk => hne ?_) fun hk => hj ?_
    · rw [← hr]
      exact fun hsome => hk (Option.some.inj hsome)
    · rw [← hr, hk]

/-! ## The first two sensors -/

def BothValid (n : ℕ) (s : Machine σ) : Prop := ∀ k < 2, ∃ x, s.slot? n k = some x ∧ x.valid = true

theorem run_firstTwoInvalid {b : Bool} (h : (firstTwoInvalid n).run s = .ok (b, s')) :
    s' = s ∧ (b = true ↔ ¬ BothValid n s) := by
  obtain ⟨x, s₁, hx, hrun⟩ := run_bind_ok.mp h
  obtain ⟨hx, rfl⟩ := run_slot_ok.mp hx
  by_cases hvalid : x.valid = true
  · rw [if_pos hvalid] at hrun
    obtain ⟨y, s₂, hsecond, hrest⟩ := run_bind_ok.mp hrun
    obtain ⟨hy, rfl⟩ := run_slot_ok.mp hsecond
    obtain ⟨rfl, rfl⟩ := run_pure_ok.mp hrest
    refine ⟨rfl, ?_⟩
    rw [Bool.not_eq_true', ← Bool.not_eq_true]
    apply not_congr
    constructor
    · intro hvalid' k hk
      match k, hk with
      | 0, _ => exact ⟨x, hx, hvalid⟩
      | 1, _ => exact ⟨y, hy, hvalid'⟩
    · intro hboth
      obtain ⟨y', hy', hvalid'⟩ := hboth 1 one_lt_two
      rwa [Option.some.inj (hy.symm.trans hy')]
  · rw [if_neg hvalid] at hrun
    obtain ⟨rfl, rfl⟩ := run_pure_ok.mp hrun
    refine ⟨rfl, iff_of_true rfl fun hboth => hvalid ?_⟩
    obtain ⟨x', hx', hvalid'⟩ := hboth 0 two_pos
    rwa [Option.some.inj (hx.symm.trans hx')]

theorem holding_reportHumidity :
    Ends (Holding w n j t P) (reportHumidity (σ := σ) n) fun _ => Holding w n j t P := by
  intro s u s' hs hr
  obtain ⟨b, s₁, hfirst, hrest⟩ := run_bind_ok.mp hr
  obtain ⟨rfl, -⟩ := run_firstTwoInvalid hfirst
  exact Ends.ite (fun _ => holding_w1Replog) (fun _ => .pure fun _ hs => hs) _ _ _ hs hrest

theorem run_clearUnlessBoth {u : Unit} (hs : Holding w n j t P s)
    (h : (clearUnlessBoth n).run s = .ok (u, s')) :
    (2 ≤ j ∨ BothValid n s → Holding w n j t P s') ∧
      (j < 2 → ¬ BothValid n s → Holding w n j t (fun x => x.valid = false) s') := by
  obtain ⟨b, s₁, hfirst, hrest⟩ := run_bind_ok.mp h
  obtain ⟨rfl, hb⟩ := run_firstTwoInvalid hfirst
  cases b with
  | false =>
    obtain ⟨-, rfl⟩ := run_pure_ok.mp hrest
    exact ⟨fun _ => hs, fun _ hnot => by cases hb.mpr hnot⟩
  | true =>
    obtain ⟨_, s₂, hreport, hrest⟩ := run_bind_ok.mp hrest
    have hs₂ := holding_w1Replog _ _ _ hs hreport
    obtain ⟨_, s₃, hclear, hrest⟩ := run_bind_ok.mp hrest
    constructor
    · intro hj
      have hj : 2 ≤ j := hj.resolve_right (hb.mp rfl)
      have hs₃ := holding_clearValid 1 (Q := P) (by omega) (fun _ _ hx => hx) _ _ _ hs₂ hclear
      exact holding_clearValid 0 (by omega) (fun _ _ hx => hx) _ _ _ hs₃ hrest
    · intro hj _
      have hs₃ := holding_clearValid 1 (Q := fun x => j = 1 → x.valid = false) (fun _ _ _ _ => rfl)
        (fun hne _ _ h => absurd h.symm hne) _ _ _ hs₂ hclear
      exact holding_clearValid 0 (fun _ _ _ => rfl) (fun _ x hx => hx (by omega)) _ _ _ hs₃ hrest

/-- What the caller gets: its temperature is not set yet. -/
theorem beforeTemp_temp (drv : Driver σ) (v : Ds2438v) :
    Ends (fun _ => True) (beforeTemp drv n (some v)) fun r _ =>
      ∀ q, r = some q → 0 ≤ q.1 ∧ ∃ v', q.2 = some v' ∧ v'.temp = v.temp := by
  have hany : ∀ {α : Type} (m : M σ α), Ends (fun _ => True) m fun _ _ => True :=
    fun _ _ _ _ _ _ => trivial
  refine .bind (hany _) fun _ => .bind (hany _) fun sel => .bind (hany _) fun _ => ?_
  refine .ite (fun _ => .bind (Q := fun r _ => 0 ≤ r.1 ∧ ∃ v', r.2 = some v' ∧ v'.temp = v.temp) ?_
    fun r => ?_) fun _ => .pure fun _ _ => nofun
  · refine .bind (hany _) fun d => .bind (hany _) fun vdd => .bind (hany _) fun _ => ?_
    refine .bind (hany _) fun vad => .bind (hany _) fun vsens => .pure fun _ _ => ⟨?_, _, rfl, rfl⟩
    positivity
  · refine .pure fun _ hr q hq => ?_
    rw [← Option.some.inj hq]
    exact hr

theorem beforeHumidityTemp_temp (drv : Driver σ) :
    Ends (fun _ => True) (beforeHumidityTemp drv n) fun r _ =>
      ∀ q, r = some q → 0 ≤ q.1 ∧ ∃ v', q.2 = some v' ∧ v'.temp = 0 := by
  have hany : ∀ {α : Type} (m : M σ α), Ends (fun _ => True) m fun _ _ => True :=
    fun _ _ _ _ _ _ => trivial
  refine .bind (hany _) fun _ => .bind (hany _) fun _ => .bind (hany _) fun found => ?_
  exact .ite (fun _ => beforeTemp_temp drv _) fun _ => .pure fun _ _ => nofun

/-! ## Verdicts -/

theorem judged_cases {x : Sensor} {v : ℚ} (h : ∃ x', w1Validate t { x with value := v } = .ok x') :
    (Accepts t x v ∧ x.judged t v = { x with value := v }.accept t) ∨
      (¬ Accepts t x v ∧ ∃ u r, x.judged t v = { x with value := v }.reject u r) := by
  obtain ⟨x', hx'⟩ := h
  have hjudged : x.judged t v = x' := by rw [Sensor.judged, hx']
  have hmemory : ({ x with value := v } : Sensor).memory = x.memory := rfl
  rw [hjudged]
  rcases w1Validate_cases hx' with ⟨hacc, hx⟩ | ⟨hrej, hx⟩
  · exact Or.inl ⟨accepts_congr hmemory hacc, hx⟩
  · exact Or.inr ⟨fun hacc => hrej (accepts_congr hmemory.symm hacc), hx⟩

theorem judged_valid {x : Sensor} {v : ℚ} (h : ∃ x', w1Validate t { x with value := v } = .ok x') :
    (x.judged t v).valid = true ↔ Accepts t x v := by
  rcases judged_cases h with ⟨hacc, hx⟩ | ⟨hrej, u, r, hx⟩
  · rw [hx]
    exact iff_of_true rfl hacc
  · rw [hx]
    exact iff_of_false (by simp [Sensor.reject]) hrej

theorem judged_value {x : Sensor} {v : ℚ} (h : ∃ x', w1Validate t { x with value := v } = .ok x')
    (hvalid : (x.judged t v).valid = true) : (x.judged t v).value = v := by
  rcases judged_cases h with ⟨-, hx⟩ | ⟨hrej, -⟩
  · rw [hx]
    rfl
  · exact absurd ((judged_valid h).mp hvalid) hrej

/-- What has been accepted is accepted again. -/
theorem judged_again {x : Sensor} {v : ℚ} (h : ∃ x', w1Validate t { x with value := v } = .ok x')
    (hacc : Accepts t x v) : Accepts t (x.judged t v) v := by
  rcases judged_cases h with ⟨-, hx⟩ | ⟨hrej, -⟩
  · rw [hx]
    exact ⟨hacc.rmin, hacc.rmax, fun _ _ hne => absurd rfl hne, fun _ _ _ => le_rfl⟩
  · exact absurd hacc hrej

/-- A rejected value leaves what the tests look at. -/
theorem judged_rejected {x : Sensor} {v u : ℚ}
    (h : ∃ x', w1Validate t { x with value := v } = .ok x') (hrej : ¬ Accepts t x v) :
    Accepts t (x.judged t v) u ↔ Accepts t x u := by
  rcases judged_cases h with ⟨hacc, -⟩ | ⟨-, w, r, hx⟩
  · exact absurd hacc hrej
  · have hmemory : (x.judged t v).memory = x.memory := by rw [hx]; rfl
    exact ⟨accepts_congr hmemory, accepts_congr hmemory.symm⟩

/-! ## The channels before it -/

/-- No channel has left a -1. -/
def Sensor.Real (x : Sensor) : Prop := x.valid = true → x.value ≠ -1

theorem holding_readChannel (name : String) (wanted : Bool) (read : σ → ℚ × σ) :
    Ends (Holding w n j t Sensor.Real) (readChannel n name wanted read)
      fun _ => Holding w n j t Sensor.Real := by
  refine .bind (holding_matchSensor name) fun r => .given fun _ => .ite (fun _ => ?_) fun _ =>
    .pure fun _ hs => hs
  refine .bind (holding_call _) fun val => ?_
  cases r with
  | none => exact .pure fun _ hs => hs
  | some k =>
    refine .ite (fun hval => .bind (holding_store k val (fun _ _ hx => hx) ?_) fun _ => .pure fun _ hs => hs)
      fun _ => .bind (holding_clearValid k (fun _ _ _ => nofun) fun _ _ hx => hx) fun _ =>
        .pure fun _ hs => hs
    intro _ x _ hok hvalid
    rw [judged_value hok hvalid]
    exact hval

theorem holding_reportSolar (drv : Driver σ) (vdd : Option ℚ) :
    Ends (Holding w n j t P) (reportSolar drv n vdd) fun _ => Holding w n j t P := by
  refine .ite (fun _ => .bind (holding_matchSensor "Solar") fun r => .given fun _ => ?_) fun _ =>
    .pure fun _ hs => hs
  refine .ite (fun _ => .bind holding_dev fun d => .bind (holding_call _) fun _ => holding_w1Replog)
    fun _ => .pure fun _ hs => hs

theorem holding_channels (drv : Driver σ) (v : Option Ds2438v) :
    Ends (Holding w n j t Sensor.Real) (channels drv n v) fun _ => Holding w n j t Sensor.Real := by
  refine .bind holding_dev fun d => .bind (holding_readChannel _ _ _) fun vdd => ?_
  refine .bind (holding_reportSolar drv _) fun _ => .bind (holding_readChannel _ _ _) fun vad => ?_
  exact .bind (holding_readChannel _ _ _) fun vsens => .pure fun _ hs => hs

theorem holding_selectUnless (drv : Driver σ) (v : Option Ds2438v) :
    Ends (Holding w n j t P) (selectUnless drv n v) fun _ => Holding w n j t P := by
  cases v with
  | none => exact holding_w1SelectDevice drv
  | some v => exact .pure fun _ hs => hs

/-- Before the temperature: without a device no sensor is valid. -/
theorem holding_beforeTemp (drv : Driver σ) (hj : j < w.ns) (v : Option Ds2438v) :
    Ends (Holding w n j t fun _ => True) (beforeTemp drv n v) fun r =>
      Holding w n j t fun x => x.Real ∧ (r = none → x.valid = false) := by
  refine .bind holding_makeSerial fun _ => .bind (holding_selectUnless drv v) fun sel => ?_
  refine .bind (holding_w1SetInvalid hj (Q := fun x => x.valid = false) fun _ _ => rfl) fun _ => ?_
  have hreal : ∀ x : Sensor, x.valid = false → x.Real := by
    intro x hx hvalid
    rw [hx] at hvalid
    cases hvalid
  refine .ite (fun _ => ?_) fun _ => .pure fun _ hs => hs.mono fun x hx => ⟨hreal x hx, fun _ => hx⟩
  have hchannels : Ends (Holding w n j t fun x => x.valid = false) (channels drv n v)
      fun _ => Holding w n j t Sensor.Real :=
    (holding_channels drv v).conseq (fun _ hs => hs.mono hreal) fun _ _ hs => hs
  exact .bind hchannels fun r => .pure fun _ hs => hs.mono fun x hx => ⟨hx, fun hr => by cases hr⟩

theorem holding_beforeHumidityTemp (drv : Driver σ) (hj : j < w.ns) :
    Ends (Holding w n j t fun _ => True) (beforeHumidityTemp drv n) fun r =>
      Holding w n j t fun x => x.Real ∧ (r = none → x.valid = false) := by
  refine .bind holding_makeSerial fun _ => ?_
  refine .bind (holding_w1SetInvalid hj (Q := fun x => x.valid = false) fun _ _ => rfl) fun _ => ?_
  refine .bind (holding_w1SelectDevice drv) fun found => .ite (fun _ => ?_) fun _ => ?_
  · exact (holding_beforeTemp drv hj _).conseq (fun _ hs => hs.mono fun _ _ => trivial) fun _ _ hs => hs
  · refine .pure fun _ hs => hs.mono fun x hx => ⟨?_, fun _ => hx⟩
    intro hvalid
    rw [hx] at hvalid
    cases hvalid

end
end W1Retap
