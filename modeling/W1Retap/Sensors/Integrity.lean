import W1Retap.Sensors.Temperatures

/-!
# The temperature that is kept

When a reader returns, the temperature sensor should be valid exactly when this call has
measured a temperature that `w1_validate` accepts, and hold it. Three things go wrong:
`Get_Temperature` and its callers do not agree on the number that is no measurement, an
unset copy of the temperature is offered again as 0, and `w1_read_hih` clears by slot.
-/
namespace W1Retap.Ds2438

open Programs

/-! ## What a reader knows -/

/-- The temperature sensor when the temperature is asked for, what `Get_Temperature` answers,
and what is measured. -/
structure Exchange where
  logtime : Int
  sensor : Sensor
  answer : ℚ
  measured : Option ℚ

namespace Exchange

variable (e : Exchange)

/-- The sensor is valid only with the temperature that was measured and accepted; and if one
was measured that is within the limits, it is. -/
structure Kept (x : Sensor) : Prop where
  sound : x.valid = true → e.measured = some x.value ∧ Accepts e.logtime e.sensor x.value
  complete : ∀ v, e.measured = some v → Accepts e.logtime e.sensor v → x.valid = true ∧ x.value = v

/-- Nothing was measured that the sensor can take. -/
def Unmeasured : Prop := ∀ v, e.measured = some v → ¬ Accepts e.logtime e.sensor v

/-- The sensor after the temperature channel; -1 stores nothing. -/
def after : Sensor :=
  if e.answer = -1 then e.sensor else e.sensor.judged e.logtime e.answer

/-- The caller gets the answer. -/
def taken : Bool := e.answer != -1 && (e.sensor.judged e.logtime e.answer).valid

/-- `v.temp`, which was 0. -/
def temp : ℚ := if e.taken then e.answer else 0

/-- The channel is right about the sensor. -/
structure Stored : Prop where
  failed : e.answer = -1 → e.sensor.valid = false ∧ e.Unmeasured
  answered : e.answer ≠ -1 → Accepts e.logtime e.sensor e.answer → e.measured = some e.answer

/-- The channel is right about the sensor, and 0 is not offered to it in vain. -/
structure StoredTwice : Prop where
  accepted : e.answer ≠ -1 → Accepts e.logtime e.sensor e.answer → e.measured = some e.answer
  refused : (e.answer = -1 ∨ ¬ Accepts e.logtime e.sensor e.answer) →
    ¬ Accepts e.logtime e.sensor 0 ∧ e.Unmeasured

/-- A sensor that ends with another value `u`, judged in the state `y`. -/
structure Overwritten (y : Sensor) (u : ℚ) : Prop where
  accepted : Accepts e.logtime y u → e.measured = some u ∧ Accepts e.logtime e.sensor u
  refused : ¬ Accepts e.logtime y u → e.Unmeasured

variable {e}

theorem kept_of_invalid {x : Sensor} (hx : x.valid = false) : e.Kept x ↔ e.Unmeasured := by
  constructor
  · intro h v hv hacc
    rw [(h.complete v hv hacc).1] at hx
    cases hx
  · refine fun h => ⟨fun hvalid => ?_, fun v hv hacc => absurd hacc (h v hv)⟩
    rw [hx] at hvalid
    cases hvalid

theorem kept_judged {y : Sensor} {u : ℚ}
    (hok : ∃ x', w1Validate e.logtime { y with value := u } = .ok x') :
    e.Kept (y.judged e.logtime u) ↔ e.Overwritten y u := by
  have hvalid := judged_valid hok
  by_cases hacc : Accepts e.logtime y u
  · have hvalue := judged_value hok (hvalid.mpr hacc)
    constructor
    · intro h
      have hsound := h.sound (hvalid.mpr hacc)
      rw [hvalue] at hsound
      exact ⟨fun _ => hsound, fun hrej => absurd hacc hrej⟩
    · intro h
      obtain ⟨hmeas, hin⟩ := h.accepted hacc
      refine ⟨fun _ => by rw [hvalue]; exact ⟨hmeas, hin⟩, fun v hv _ => ⟨hvalid.mpr hacc, ?_⟩⟩
      rw [hvalue]
      exact Option.some.inj (hmeas.symm.trans hv)
  · have hinvalid : (y.judged e.logtime u).valid = false := by
      rw [← Bool.not_eq_true, hvalid]
      exact hacc
    rw [kept_of_invalid hinvalid]
    exact ⟨fun h => ⟨fun h' => absurd h' hacc, fun _ => h⟩, fun h => h.refused hacc⟩

/-- What is measured is answered. -/
theorem kept_stored (hanswer : ∀ v, e.measured = some v → e.answer = v) (hreal : e.sensor.Real)
    (hok : e.answer ≠ -1 → ∃ x', w1Validate e.logtime { e.sensor with value := e.answer } = .ok x') :
    e.Kept e.after ↔ e.Stored := by
  by_cases hminus : e.answer = -1
  · rw [after, if_pos hminus]
    by_cases hvalid : e.sensor.valid = true
    · refine iff_of_false (fun h => hreal hvalid ?_) fun h => ?_
      · rw [← hanswer _ (h.sound hvalid).1, hminus]
      · rw [(h.failed hminus).1] at hvalid
        cases hvalid
    · rw [kept_of_invalid (by simpa using hvalid)]
      refine ⟨fun h => ⟨fun _ => ⟨by simpa using hvalid, h⟩, fun hne => absurd hminus hne⟩, ?_⟩
      exact fun h => (h.failed hminus).2
  · rw [after, if_neg hminus, kept_judged (hok hminus)]
    constructor
    · exact fun h => ⟨fun h' => absurd h' hminus, fun _ hacc => (h.accepted hacc).1⟩
    · refine fun h => ⟨fun hacc => ⟨h.answered hminus hacc, hacc⟩, fun hrej v hv => ?_⟩
      rw [← hanswer v hv]
      exact hrej

theorem taken_iff
    (hok : e.answer ≠ -1 → ∃ x', w1Validate e.logtime { e.sensor with value := e.answer } = .ok x') :
    e.taken = true ↔ e.answer ≠ -1 ∧ Accepts e.logtime e.sensor e.answer := by
  rw [taken, Bool.and_eq_true, bne_iff_ne]
  exact and_congr_right fun hne => judged_valid (hok hne)

/-- The temperature is offered again: the same one is accepted again, and 0 is what the sensor
gets otherwise. -/
theorem kept_storedTwice (hanswer : ∀ v, e.measured = some v → e.answer = v)
    (hok : e.answer ≠ -1 → ∃ x', w1Validate e.logtime { e.sensor with value := e.answer } = .ok x')
    (hagain : ∃ x', w1Validate e.logtime { e.after with value := e.temp } = .ok x') :
    e.Kept (e.after.judged e.logtime e.temp) ↔ e.StoredTwice := by
  rw [kept_judged hagain]
  by_cases htaken : e.taken = true
  · obtain ⟨hne, hacc⟩ := (taken_iff hok).mp htaken
    have hafter : Accepts e.logtime e.after e.answer := by
      rw [after, if_neg hne]
      exact judged_again (hok hne) hacc
    rw [temp, if_pos htaken]
    constructor
    · refine fun h => ⟨fun _ _ => (h.accepted hafter).1, fun hnot => ?_⟩
      rcases hnot with hminus | hrej
      · exact absurd hminus hne
      · exact absurd hacc hrej
    · exact fun h => ⟨fun _ => ⟨h.accepted hne hacc, hacc⟩, fun hrej => absurd hafter hrej⟩
  · have hnot : e.answer = -1 ∨ ¬ Accepts e.logtime e.sensor e.answer := by
      rw [taken_iff hok] at htaken
      tauto
    have hzero : Accepts e.logtime e.after 0 ↔ Accepts e.logtime e.sensor 0 := by
      by_cases hminus : e.answer = -1
      · rw [after, if_pos hminus]
      · rw [after, if_neg hminus]
        exact judged_rejected (hok hminus) (hnot.resolve_left hminus)
    rw [temp, if_neg htaken]
    constructor
    · intro h
      have hrefused : ¬ Accepts e.logtime e.sensor 0 := by
        intro hacc
        have hanswered := hanswer 0 (h.accepted (hzero.mpr hacc)).1
        rcases hnot with hminus | hrej
        · rw [hanswered] at hminus
          norm_num at hminus
        · exact hrej (hanswered ▸ hacc)
      refine ⟨fun hne hacc => ?_, fun _ => ⟨hrefused, h.refused fun hacc => hrefused (hzero.mp hacc)⟩⟩
      exact absurd hnot (by tauto)
    · intro h
      obtain ⟨hrefused, hun⟩ := h.refused hnot
      exact ⟨fun hacc => absurd (hzero.mp hacc) hrefused, fun _ => hun⟩

end Exchange

/-! ## The temperature channel -/

section
variable {σ : Type} {w : Device} {n j : ℕ} {t : Int} {s s' : Machine σ}

/-- What there is in state `s` for sensor `j`. -/
def exchange (wire : Wire σ) (n j : ℕ) (s : Machine σ) : Option Exchange :=
  s.w1.devs[n]?.bind fun d => d.s[j]?.map fun x =>
    { logtime := s.w1.logtime
      sensor := x
      answer := ((getTemperature wire d.serno).run s.bus).1
      measured := ((transaction wire d.serno).run s.bus).1 }

/-- The driver with the temperature of the library. -/
def onWire (drv : Driver σ) (wire : Wire σ) : Driver σ :=
  { drv with getTemperature := fun serno => (getTemperature wire serno).run }

variable {drv : Driver σ} {wire : Wire σ} {e : Exchange}

theorem exchange_of_holding (wire : Wire σ) {P : Sensor → Prop} (h : Holding w n j t P s) :
    ∃ e, exchange wire n j s = some e ∧ P e.sensor := by
  obtain ⟨x, hx, hP⟩ := h.sensor
  obtain ⟨d, hd, hx⟩ := Option.bind_eq_some_iff.mp hx
  exact ⟨_, by rw [exchange, hd, Option.bind_some, hx]; rfl, hP⟩

theorem exchange_fields (he : exchange wire n j s = some e) :
    ∃ d, s.w1.devs[n]? = some d ∧ s.slot? n j = some e.sensor ∧ s.w1.logtime = e.logtime ∧
      ((getTemperature wire d.serno).run s.bus).1 = e.answer ∧
      ((transaction wire d.serno).run s.bus).1 = e.measured := by
  obtain ⟨d, hd, he⟩ := Option.bind_eq_some_iff.mp he
  obtain ⟨x, hx, rfl⟩ := Option.map_eq_some_iff.mp he
  exact ⟨d, hd, by rw [Machine.slot?, hd, Option.bind_some, hx], rfl, rfl, rfl⟩

theorem exchange_answer (he : exchange wire n j s = some e) {v : ℚ} (hv : e.measured = some v) :
    e.answer = v := by
  obtain ⟨d, -, -, -, hanswer, hmeasured⟩ := exchange_fields he
  rw [← hanswer]
  exact getTemperature_of_transaction (hmeasured.trans hv)

/-- The run of the temperature channel. -/
theorem run_readTempChannel (hs : SetUp w n s) (hj : w.finds "temp" = some j)
    (he : exchange wire n j s = some e) {v : Option Ds2438v} {r : ℕ × Option Ds2438v}
    (h : (readTempChannel (onWire drv wire) n v).run s = .ok (r, s')) :
    Holding w n j e.logtime (· = e.after) s' ∧
      (e.answer ≠ -1 → ∃ x', w1Validate e.logtime { e.sensor with value := e.answer } = .ok x') ∧
      r = (if e.taken then 1 else 0, v.map fun v => if e.taken then { v with temp := e.answer } else v) := by
  obtain ⟨d, hd, hx, hlogtime, hanswer, -⟩ := exchange_fields he
  obtain ⟨k, s₁, hmatch, hrun⟩ := run_bind_ok.mp h
  obtain ⟨rfl, rfl⟩ := hs.matchSensor hmatch
  rw [run_dev_bind hd, if_pos (by rw [hj]; simp), run_call_bind, hj] at hrun
  have hval : ((onWire drv wire).getTemperature d.serno s₁.bus).1 = e.answer := hanswer
  rw [hval] at hrun
  have hcalled : Holding w n j e.logtime (· = e.sensor)
      (s₁.setBus ((onWire drv wire).getTemperature d.serno s₁.bus).2) :=
    holding_call ((onWire drv wire).getTemperature d.serno) s₁ _ _ ⟨hs, hlogtime, _, hx, rfl⟩ rfl
  by_cases hminus : e.answer = -1
  · have hbeq : (e.answer == -1) = true := by simpa using hminus
    have htaken : e.taken = false := by simp [Exchange.taken, hminus]
    rw [hbeq] at hrun
    obtain ⟨rfl, rfl⟩ := run_pure_ok.mp hrun
    refine ⟨?_, fun hne => absurd hminus hne, ?_⟩
    · rw [Exchange.after, if_pos hminus]
      exact hcalled
    · simp [htaken]
  · have hbeq : (e.answer == -1) = false := by simpa using hminus
    rw [hbeq] at hrun
    obtain ⟨nv, s₂, hstore, hrun⟩ := run_bind_ok.mp hrun
    obtain ⟨rfl, rfl⟩ := run_pure_ok.mp hrun
    obtain ⟨y, y', es, hy, hy', -, rfl, -⟩ := run_store_ok hstore
    obtain ⟨x, hx', rfl⟩ := hcalled.sensor
    obtain rfl := Option.some.inj (hx'.symm.trans hy)
    rw [hcalled.logtime] at hy'
    have hjudged : e.sensor.judged e.logtime e.answer = y' := by rw [Sensor.judged, hy']
    have htaken : e.taken = y'.valid := by simp [Exchange.taken, hminus, hjudged]
    refine ⟨?_, fun _ => ⟨y', hy'⟩, ?_⟩
    · rw [Exchange.after, if_neg hminus]
      refine holding_store j e.answer (fun hne => absurd rfl hne) ?_ _ _ _ hcalled hstore
      rintro - _ rfl -
      rfl
    · rw [htaken]
      cases y'.valid <;> simp

/-! ## The readers -/

inductive Reader where
  | voltages (v : Option Ds2438v)
  | humidity
  | hih

namespace Reader

variable (reader : Reader) (drv : Driver σ) (wire : Wire σ) (n : ℕ)

/-- The call returns with this state. -/
def Returns (s s' : Machine σ) : Prop :=
  match reader with
  | voltages v => ∃ r, (w1ReadVoltages (onWire drv wire) n v).run s = .ok (r, s')
  | humidity => ∃ r, (w1ReadHumidity (onWire drv wire) n).run s = .ok (r, s')
  | hih => ∃ r, (w1ReadHih (onWire drv wire) n).run s = .ok (r, s')

/-- The call up to the temperature. -/
def before : M σ (Option (Int × Option Ds2438v)) :=
  match reader with
  | voltages v => beforeTemp (onWire drv wire) n v
  | humidity | hih => beforeHumidityTemp (onWire drv wire) n

/-- The temperature sensor holds what this call has measured, and nothing if the device was
not there. -/
def TemperatureKept (s s' : Machine σ) : Prop :=
  ∀ d j, s.w1.devs[n]? = some d → d.finds "temp" = some j →
    ∃ r s₁ e x, (reader.before drv wire n).run s = .ok (r, s₁) ∧ exchange wire n j s₁ = some e ∧
      s'.slot? n j = some x ∧ (r.isSome = true → e.Kept x) ∧ (r = none → x.valid = false)

/-- What each reader needs for that, with the voltages `v` and the exchange `e`. -/
def Right (s : Machine σ) (d : Device) (j : ℕ) (nv : Int) (v : Ds2438v) (e : Exchange) : Prop :=
  match reader with
  | voltages _ => e.Stored
  | humidity =>
    (d.finds "Humidity" ≠ some j → e.StoredTwice) ∧
    (d.finds "Humidity" = some j →
      e.Overwritten (e.after.judged e.logtime e.temp) (relativeHumidity { v with temp := e.temp }))
  | hih => ∀ r s₂, (hihReadings (onWire drv wire) n).run s = .ok (some r, s₂) →
    let offered := d.finds "Humidity" = some j ∧ nv + (if e.taken then 1 else 0) ≠ 0
    (j < 2 → ¬ BothValid n s₂ → e.Unmeasured) ∧
    (2 ≤ j ∨ BothValid n s₂ →
      (¬ offered → e.Stored) ∧
      (offered → e.Overwritten e.after (hihHumidity { v with temp := e.temp })))

/-- The reader is right about the temperature that it comes to ask for. -/
def TemperatureRight (s : Machine σ) : Prop :=
  ∀ d j nv v s₁ e, s.w1.devs[n]? = some d → d.finds "temp" = some j →
    (reader.before drv wire n).run s = .ok (some (nv, v), s₁) → exchange wire n j s₁ = some e →
    reader.Right drv wire n s d j nv (v.getD {}) e

variable {reader drv wire n}
variable {d : Device} {j : ℕ} {nv : Int} {v : Option Ds2438v} {s s₁ s' : Machine σ} {e : Exchange}

theorem kept_voltages (hs : SetUp d n s₁) (hj : d.finds "temp" = some j)
    (he : exchange wire n j s₁ = some e) (hreal : e.sensor.Real) {r : ℕ × Option Ds2438v}
    (h : (readTempChannel (onWire drv wire) n v).run s₁ = .ok (r, s')) :
    ∃ x, s'.slot? n j = some x ∧ (e.Kept x ↔ e.Stored) := by
  obtain ⟨hend, hok, -⟩ := run_readTempChannel hs hj he h
  obtain ⟨x, hx, rfl⟩ := hend.sensor
  exact ⟨_, hx, Exchange.kept_stored (fun _ => exchange_answer he) hreal hok⟩

/-- `v.temp` for the formulas. -/
theorem getD_temp {u : Ds2438v} (hu : u.temp = 0) :
    ((some u).map fun v => if e.taken then { v with temp := e.answer } else v).getD {} =
      { u with temp := e.temp } := by
  rw [Exchange.temp]
  by_cases htaken : e.taken = true
  · simp [htaken]
  · simp [htaken, ← hu]

theorem kept_humidity (hs : SetUp d n s₁) (hj : d.finds "temp" = some j)
    (he : exchange wire n j s₁ = some e) {u : Ds2438v} (hu : u.temp = 0) {r : Int}
    (h : (do
      let temp ← readTempChannel (onWire drv wire) n (some u)
      let v := temp.2.getD {}
      let nvTemp ← offer n "Temp" v.temp
      let nvHumid ← offer n "Humidity" (relativeHumidity v)
      reportHumidity n
      return nv + temp.1 + nvTemp + nvHumid : M σ Int).run s₁ = .ok (r, s')) :
    ∃ x, s'.slot? n j = some x ∧ (e.Kept x ↔ humidity.Right drv wire n s d j nv u e) := by
  obtain ⟨temp, s₂, h₂, hrest⟩ := run_bind_ok.mp h
  obtain ⟨hend, hok, rfl⟩ := run_readTempChannel hs hj he h₂
  simp only [getD_temp hu] at hrest
  obtain ⟨_, s₃, h₃, hrest⟩ := run_bind_ok.mp hrest
  have hagain : Holding d n j e.logtime (fun x => x = e.after.judged e.logtime e.temp ∧
      ∃ x', w1Validate e.logtime { e.after with value := e.temp } = .ok x') s₃ := by
    refine holding_offer "Temp" e.temp ?_ ?_ _ _ _ hend h₃
    · intro hne
      rw [finds_temp] at hne
      exact absurd hj hne
    · rintro - _ rfl hok
      exact ⟨rfl, hok⟩
  obtain ⟨x₃, hx₃, rfl, htwice⟩ := hagain.sensor
  obtain ⟨_, s₄, h₄, hrest⟩ := run_bind_ok.mp hrest
  obtain ⟨_, s₅, h₅, hrest⟩ := run_bind_ok.mp hrest
  obtain ⟨-, rfl⟩ := run_pure_ok.mp hrest
  have hlast : Holding d n j e.logtime (fun x => e.Kept x ↔ humidity.Right drv wire n s d j nv u e) s₄ := by
    refine holding_offer "Humidity" _ ?_ ?_ _ _ _ hagain h₄
    · rintro hne _ ⟨rfl, -⟩
      rw [Exchange.kept_storedTwice (fun _ => exchange_answer he) hok htwice]
      exact ⟨fun h => ⟨fun _ => h, fun heq => absurd heq hne⟩, fun h => h.1 hne⟩
    · rintro heq _ ⟨rfl, -⟩ hok
      rw [Exchange.kept_judged hok]
      exact ⟨fun h => ⟨fun hne => absurd heq hne, fun _ => h⟩, fun h => h.2 heq⟩
  obtain ⟨x, hx, hkept⟩ := (holding_reportHumidity _ _ _ hlast h₅).sensor
  exact ⟨x, hx, hkept⟩

theorem kept_hih (hs : SetUp d n s₁) (hj : d.finds "temp" = some j)
    (he : exchange wire n j s₁ = some e) (hreal : e.sensor.Real) {u : Ds2438v} (hu : u.temp = 0)
    {r : Int} {s₂ : Machine σ}
    (hreadings : (hihReadings (onWire drv wire) n).run s = .ok (some r, s₂))
    (h : (do
      let temp ← readTempChannel (onWire drv wire) n (some u)
      if nv + temp.1 ≠ 0 then
        let nvHumid ← offer n "Humidity" (hihHumidity (temp.2.getD {}))
        return some (nvHumid : Int)
      else
        return some 0 : M σ (Option Int)).run s₁ = .ok (some r, s₂)) {a : Unit}
    (hclear : (clearUnlessBoth n).run s₂ = .ok (a, s')) :
    ∃ x, s'.slot? n j = some x ∧ (e.Kept x ↔ hih.Right drv wire n s d j nv u e) := by
  obtain ⟨temp, s₃, h₃, hrest⟩ := run_bind_ok.mp h
  obtain ⟨hend, hok, rfl⟩ := run_readTempChannel hs hj he h₃
  rw [getD_temp hu] at hrest
  have hstored := Exchange.kept_stored (fun _ => exchange_answer he) hreal hok
  have hmeasured : Holding d n j e.logtime (fun x => e.Kept x ↔
      (¬ (d.finds "Humidity" = some j ∧ nv + (if e.taken then 1 else 0) ≠ 0) → e.Stored) ∧
      (d.finds "Humidity" = some j ∧ nv + (if e.taken then 1 else 0) ≠ 0 →
        e.Overwritten e.after (hihHumidity { u with temp := e.temp }))) s₂ := by
    have hcount : (((if e.taken then 1 else 0 : ℕ) : ℕ) : Int) = if e.taken then 1 else 0 := by
      split <;> rfl
    simp only [hcount] at hrest
    by_cases hne : nv + (if e.taken then 1 else 0) ≠ 0
    · rw [if_pos hne] at hrest
      obtain ⟨_, s₄, h₄, hrest⟩ := run_bind_ok.mp hrest
      obtain ⟨-, rfl⟩ := run_pure_ok.mp hrest
      refine holding_offer "Humidity" _ ?_ ?_ _ _ _ hend h₄
      · rintro hother _ rfl
        rw [hstored]
        exact ⟨fun h => ⟨fun _ => h, fun hoff => absurd hoff.1 hother⟩, fun h => h.1 fun hoff => hother hoff.1⟩
      · rintro hsame _ rfl hok
        rw [Exchange.kept_judged hok]
        exact ⟨fun h => ⟨fun hoff => absurd ⟨hsame, hne⟩ hoff, fun _ => h⟩, fun h => h.2 ⟨hsame, hne⟩⟩
    · rw [if_neg hne] at hrest
      obtain ⟨-, rfl⟩ := run_pure_ok.mp hrest
      refine hend.mono ?_
      rintro _ rfl
      rw [hstored]
      exact ⟨fun h => ⟨fun _ => h, fun hoff => absurd hoff.2 hne⟩, fun h => h.1 fun hoff => hne hoff.2⟩
  obtain ⟨hkept, hcleared⟩ := run_clearUnlessBoth hmeasured hclear
  by_cases hboth : 2 ≤ j ∨ BothValid n s₂
  · obtain ⟨x, hx, hiff⟩ := (hkept hboth).sensor
    refine ⟨x, hx, hiff.trans ⟨fun hright r' s₂' hrun => ?_, fun hright => ?_⟩⟩
    · obtain ⟨-, rfl⟩ := Prod.mk.inj (Except.ok.inj (hreadings.symm.trans hrun))
      refine ⟨fun hj hnot => ?_, fun _ => hright⟩
      exact absurd hboth (by rintro (hj' | hboth); exacts [by omega, hnot hboth])
    · exact (hright _ _ hreadings).2 hboth
  · obtain ⟨hj2, hnot⟩ := not_or.mp hboth
    obtain ⟨x, hx, hinvalid⟩ := (hcleared (by omega) hnot).sensor
    refine ⟨x, hx, (Exchange.kept_of_invalid hinvalid).trans ⟨fun hright r' s₂' hrun => ?_, fun hright => ?_⟩⟩
    · obtain ⟨-, rfl⟩ := Prod.mk.inj (Except.ok.inj (hreadings.symm.trans hrun))
      exact ⟨fun _ _ => hright, fun hboth' => absurd hboth' hboth⟩
    · exact (hright _ _ hreadings).1 (by omega) hnot

/-- A search finds a sensor in use. -/
theorem finds_lt_ns {name : String} (h : d.finds name = some j) : j < d.ns := by
  have hmatch : w1MatchSensor d name.toList = .ok (some j) := by
    unfold Device.finds at h
    split at h
    · rename_i hr
      rw [hr, h]
    · exact nomatch h
  obtain ⟨-, hlt⟩ := matchFrom_lt hmatch
  rw [List.length_take] at hlt
  omega

/-- The sensor at the end of a call, by what there was when the temperature was asked for. -/
theorem run_kept (hd : s.w1.devs[n]? = some d) (hj : d.finds "temp" = some j)
    (h : reader.Returns drv wire n s s') :
    ∃ r s₁ e x, (reader.before drv wire n).run s = .ok (r, s₁) ∧ exchange wire n j s₁ = some e ∧
      s'.slot? n j = some x ∧ (r = none → x.valid = false) ∧
      ∀ nv v, r = some (nv, v) → (e.Kept x ↔ reader.Right drv wire n s d j nv (v.getD {}) e) := by
  have hns := finds_lt_ns hj
  have hstart : Holding d n j s.w1.logtime (fun _ => True) s := by
    have hlt : j < d.s.length := hns.trans_le d.ns_le
    refine ⟨⟨d, hd, rfl⟩, rfl, d.s[j], ?_, trivial⟩
    rw [Machine.slot?, hd, Option.bind_some, List.getElem?_eq_getElem hlt]
  cases reader with
  | voltages v =>
    obtain ⟨_, hrun⟩ := h
    rw [w1ReadVoltages_eq] at hrun
    obtain ⟨r, s₁, h₁, hrest⟩ := run_bind_ok.mp hrun
    have hbefore := holding_beforeTemp _ hns v _ _ _ hstart h₁
    obtain ⟨e, he, hreal, hnone⟩ := exchange_of_holding wire hbefore
    cases r with
    | none =>
      obtain ⟨-, rfl⟩ := run_pure_ok.mp hrest
      obtain ⟨x, hx, -, hinvalid⟩ := hbefore.sensor
      exact ⟨none, _, e, x, h₁, he, hx, hinvalid, fun _ _ hr => by cases hr⟩
    | some q =>
      obtain ⟨temp, s₂, htemp, hrest⟩ := run_bind_ok.mp hrest
      obtain ⟨-, rfl⟩ := run_pure_ok.mp hrest
      obtain ⟨x, hx, hiff⟩ := kept_voltages hbefore.setUp hj he hreal htemp
      exact ⟨_, s₁, e, x, h₁, he, hx, fun hr => (by cases hr), fun _ _ _ => hiff⟩
  | humidity =>
    obtain ⟨_, hrun⟩ := h
    rw [w1ReadHumidity_eq] at hrun
    obtain ⟨r, s₁, h₁, hrest⟩ := run_bind_ok.mp hrun
    have hbefore := holding_beforeHumidityTemp _ hns _ _ _ hstart h₁
    obtain ⟨e, he, hreal, hnone⟩ := exchange_of_holding wire hbefore
    cases r with
    | none =>
      obtain ⟨_, s₂, hreport, hrest⟩ := run_bind_ok.mp hrest
      obtain ⟨-, rfl⟩ := run_pure_ok.mp hrest
      obtain ⟨x, hx, -, hinvalid⟩ := (holding_reportHumidity _ _ _ hbefore hreport).sensor
      exact ⟨none, s₁, e, x, h₁, he, hx, hinvalid, fun _ _ hr => by cases hr⟩
    | some q =>
      obtain ⟨nv, v⟩ := q
      obtain ⟨-, u, rfl, hu⟩ := beforeHumidityTemp_temp _ _ _ _ trivial h₁ _ rfl
      obtain ⟨x, hx, hiff⟩ := kept_humidity (s := s) hbefore.setUp hj he hu hrest
      refine ⟨_, s₁, e, x, h₁, he, hx, fun hr => (by cases hr), fun nv' v' hr => ?_⟩
      obtain ⟨rfl, rfl⟩ := Prod.mk.inj (Option.some.inj hr)
      exact hiff
  | hih =>
    obtain ⟨_, hrun⟩ := h
    rw [w1ReadHih_eq] at hrun
    obtain ⟨readings, s₂, hreadings, hrest⟩ := run_bind_ok.mp hrun
    obtain ⟨r, s₁, h₁, htail⟩ := run_bind_ok.mp hreadings
    have hbefore := holding_beforeHumidityTemp _ hns _ _ _ hstart h₁
    obtain ⟨e, he, hreal, hnone⟩ := exchange_of_holding wire hbefore
    cases r with
    | none =>
      obtain ⟨rfl, rfl⟩ := run_pure_ok.mp htail
      obtain ⟨-, rfl⟩ := run_pure_ok.mp hrest
      obtain ⟨x, hx, -, hinvalid⟩ := hbefore.sensor
      exact ⟨none, _, e, x, h₁, he, hx, hinvalid, fun _ _ hr => by cases hr⟩
    | some q =>
      obtain ⟨nv, v⟩ := q
      obtain ⟨-, u, rfl, hu⟩ := beforeHumidityTemp_temp _ _ _ _ trivial h₁ _ rfl
      cases readings with
      | none =>
        obtain ⟨temp, s₃, -, htail⟩ := run_bind_ok.mp htail
        split at htail
        · obtain ⟨_, s₄, -, htail⟩ := run_bind_ok.mp htail
          cases (run_pure_ok.mp htail).1
        · cases (run_pure_ok.mp htail).1
      | some r =>
        obtain ⟨_, s₃, hclear, hrest⟩ := run_bind_ok.mp hrest
        obtain ⟨-, rfl⟩ := run_pure_ok.mp hrest
        obtain ⟨x, hx, hiff⟩ := kept_hih hbefore.setUp hj he hreal hu hreadings htail hclear
        refine ⟨_, s₁, e, x, h₁, he, hx, fun hr => (by cases hr), fun nv' v' hr => ?_⟩
        obtain ⟨rfl, rfl⟩ := Prod.mk.inj (Option.some.inj hr)
        exact hiff

end Reader

end

/-! ## One degree of frost -/

/-- A bus that answers every command, and every block with this one. -/
def answering (page : List UInt8) : Wire Unit where
  owSerialNum := fun _ => pure ()
  owAccess := pure true
  owWriteByte := fun _ => pure true
  msDelay := fun _ => pure ()
  owBlock := fun _ => pure (some (Vector.ofFn fun i => page.getD i 0))

/-- A page of a device at -1 degree, after the two bytes of the command. -/
def frost : List UInt8 := [0xBE, 0x00, 0x00, 0x00, 0xFF, 0x00, 0x00, 0x00, 0x00, 0x00, 86]

def outside : Sensor where
  abbrv := some "OTMP".toList
  name := some "Outside temperature".toList

def outsideDevice : Device where
  init := 1
  stype := .ds2438v
  s := [outside]
  ns := 1

def outsideMachine : Machine Unit where
  w1 := { devs := [outsideDevice] }
  bus := ()

def present : Driver Unit := { Driver.silent with owSearch := fun _ serno b => ([serno], b) }

example : decode (Vector.ofFn fun i => frost.getD i 0) = -1 := by decide +kernel

end W1Retap.Ds2438
