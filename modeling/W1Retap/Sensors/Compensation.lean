import W1Retap.Sensors.Integrity
import W1Retap.Sensors.Params
import W1Retap.Sensors.Twins

/-!
# Compensation for the temperature

Three readers correct what they have measured for the temperature of the device. They take
the temperature from `v.temp`, which is set only where the temperature sensor has accepted it:
whether the sensor is listed, and its limits and its history, decide between the measured
temperature and 0. The formulas are solved for when that makes no difference.
-/
namespace W1Retap.Ds2438

open Programs

inductive Compensator where
  | humidity
  | hih
  | bray

namespace Compensator

section
variable {σ : Type} (c : Compensator) (drv : Driver σ) (n : ℕ)

/-! ## What the readers compute -/

/-- The reader up to the temperature, if the device is there. -/
def before : M σ (Option (Int × Option Ds2438v)) :=
  match c with
  | humidity | hih => beforeHumidityTemp drv n
  | bray => do
    makeSerial n
    if ← w1SelectDevice drv n then
      beforeTemp drv n (some { req := ds2438Vad + ds2438Temp })
    else
      return none

/-- The voltages, and how many of their sensors have accepted them. -/
def readings : M σ (Option (Int × Ds2438v)) := do
  match ← c.before drv n with
  | some r =>
    let temp ← readTempChannel drv n r.2
    return some (r.1 + temp.1, temp.2.getD {})
  | none => return none

/-- The humidity, or the pressure. -/
def compute (r : Int × Ds2438v) : M σ (Option ℚ) :=
  match c with
  | humidity => return some (relativeHumidity r.2)
  | hih => return if r.1 ≠ 0 then some (hihHumidity r.2) else none
  | bray => do
    if 0 < r.2.vad then
      let d ← dev n
      let w1 ← getW1
      let p ← StateT.lift (brayParams (d.params.getD []) r.2.temp)
      return some (reducePressure drv w1 (p.1 * r.2.vad + p.2.1) p.2.2)
    else
      return none

def computed : M σ (Option ((Int × Ds2438v) × Option ℚ)) := do
  match ← c.readings drv n with
  | some r =>
    let x ← c.compute drv n r
    return some (r, x)
  | none => return none

/-- What the reader does with it. -/
def finish (r : Option ((Int × Ds2438v) × Option ℚ)) : M σ Int :=
  match c, r with
  | humidity, some (r, x) => do
    let nvTemp ← offer n "Temp" r.2.temp
    let nvHumid ← offer n "Humidity" (x.getD 0)
    reportHumidity n
    return r.1 + nvTemp + nvHumid
  | humidity, none => do
    reportHumidity n
    return 0
  | hih, some (_, some x) => do
    let nv ← offer n "Humidity" x
    clearUnlessBoth n
    return nv
  | hih, some (_, none) => do
    clearUnlessBoth n
    return 0
  | hih, none => return 0
  | bray, some (r, some x) => do
    let nv ← offer n "Pres" x
    return r.1 + nv
  | bray, some (r, none) => return r.1
  | bray, none => do
    w1SetInvalid n
    return 0

theorem w1ReadHumidity_computed : w1ReadHumidity drv n = (do
    let r ← humidity.computed drv n
    humidity.finish n r) := by
  rw [w1ReadHumidity_eq]
  simp only [computed, readings, before, bind_assoc]
  refine bind_congr fun r => ?_
  cases r with
  | none => simp [finish]
  | some r => simp [finish, compute]

theorem w1ReadHih_computed : w1ReadHih drv n = (do
    let r ← hih.computed drv n
    hih.finish n r) := by
  rw [w1ReadHih_eq]
  simp only [hihReadings, computed, readings, before, bind_assoc]
  refine bind_congr fun r => ?_
  cases r with
  | none => simp [finish]
  | some r =>
    simp only [bind_assoc, pure_bind]
    refine bind_congr fun temp => ?_
    by_cases hne : r.1 + temp.1 ≠ 0
    · simp [finish, compute, hne]
    · simp [finish, compute, hne]

theorem w1ReadBray_computed : w1ReadBray drv n = (do
    let r ← bray.computed drv n
    bray.finish n r) := by
  unfold w1ReadBray voltages
  rw [w1ReadVoltages_eq]
  simp only [computed, readings, before, bind_assoc]
  refine bind_congr fun _ => bind_congr fun found => ?_
  cases found with
  | false => simp [finish]
  | true =>
    simp only [if_true, beforeTemp, selectUnless, bind_assoc, pure_bind]
    refine bind_congr fun _ => bind_congr fun _ => bind_congr fun r => bind_congr fun temp => ?_
    by_cases hvad : 0 < (temp.2.getD {}).vad
    · simp [finish, compute, hvad]
    · simp [finish, compute, hvad]

end
end Compensator

/-! ## The formulas -/

theorem div_eq_div_left {a b c : ℚ} : a / b = a / c ↔ b = c ∨ a = 0 := by
  rw [div_eq_mul_inv, div_eq_mul_inv, mul_eq_mul_left_iff, inv_inj]

theorem relativeHumidity_eq_iff (v : Ds2438v) (t : ℚ) :
    relativeHumidity { v with temp := 0 } = relativeHumidity { v with temp := t } ↔
      t = 0 ∨ v.vad = 0.8 := by
  simp only [relativeHumidity]
  have hvdd : (if 5.8 < v.vdd then 5.8 else if v.vdd < 4.0 then 4.0 else v.vdd) ≠ 0 := by
    split
    · norm_num
    · split
      · norm_num
      · rename_i hlow
        have : (0 : ℚ) < v.vdd := by
          have := not_lt.mp hlow
          norm_num at this
          linarith
        exact this.ne'
  generalize (if 5.8 < v.vdd then 5.8 else if v.vdd < 4.0 then 4.0 else v.vdd) = w at hvdd
  rw [div_eq_div_left, ← sub_div, div_eq_zero_iff, div_eq_zero_iff, sub_eq_zero]
  constructor
  · rintro (h | (h | h) | h)
    · left
      linarith
    · exact Or.inr h
    · exact absurd h hvdd
    · norm_num at h
  · rintro (rfl | h)
    · exact Or.inl rfl
    · exact Or.inr (Or.inl (Or.inl h))

/-- The humidity of `w1_read_hih` before it is limited, with the temperatures of the linear
and the quadratic term. -/
def hihRaw (v : Ds2438v) (linear temp : ℚ) : ℚ :=
  (v.vad / v.vdd - 0.8 / v.vdd) / (0.0062 * (1.0305 + 0.000044 * linear + 0.0000011 * temp * temp))

def hihLimit (humid : ℚ) : ℚ := if 100 < humid then 99.9 else humid

/-- Limited, it is 99.9. -/
def AtLimit (humid : ℚ) : Prop := 100 < humid ∨ humid = 99.9

theorem hihLimit_eq_iff (a b : ℚ) : hihLimit a = hihLimit b ↔ a = b ∨ AtLimit a ∧ AtLimit b := by
  have hlimit : ∀ x, AtLimit x ↔ hihLimit x = 99.9 := by
    intro x
    rw [AtLimit, hihLimit]
    by_cases hx : 100 < x
    · simp [hx]
    · simp [hx]
  constructor
  · intro h
    by_cases ha : AtLimit a
    · exact Or.inr ⟨ha, (hlimit b).mpr (h ▸ (hlimit a).mp ha)⟩
    · have hb : ¬ AtLimit b := fun hb => ha ((hlimit a).mpr (h.trans ((hlimit b).mp hb)))
      left
      rwa [hihLimit, hihLimit, if_neg fun hlt => ha (Or.inl hlt), if_neg fun hlt => hb (Or.inl hlt)] at h
  · rintro (rfl | ⟨ha, hb⟩)
    · rfl
    · rw [(hlimit a).mp ha, (hlimit b).mp hb]

/-- The linear term is lost, so the temperature has to be 0 unless the quadratic term is lost
as well and cancels it. -/
theorem hihRaw_eq_iff (v : Ds2438v) (t : ℚ) (taken : Bool) :
    hihRaw v 0 (if taken then t else 0) = hihRaw v t t ↔
      t = 0 ∨ taken = false ∧ t = -40 ∨ v.vad = 0.8 ∨ v.vdd = 0 := by
  rw [hihRaw, hihRaw, div_eq_div_left, ← sub_div, div_eq_zero_iff, sub_eq_zero]
  have hterms : (0.0062 * (1.0305 + 0.000044 * 0 + 0.0000011 * (if taken then t else 0) *
      (if taken then t else 0)) : ℚ) = 0.0062 * (1.0305 + 0.000044 * t + 0.0000011 * t * t) ↔
        t = 0 ∨ taken = false ∧ t = -40 := by
    cases taken with
    | true =>
      simp only [if_true, Bool.true_eq_false, false_and, or_false]
      constructor
      · intro h
        linarith
      · rintro rfl
        norm_num
    | false =>
      simp only [Bool.false_eq_true, if_false, true_and]
      constructor
      · intro h
        have hprod : t * (t + 40) = 0 := by linarith
        rcases mul_eq_zero.mp hprod with h0 | h40
        · exact Or.inl h0
        · right
          linarith
      · rintro (rfl | rfl) <;> norm_num
  rw [hterms, or_assoc]

/-- Every list of parameters gives slope and offset; a third value replaces the temperature. -/
theorem brayRule_temp (params : Option (List ℚ)) (t : ℚ) : brayRule params t =
    ((brayRule params 0).1, (brayRule params 0).2.1,
      if 3 ≤ (params.getD []).length then (brayRule params 0).2.2 else t) := by
  match params with
  | none => rfl
  | some [] => rfl
  | some [_] => rfl
  | some [_, _] => rfl
  | some (_ :: _ :: _ :: l) =>
    rw [if_pos (by simp)]
    rfl

/-- What `w1_read_bray` works with. -/
theorem brayParams_ok {params : Option (List ℚ)} {t : ℚ} {p : ℚ × ℚ × ℚ}
    (h : brayParams (params.getD []) t = .ok p) : p = brayRule params t := by
  by_cases htwo : ∃ values, params = some values ∧ values.length = 2
  · obtain ⟨values, rfl, hlen⟩ := htwo
    rw [Option.getD_some, brayParams_two hlen] at h
    exact nomatch h
  · rw [brayParams_eq fun values hvalues hlen => htwo ⟨values, hvalues, hlen⟩] at h
    exact (Except.ok.inj h).symm

/-- The pressure at the station. -/
def brayPressure (params : Option (List ℚ)) (v : Ds2438v) : ℚ :=
  (brayRule params 0).1 * v.vad + (brayRule params 0).2.1

section
variable {σ : Type} (drv : Driver σ) (w1 : DevList)

/-- The pressure at sea level, for a pressure of 1 and the temperature `t`. -/
def seaLevel (t : ℚ) : ℚ := pressureAtMsl drv.exp 1 t w1.altitude

theorem reducePressure_eq_iff (pres u t : ℚ) :
    reducePressure drv w1 pres u = reducePressure drv w1 pres t ↔
      w1.altitude = 0 ∨ w1.presReductionTemp.isSome ∨ pres = 0 ∨ seaLevel drv w1 u = seaLevel drv w1 t := by
  unfold reducePressure
  by_cases halt : w1.altitude = 0
  · simp [halt]
  · rw [if_pos halt, if_pos halt]
    cases w1.presReductionTemp with
    | some temp => simp
    | none =>
      simp only [Option.getD_none, pressureAtMsl, seaLevel, mul_eq_mul_left_iff, one_mul, halt,
        Option.isSome_none, Bool.false_eq_true, false_or]
      exact or_comm

/-! ## When the measured temperature is used -/

namespace Compensator

variable (c : Compensator) (params : Option (List ℚ)) (v : Ds2438v) (t : ℚ) (taken : Bool)

/-- The compensation formula of the reader, at the temperature `t`. -/
def formula : ℚ :=
  match c with
  | humidity => relativeHumidity { v with temp := t }
  | hih => hihLimit (hihRaw v t t)
  | bray => reducePressure drv w1 (brayPressure params v) (brayRule params t).2.2

/-- There is a result: `w1_read_hih` wants an accepted voltage or temperature, and
`w1_read_bray` a voltage. -/
def Computes (nv : Int) : Prop :=
  match c with
  | humidity => True
  | hih => taken = true ∨ nv ≠ 0
  | bray => 0 < v.vad

/-- The temperature sensor has taken the temperature, or the formula does not need it. -/
def Exact : Prop :=
  match c with
  | humidity => taken = true ∨ t = 0 ∨ v.vad = 0.8
  | hih => t = 0 ∨ taken = false ∧ t = -40 ∨ v.vad = 0.8 ∨ v.vdd = 0 ∨
    AtLimit (hihRaw v 0 (if taken then t else 0)) ∧ AtLimit (hihRaw v t t)
  | bray => taken = true ∨ 3 ≤ (params.getD []).length ∨ w1.altitude = 0 ∨
    w1.presReductionTemp.isSome ∨ brayPressure params v = 0 ∨ seaLevel drv w1 0 = seaLevel drv w1 t

/-- What the reader computes from the temperature that it was given. -/
def result : ℚ :=
  match c with
  | humidity => relativeHumidity { v with temp := t }
  | hih => hihHumidity { v with temp := t }
  | bray => reducePressure drv w1 (brayPressure params v) (brayRule params t).2.2

theorem result_eq_iff : c.result drv w1 params v (if taken then t else 0) = c.formula drv w1 params v t ↔
    c.Exact drv w1 params v t taken := by
  cases c with
  | humidity =>
    cases taken with
    | true => simp [result, formula, Exact]
    | false =>
      simp only [result, formula, Exact, Bool.false_eq_true, if_false, false_or]
      exact relativeHumidity_eq_iff v t
  | hih =>
    have hresult : hih.result drv w1 params v (if taken then t else 0) =
        hihLimit (hihRaw v 0 (if taken then t else 0)) := rfl
    rw [hresult, formula, hihLimit_eq_iff, hihRaw_eq_iff, Exact]
    tauto
  | bray =>
    simp only [result, formula, Exact]
    rw [brayRule_temp params t, brayRule_temp params (if taken then t else 0)]
    by_cases hthree : 3 ≤ (params.getD []).length
    · simp [hthree]
    · simp only [hthree, if_false, false_or]
      cases taken with
      | true => simp
      | false =>
        simp only [Bool.false_eq_true, if_false, false_or]
        exact reducePressure_eq_iff drv w1 _ 0 t

end Compensator
end

/-! ## One call -/

section
variable {σ : Type} {drv : Driver σ} {wire : Wire σ} {n : ℕ} {d d' : Device} {s s' s₀ s₁ : Machine σ}
variable {t : ℚ} {c : Compensator}

/-- The temperature that is measured where the device is asked for it now. -/
def measured (wire : Wire σ) (n : ℕ) (s : Machine σ) : Option ℚ :=
  s.w1.devs[n]?.bind fun d => ((transaction wire d.serno).run s.bus).1

/-- There is a temperature sensor, and `w1_validate` accepts the temperature `t`. -/
def takes (d : Device) (n : ℕ) (s : Machine σ) (t : ℚ) : Bool :=
  match d.finds "temp" with
  | some j => t != -1 && (s.slot? n j).any fun x => (x.judged s.w1.logtime t).valid
  | none => false

/-- The temperature channel gives the caller what the sensor has taken. -/
theorem run_taken (hs : SetUp d n s) (ht : measured wire n s = some t) {u : Ds2438v}
    {r : ℕ × Option Ds2438v} (h : (readTempChannel (onWire drv wire) n (some u)).run s = .ok (r, s₁)) :
    r = (if takes d n s t then 1 else 0, some (if takes d n s t then { u with temp := t } else u)) := by
  cases hj : d.finds "temp" with
  | some j =>
    have hstart : Holding d n j s.w1.logtime (fun _ => True) s := by
      have hlt : j < d.s.length := (Reader.finds_lt_ns hj).trans_le d.ns_le
      have hlabel := hs.slot? j
      rw [List.getElem?_eq_getElem hlt, Option.map_some] at hlabel
      obtain ⟨x, hx, -⟩ := Option.map_eq_some_iff.mp hlabel
      exact ⟨hs, rfl, x, hx, trivial⟩
    obtain ⟨e, he, -⟩ := exchange_of_holding wire hstart
    obtain ⟨d₀, hd₀, hx, hlogtime, -, hmeasured⟩ := exchange_fields he
    have hanswer : e.answer = t := by
      refine exchange_answer he ?_
      rw [← hmeasured, ← ht, measured, hd₀, Option.bind_some]
    have htakes : takes d n s t = e.taken := by
      simp only [takes, hj, hx, Option.any_some, Exchange.taken, hanswer, hlogtime]
    obtain ⟨-, -, hr⟩ := run_readTempChannel hs hj he h
    rw [hr, htakes, hanswer]
    rfl
  | none =>
    have htakes : takes d n s t = false := by simp only [takes, hj]
    obtain ⟨k, s₂, hmatch, hrest⟩ := run_bind_ok.mp h
    obtain ⟨rfl, rfl⟩ := hs.matchSensor hmatch
    obtain ⟨d₀, s₃, hd₀, hrest⟩ := run_bind_ok.mp hrest
    rw [htakes]
    split at hrest
    · obtain ⟨val, s₄, -, hrest⟩ := run_bind_ok.mp hrest
      rw [hj] at hrest
      cases hval : val == -1 with
      | true =>
        rw [hval] at hrest
        exact (run_pure_ok.mp hrest).1
      | false =>
        rw [hval] at hrest
        exact (run_pure_ok.mp hrest).1
    · exact (run_pure_ok.mp hrest).1

/-- The settings that the pressure depends on. -/
def SameSettings (s t : Machine σ) : Prop :=
  t.w1.altitude = s.w1.altitude ∧ t.w1.presReductionTemp = s.w1.presReductionTemp

instance : AnyBus (SameSettings (σ := σ)) := ⟨fun _ _ => ⟨rfl, rfl⟩⟩

instance : BusSteps (SameSettings (σ := σ)) where
  wire _ _ _ := ⟨rfl, rfl⟩
  touch _ _ _ _ := ⟨rfl, rfl⟩
  replog := does_reports fun _ _ _ => ⟨rfl, rfl⟩

instance : ReaderSteps n (SameSettings (σ := σ)) where
  clear _ := ⟨rfl, rfl⟩
  assign _ _ _ _ := ⟨rfl, rfl⟩
  validate _ _ _ _ _ _ _ _ := ⟨rfl, rfl⟩

theorem settings_of_chain (h : Relation.ReflTransGen SameSettings s s') : SameSettings s s' := by
  induction h with
  | refl => exact ⟨rfl, rfl⟩
  | tail _ hstep ih => exact ⟨hstep.1.trans ih.1, hstep.2.trans ih.2⟩

namespace Compensator

theorem does_before : Does SameSettings (c.before drv n) := by
  cases c with
  | humidity => exact does_beforeHumidityTemp drv
  | hih => exact does_beforeHumidityTemp drv
  | bray =>
    refine .bind (does_makeSerial n) fun _ => .bind (does_w1SelectDevice drv n) fun found => ?_
    exact .ite (fun _ => does_beforeTemp drv _) fun _ => .pure _

theorem before_temp : Ends (fun _ => True) (c.before drv n) fun r _ =>
    ∀ q, r = some q → 0 ≤ q.1 ∧ ∃ v, q.2 = some v ∧ v.temp = 0 := by
  cases c with
  | humidity => exact beforeHumidityTemp_temp drv
  | hih => exact beforeHumidityTemp_temp drv
  | bray =>
    have hany : ∀ {α : Type} (m : M σ α), Ends (fun _ => True) m fun _ _ => True :=
      fun _ _ _ _ _ _ => trivial
    refine .bind (hany _) fun _ => .bind (hany _) fun found => ?_
    exact .ite (fun _ => beforeTemp_temp drv _) fun _ => .pure fun _ _ => nofun

theorem agree_before (hw : SameChannels d d') :
    Agree (Twins d d' n) (c.before drv n) (c.before drv n) fun r r' s s' =>
      Twins d d' n s s' ∧ r'.map Prod.snd = r.map Prod.snd := by
  have hhumidity : Agree (Twins d d' n) (beforeHumidityTemp drv n) (beforeHumidityTemp drv n)
      fun r r' s s' => Twins d d' n s s' ∧ r'.map Prod.snd = r.map Prod.snd := by
    refine .bind agree_makeSerial fun _ _ => ?_
    refine .bind (agree_aside aside_w1SetInvalid aside_w1SetInvalid) fun _ _ => ?_
    refine .bind (agree_w1SelectDevice drv n) fun found found' => .given ?_
    rintro rfl
    exact .ite Iff.rfl (fun _ _ => agree_beforeTemp drv hw _) fun _ _ => .pure fun _ _ h => ⟨h, rfl⟩
  cases c with
  | humidity => exact hhumidity
  | hih => exact hhumidity
  | bray =>
    refine .bind agree_makeSerial fun _ _ => .bind (agree_w1SelectDevice drv n) fun found found' => .given ?_
    rintro rfl
    exact .ite Iff.rfl (fun _ _ => agree_beforeTemp drv hw _) fun _ _ => .pure fun _ _ h => ⟨h, rfl⟩

theorem computes_iff {u : Ds2438v} {taken : Bool} {nv : Int} (hnv : 0 ≤ nv) :
    hih.Computes u taken nv ↔ nv + ((if taken then 1 else 0 : ℕ) : Int) ≠ 0 := by
  rw [Computes]
  cases taken with
  | true =>
    simp only [true_or, if_true, true_iff]
    push_cast
    omega
  | false => simp

/-- What a call computes, by what it reads and whether the sensor takes the temperature. -/
theorem run_computed (hs : SetUp d n s) {nv : Int} {u : Ds2438v}
    (hbefore : (c.before (onWire drv wire) n).run s = .ok (some (nv, some u), s₀))
    (ht : measured wire n s₀ = some t) {k : Int × Ds2438v} {x : Option ℚ}
    (h : (c.computed (onWire drv wire) n).run s = .ok (some (k, x), s₁)) :
    (c.Computes u (takes d n s₀ t) nv →
      x = some (c.result drv s.w1 d.params u (if takes d n s₀ t then t else 0))) ∧
    (¬ c.Computes u (takes d n s₀ t) nv → x = none) := by
  obtain ⟨hnv, _, hu, htemp⟩ := before_temp _ _ _ trivial hbefore _ rfl
  obtain rfl := Option.some.inj hu
  have hself : Twins d d n s s := ⟨rfl, rfl, rfl, hs, hs⟩
  obtain ⟨hself₀, -⟩ := agree_before (fun _ _ => rfl) _ _ _ _ _ _ hself hbefore hbefore
  have hsettings := settings_of_chain (does_before _ _ _ hbefore)
  obtain ⟨q, s₂, hreadings, hrest⟩ := run_bind_ok.mp h
  obtain ⟨q₀, s₃, hbefore', htail⟩ := run_bind_ok.mp hreadings
  obtain ⟨rfl, rfl⟩ := Prod.mk.inj (Except.ok.inj (hbefore.symm.trans hbefore'))
  obtain ⟨r, s₄, hchannel, htail⟩ := run_bind_ok.mp htail
  obtain ⟨rfl, rfl⟩ := run_pure_ok.mp htail
  have hself₂ := agree_readTempChannel _ _ _ _ _ _ _ _ hself₀ hchannel hchannel
  have hsettings' := settings_of_chain (does_readTempChannel (n := n) (onWire drv wire) _ _ _ _ hchannel)
  obtain ⟨d₂, hd₂, hsetup⟩ := hself₂.left
  have hparams : d₂.params = d.params := by
    simp only [Device.setup, Prod.mk.injEq] at hsetup
    exact hsetup.2.1
  obtain rfl := run_taken hself₀.left ht hchannel
  have hv : (some (if takes d n s₀ t then { u with temp := t } else u)).getD {} =
      { u with temp := if takes d n s₀ t then t else 0 } := by
    cases takes d n s₀ t <;> simp [← htemp]
  simp only [hv] at hrest
  generalize takes d n s₀ t = taken at hrest ⊢
  obtain ⟨x', s₅, hcompute, hrest⟩ := run_bind_ok.mp hrest
  obtain ⟨hx, rfl⟩ := run_pure_ok.mp hrest
  obtain rfl : x = x' := (Prod.mk.inj (Option.some.inj hx)).2
  cases c with
  | humidity =>
    obtain ⟨rfl, -⟩ := run_pure_ok.mp hcompute
    exact ⟨fun _ => rfl, fun hnot => absurd trivial hnot⟩
  | hih =>
    obtain ⟨rfl, -⟩ := run_pure_ok.mp hcompute
    rw [computes_iff hnv]
    exact ⟨fun hne => if_pos hne, fun hnot => if_neg hnot⟩
  | bray =>
    have hsettings₂ : SameSettings s s₂ :=
      ⟨hsettings'.1.trans hsettings.1, hsettings'.2.trans hsettings.2⟩
    have hreduce : ∀ pres temp, reducePressure (onWire drv wire) s₂.w1 pres temp =
        reducePressure drv s.w1 pres temp := by
      intro pres temp
      rw [reducePressure, reducePressure, hsettings₂.1, hsettings₂.2]
      rfl
    by_cases hvad : 0 < u.vad
    · rw [compute, if_pos hvad, run_dev_bind hd₂, run_getW1_bind, hparams] at hcompute
      obtain ⟨p, s₆, hlift, hcompute⟩ := run_bind_ok.mp hcompute
      obtain ⟨hp, rfl⟩ := run_lift_ok.mp hlift
      obtain ⟨rfl, -⟩ := run_pure_ok.mp hcompute
      obtain rfl := brayParams_ok hp
      refine ⟨fun _ => ?_, fun hnot => absurd hvad hnot⟩
      rw [hreduce, result, brayPressure, brayRule_temp]
    · rw [compute, if_neg hvad] at hcompute
      obtain ⟨rfl, -⟩ := run_pure_ok.mp hcompute
      exact ⟨fun hpos => absurd hpos hvad, fun _ => rfl⟩

/-! ## Two configurations -/

/-- A call that comes to ask for the temperature, and goes on to what it computes. -/
structure Call (c : Compensator) (drv : Driver σ) (wire : Wire σ) (n : ℕ) (s : Machine σ) where
  nv : Int
  volts : Ds2438v
  asked : Machine σ
  counted : Int × Ds2438v
  result : Option ℚ
  done : Machine σ
  before : (c.before (onWire drv wire) n).run s = .ok (some (nv, some volts), asked)
  computed : (c.computed (onWire drv wire) n).run s = .ok (some (counted, result), done)

/-- The two configurations read the same voltages and the same temperature. -/
theorem Call.same (a : Call c drv wire n s) (b : Call c drv wire n s') (h : Twins d d' n s s')
    (hw : SameChannels d d') :
    b.volts = a.volts ∧ measured wire n b.asked = measured wire n a.asked ∧
      Twins d d' n a.asked b.asked := by
  obtain ⟨htwins, hvolts⟩ := agree_before hw _ _ _ _ _ _ h a.before b.before
  refine ⟨?_, ?_, htwins⟩
  · simpa using hvolts
  · obtain ⟨e, he, -⟩ := htwins.left
    obtain ⟨e', he', -⟩ := htwins.right
    have hframes := congrArg (·[n]?) htwins.frames
    simp only [List.getElem?_map, he, he', Option.map_some] at hframes
    rw [measured, measured, he, he', Option.bind_some, Option.bind_some, htwins.bus,
      frame_serno (Option.some.inj hframes)]

/-- The result is the same, and is that of the formula at the temperature `t`. -/
def Compensated (a : Call c drv wire n s) (b : Call c drv wire n s') (d : Device) (t : ℚ) : Prop :=
  b.result = a.result ∧ ∀ x, a.result = some x → x = c.formula drv s.w1 d.params a.volts t

end Compensator
end

/-! ## A humidity sensor without a temperature sensor beside it -/

/-- A page of a device at 20 degrees. -/
def mild : List UInt8 := [0xBE, 0x00, 0x00, 0x00, 0x14, 0x00, 0x00, 0x00, 0x00, 0x00, 135]

def relative : Sensor where
  abbrv := some "RH".toList
  name := some "Relative humidity".toList

def hygrometer : Device where
  init := 1
  stype := .humid
  s := [outside, relative]
  ns := 2

def hygrometerAlone : Device := { hygrometer with s := [relative], ns := 1, ns_le := by decide }

def hygrometerMachine : Machine Unit where
  w1 := { devs := [hygrometer] }
  bus := ()

/-- Five volts of supply, and two from the sensor. -/
def powered : Driver Unit := { present with readAtoD := fun vdd _ b => (if vdd then 5 else 2, b) }

theorem hygrometer_differ : DifferInTemp hygrometer hygrometerAlone where
  frame := rfl
  others := by decide +kernel
  alone := by
    intro x hx htemp
    have hmem : x = outside ∨ x = relative := by
      simpa [hygrometer, hygrometerAlone, or_assoc] using hx
    rcases hmem with rfl | rfl
    · decide +kernel
    · exact absurd htemp (by decide +kernel)

/-- A call whose steps can be computed. -/
theorem exists_call {c : Compensator} {s : Machine Unit} {t x : ℚ}
    (hbefore : (((c.before (onWire powered (answering mild)) 0).run s).toOption.any fun r =>
      (r.1.bind (·.2)).isSome = true ∧ measured (answering mild) 0 r.2 = some t) = true)
    (hcomputed : (((c.computed (onWire powered (answering mild)) 0).run s).toOption.any fun r =>
      r.1.bind (·.2) = some x) = true) :
    ∃ a : Compensator.Call c powered (answering mild) 0 s,
      measured (answering mild) 0 a.asked = some t ∧ a.result = some x := by
  obtain ⟨r, s₀, hbefore, hvolts, ht⟩ := exists_result_ok
    (m := c.before (onWire powered (answering mild)) 0)
    (p := fun r => (r.1.bind (·.2)).isSome = true ∧ measured (answering mild) 0 r.2 = some t) hbefore
  obtain ⟨k, s₁, hcomputed, hx⟩ := exists_result_ok
    (m := c.computed (onWire powered (answering mild)) 0)
    (p := fun r => r.1.bind (·.2) = some x) hcomputed
  match r, k, hvolts, hx with
  | some (nv, some volts), some (counted, _), _, hx =>
    exact ⟨⟨nv, volts, s₀, counted, _, s₁, hbefore, hcomputed⟩, ht, hx⟩

theorem hygrometer_reads : ∃ a : Compensator.Call .humidity powered (answering mild) 0 hygrometerMachine,
    measured (answering mild) 0 a.asked = some 20 ∧
      a.result = some (relativeHumidity { vdd := 5, vad := 2, temp := 20 }) :=
  exists_call (by decide +kernel) (by decide +kernel)

theorem hygrometerAlone_reads : ∃ b : Compensator.Call .humidity powered (answering mild) 0
    (hygrometerMachine.modifyDev 0 fun _ => hygrometerAlone),
    measured (answering mild) 0 b.asked = some 20 ∧
      b.result = some (relativeHumidity { vdd := 5, vad := 2, temp := 0 }) :=
  exists_call (by decide +kernel) (by decide +kernel)

end W1Retap.Ds2438
