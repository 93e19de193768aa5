import W1Retap.Sensors.ReadAll
import W1Retap.Sensors.Tallies

/-!
# What each reader counts

Every reader but `w1_read_hih` returns the number of good marks that it leaves, and it marks
the sensors it finds by name in the order of its text.
-/
namespace W1Retap

open Programs Tally

section
variable {σ : Type} {V : Judge} {w : Device} {n : ℕ} {ms : List SensorMark} (drv : Driver σ)

/-- Started without marks, `m` marks some of `js` in order and returns the good marks. -/
def Reports (V : Judge) (w : Device) (n : ℕ) (m : M σ Int) (js : List ℕ) : Prop :=
  Tracks (Tallied V w n) [] m fun r ms => ∃ k : ℕ, r = k ∧ Touches [] js k ms

/-- The sensors that the names find. -/
def Device.found (w : Device) (names : List String) : List ℕ :=
  names.flatMap fun name => (w.finds name).toList

theorem touches_offer (name : String) (v : ℚ) :
    Tracks (Tallied V w n) ms (offer (σ := σ) n name v) (Touches ms (w.finds name).toList) := by
  refine (tracks_offer name v).conseq fun r ms' h => ?_
  have hkeys : (w.target name (some v)).map Prod.fst = (w.finds name).toList := by
    simp [Device.target, Function.comp_def]
  exact hkeys ▸ h.touches

/-! ## Temperature, counters and wind -/

theorem reports_w1ReadTemp : Reports V w n (w1ReadTemp drv n) [0] := by
  have hend : ∀ ms', (∃ k, Touches ([] : List SensorMark) [0] k ms') →
      Tracks (Tallied V w n) ms' (do return if (← slot (σ := σ) n 0).valid then (1 : Int) else 0)
        fun r ms => ∃ k : ℕ, r = k ∧ Touches [] [0] k ms := by
    rintro ms' ⟨k, new, hnew, hsub, rfl⟩
    rw [List.nil_append] at hnew
    subst hnew
    refine .bind_keep (tracks_slot 0) fun x hx => .pure ⟨_, ?_, ms', rfl, hsub, rfl⟩
    rcases List.sublist_singleton.mp hsub with hkeys | hkeys
    · rw [List.map_eq_nil_iff] at hkeys
      subst hkeys
      simp [show x.valid = false by simpa using hx]
    · obtain ⟨m, rfl, hkey⟩ := List.map_eq_singleton_iff.mp hkeys
      have hshow : shows 0 [m] = m.ok := by
        rw [← List.nil_append [m], shows_snoc, if_pos hkey]
      rw [hshow] at hx
      by_cases hok : m.ok = true
      · simp [hx.mpr hok, hok]
      · simp [hx, hok]
  refine .bind_keep tracks_makeSerial fun _ _ => .bind_keep (tracks_w1SelectDevice drv) fun found _ => ?_
  refine .ite (fun _ => ?_) fun _ => ?_
  · refine .bind_keep tracks_dev fun d _ => .bind_keep tracks_getW1 fun w1 _ => ?_
    refine .bind_keep (tracks_call _) fun temp _ => ?_
    cases temp with
    | none => exact hend [] ⟨0, .none⟩
    | some temp =>
      refine .bind (tracks_store 0 temp fun _ => ⟨rfl, rfl, rfl⟩) fun k ms' h => hend ms' ⟨k, ?_⟩
      exact h.touches
  · refine .bind_keep (tracks_clearValid_of_not 0 rfl) fun _ _ => hend [] ⟨0, .none⟩

theorem touches_readCounterPage (page j : ℕ) (offset : Option ℚ) :
    Tracks (Tallied V w n) ms (readCounterPage drv n page j offset) (Touches ms [j]) := by
  refine .bind_keep (tracks_slot j) fun x _ => .ite (fun _ => ?_) fun _ => .pure .none
  refine .bind_keep tracks_dev fun d _ => .bind_keep (tracks_call _) fun cnt _ => ?_
  cases cnt with
  | none =>
    refine .bind (tracks_clearValid j) fun _ ms' h => .pure ?_
    exact ⟨_, h, List.Sublist.refl _, rfl⟩
  | some cnt =>
    have hstore : ∀ off : Int, Tracks (Tallied V w n) ms (store (σ := σ) n j fun x =>
        { x with valid := true, value := ((cnt + UInt32.ofInt off).toNat : ℚ) }) (Touches ms [j]) := by
      intro off
      exact Tracks.conseq (tracks_store j _ fun _ => ⟨rfl, rfl, rfl⟩) fun _ _ h => h.touches
    cases offset with
    | none => exact hstore 0
    | some x => exact .bind_keep .lift fun off _ => hstore off

theorem reports_w1ReadCounter : Reports V w n (w1ReadCounter drv n) [0, 1] := by
  refine .bind_keep tracks_makeSerial fun _ _ => .bind_keep tracks_w1SetInvalid fun _ _ => ?_
  refine .bind_keep (tracks_w1SelectDevice drv) fun found _ => ?_
  refine .ite (fun _ => ?_) fun _ => .pure ⟨0, rfl, .none⟩
  refine .bind_keep tracks_dev fun d _ => .bind (touches_readCounterPage drv _ _ _) fun i ms' h => ?_
  refine .bind (touches_readCounterPage drv _ _ _) fun j ms'' h' => .pure ?_
  exact ⟨i + j, by simp, h.trans h'⟩

theorem tracks_makeVane :
    Tracks (Tallied V w n) ms (makeVane (σ := σ) n) fun _ ms' => ms' = ms ∧ True := by
  refine .bind_keep tracks_dev fun d _ => .bind_keep tracks_makeSerial fun _ _ => ?_
  exact .ite (fun _ => tracks_modifyDev fun _ => ⟨rfl, rfl⟩) fun _ => .pure ⟨rfl, trivial⟩

theorem tracks_setupVane :
    Tracks (Tallied V w n) ms (setupVane drv n) fun _ ms' => ms' = ms ∧ True := by
  refine .bind_keep tracks_dev fun d _ => .ite (fun _ => ?_) fun _ => .pure ⟨rfl, trivial⟩
  refine .bind_keep (tracks_call _) fun setup _ => ?_
  refine .bind_keep (tracks_modifyDev fun _ => ⟨rfl, rfl⟩) fun _ _ => ?_
  refine .ite (fun _ => .bind_keep (tracks_call _) fun ok _ => ?_) fun _ => .pure ⟨rfl, trivial⟩
  exact .ite (fun _ => tracks_modifyDev fun _ => ⟨rfl, rfl⟩) fun _ => .pure ⟨rfl, trivial⟩

theorem touches_storeDirection (analogue : Vector ℚ 4) :
    Tracks (Tallied V w n) ms (storeDirection (σ := σ) n analogue) (Touches ms [0]) := by
  refine .bind_keep tracks_getW1 fun w1 _ => ?_
  refine .bind_keep (tracks_modifySlot 0 fun _ => ⟨rfl, rfl, rfl⟩) fun _ _ => ?_
  split
  · exact Tracks.conseq (tracks_store 0 _ fun _ => ⟨rfl, rfl, rfl⟩) fun _ _ h => h.touches
  · exact .pure .none

theorem reports_w1ReadWindvane : Reports V w n (w1ReadWindvane drv n) [0] := by
  have hnone : ∃ k : ℕ, (0 : Int) = k ∧ Touches ([] : List SensorMark) [0] k [] := ⟨0, rfl, .none⟩
  refine .bind_keep tracks_makeVane fun _ _ => ?_
  refine .bind_keep (tracks_clearValid_of_not 1 rfl) fun _ _ => ?_
  refine .bind_keep (tracks_clearValid_of_not 0 rfl) fun _ _ => ?_
  refine .bind_keep (tracks_w1SelectDevice drv) fun found _ => .ite (fun _ => ?_) fun _ => .pure hnone
  refine .bind_keep tracks_dev fun d _ => .ite (fun _ => ?_) fun _ => .pure hnone
  refine .bind_keep (tracks_setupVane drv) fun _ _ => .bind_keep tracks_dev fun d _ => ?_
  refine .ite (fun _ => ?_) fun _ => .pure hnone
  refine .bind_keep (tracks_call _) fun ok _ => .ite (fun _ => ?_) fun _ => .pure hnone
  refine .bind_keep (tracks_call _) fun analogue _ => ?_
  cases analogue with
  | none => exact .pure hnone
  | some analogue => exact .bind (touches_storeDirection analogue) fun k ms' h => .pure ⟨k, rfl, h⟩

/-! ## Ready-made readings -/

theorem Device.found_cons (name : String) (names : List String) :
    w.found (name :: names) = (w.finds name).toList ++ w.found names := rfl

/-- Two offers one after the other. -/
theorem touches_two (names names' : List String) {m m' : M σ ℕ}
    (h : ∀ ms, Tracks (Tallied V w n) ms m (Touches ms (w.found names)))
    (h' : ∀ ms, Tracks (Tallied V w n) ms m' (Touches ms (w.found names'))) :
    Tracks (Tallied V w n) ms (do return (← m) + (← m')) (Touches ms (w.found (names ++ names'))) := by
  refine .bind (h ms) fun i ms' hi => .bind (h' ms') fun j ms'' hj => .pure ?_
  rw [Device.found, List.flatMap_append]
  exact hi.trans hj

theorem touches_one (name : String) (v : ℚ) :
    Tracks (Tallied V w n) ms (offer (σ := σ) n name v) (Touches ms (w.found [name])) := by
  rw [Device.found, List.flatMap_singleton]
  exact touches_offer name v

theorem reports_readAndOffer {α : Type} {read : Device → σ → Option α × σ} {offers : α → M σ ℕ}
    {js : List ℕ} (h : ∀ v, Tracks (Tallied V w n) [] (offers v) (Touches [] js)) :
    Reports V w n (readAndOffer drv n read offers) js := by
  refine .bind_keep tracks_makeSerial fun _ _ => .bind_keep tracks_w1SetInvalid fun _ _ => ?_
  refine .bind_keep (tracks_w1SelectDevice drv) fun found _ => ?_
  refine .ite (fun _ => ?_) fun _ => .pure ⟨0, rfl, .none⟩
  refine .bind_keep tracks_dev fun d _ => .bind_keep (tracks_call _) fun v _ => ?_
  cases v with
  | none => exact .pure ⟨0, rfl, .none⟩
  | some v => exact .bind (h v) fun k ms' hk => .pure ⟨k, rfl, hk⟩

theorem reports_w1ReadSht11 : Reports V w n (w1ReadSht11 drv n) (w.found ["Temp", "Humidity"]) :=
  reports_readAndOffer drv fun v =>
    touches_two ["Temp"] ["Humidity"] (fun _ => touches_one "Temp" v.1)
      fun _ => touches_one "Humidity" v.2

theorem reports_w1ReadDs1923 : Reports V w n (w1ReadDs1923 drv n) (w.found ["Temp", "Humidity"]) :=
  reports_readAndOffer drv fun v =>
    touches_two ["Temp"] ["Humidity"] (fun _ => touches_one "Temp" v.temp)
      fun _ => touches_one "Humidity" v.rh

theorem reports_w1ReadHbht : Reports V w n (w1ReadHbht drv n) (w.found ["Temp", "Humidity"]) :=
  reports_readAndOffer drv fun hb =>
    touches_two ["Temp"] ["Humidity"] (fun _ => touches_one "Temp" hb.temp)
      fun _ => touches_one "Humidity" hb.humid

theorem reports_w1ReadDs1921 : Reports V w n (w1ReadDs1921 drv n) (w.found ["Temp"]) :=
  reports_readAndOffer drv fun temp => touches_one "Temp" temp

/-- Four offers one after the other. -/
theorem touches_four (a b c d : String) (v : Fin 4 → ℚ) :
    Tracks (Tallied V w n) ms (do
      return (← offer (σ := σ) n a (v 0)) + (← offer n b (v 1)) + (← offer n c (v 2)) +
        (← offer n d (v 3))) (Touches ms (w.found [a, b, c, d])) := by
  refine .bind (touches_one a _) fun i₀ ms₁ h₀ => .bind (touches_one b _) fun i₁ ms₂ h₁ => ?_
  refine .bind (touches_one c _) fun i₂ ms₃ h₂ => .bind (touches_one d _) fun i₃ ms₄ h₃ => .pure ?_
  have hall := ((h₀.trans h₁).trans h₂).trans h₃
  simpa [Device.found] using hall

theorem reports_w1ReadDs2760 :
    Reports V w n (w1ReadDs2760 drv n) (w.found ["Temp", "Current", "Volt", "Accumulator"]) :=
  reports_readAndOffer drv fun v => touches_four _ _ _ _ ![v.temp, v.curr, v.volts, v.accum]

theorem reports_w1ReadDs2450 :
    Reports V w n (w1ReadDs2450 drv n) (w.found ["ADA", "ADB", "ADC", "ADD"]) := by
  refine .bind_keep tracks_makeSerial fun _ _ => .bind_keep tracks_w1SetInvalid fun _ _ => ?_
  refine .bind_keep (tracks_w1SelectDevice drv) fun found _ => ?_
  refine .ite (fun _ => ?_) fun _ => .pure ⟨0, rfl, .none⟩
  refine .bind_keep tracks_dev fun d _ => .bind_keep (tracks_call _) fun setup _ => ?_
  refine .bind_keep (tracks_call _) fun _ _ => .bind_keep (tracks_call _) fun advolts _ => ?_
  cases advolts with
  | none => exact .pure ⟨0, rfl, .none⟩
  | some v =>
    refine .bind (touches_one "ADA" _) fun a ms₁ ha => .bind (touches_one "ADB" _) fun b ms₂ hb => ?_
    refine .bind (touches_one "ADC" _) fun c ms₃ hc => .bind (touches_one "ADD" _) fun d ms₄ hd => ?_
    have hall := ((ha.trans hb).trans hc).trans hd
    exact .pure ⟨a + b + c + d, by simp, by simpa [Device.found] using hall⟩

/-- The sensor that `w1_read_hbuv` finds for the ultraviolet reading. -/
def Device.findsUv (w : Device) : Option ℕ :=
  (w.finds "uv").or ((w.finds "ultra").or (w.finds "violet"))

theorem tracks_matchUv :
    Tracks (Tallied V w n) ms (matchUv (σ := σ) n) fun r ms' => ms' = ms ∧ r = w.findsUv := by
  refine .bind_keep (tracks_matchSensor "uv") fun r hr => ?_
  rw [Device.findsUv, ← hr]
  cases r with
  | some j => exact .pure ⟨rfl, rfl⟩
  | none =>
    refine .bind_keep (tracks_matchSensor "ultra") fun r hr => ?_
    rw [← hr]
    cases r with
    | some j => exact .pure ⟨rfl, rfl⟩
    | none => exact tracks_matchSensor "violet"

theorem reports_w1ReadHbuv :
    Reports V w n (w1ReadHbuv drv n) ((w.finds "Temp").toList ++ w.findsUv.toList) := by
  refine reports_readAndOffer drv fun hb => .bind (touches_offer "Temp" _) fun i ms' hi => ?_
  refine .bind_keep tracks_matchUv fun uv huv => ?_
  rw [← huv]
  cases uv with
  | none => exact .pure (by simpa using hi)
  | some j =>
    refine .bind (tracks_store j (hb.rawUvi * 0.1) fun _ => ⟨rfl, rfl, rfl⟩) fun k ms'' hk => .pure ?_
    exact hi.trans hk.touches

theorem tracks_calibrate :
    Tracks (Tallied V w n) ms (calibrate drv n) fun _ ms' => ms' = ms ∧ True := by
  refine .bind_keep tracks_dev fun d _ => .ite (fun _ => ?_) fun _ => .pure ⟨rfl, trivial⟩
  refine .bind_keep (tracks_call _) fun ok _ => ?_
  exact .ite (fun _ => tracks_modifyDev fun _ => ⟨rfl, rfl⟩) fun _ => .pure ⟨rfl, trivial⟩

theorem reports_w1ReadPressure : Reports V w n (w1ReadPressure drv n) (w.found ["Temp", "Pres"]) := by
  have hnone : ∃ k : ℕ, (0 : Int) = k ∧ Touches ([] : List SensorMark) (w.found ["Temp", "Pres"]) k [] :=
    ⟨0, rfl, .none⟩
  refine .bind_keep tracks_makeSerial fun _ _ => .bind_keep (tracks_w1SelectDevice drv) fun found _ => ?_
  refine .ite (fun _ => ?_) fun _ =>
    .bind_keep (tracks_modifyDev fun _ => ⟨rfl, rfl⟩) fun _ _ => .pure hnone
  refine .bind_keep (tracks_calibrate drv) fun _ _ => .bind_keep tracks_dev fun d _ => ?_
  refine .ite (fun _ => .bind_keep (tracks_call _) fun v _ => ?_) fun _ => .pure hnone
  cases v with
  | none => exact .bind_keep (tracks_modifyDev fun _ => ⟨rfl, rfl⟩) fun _ _ => .pure hnone
  | some v =>
    refine .bind_keep tracks_getW1 fun w1 _ => .bind (touches_one "Temp" _) fun i ms₁ hi => ?_
    refine .bind (touches_one "Pres" _) fun j ms₂ hj => .pure ⟨i + j, by simp, ?_⟩
    simpa [Device.found] using hi.trans hj

/-! ## Voltages -/

/-- A channel marks the sensor of its name, unless it has none. -/
theorem touches_readChannel (name : String) (wanted : Bool) (read : σ → ℚ × σ) :
    Tracks (Tallied V w n) ms (readChannel n name wanted read) fun r ms' =>
      Touches ms (w.finds name).toList r.1 ms' := by
  refine .bind_keep (tracks_matchSensor name) fun s hs => .ite (fun _ => ?_) fun _ => .pure .none
  rw [← hs]
  refine .bind_keep (tracks_call _) fun val _ => ?_
  cases s with
  | none => exact .pure .none
  | some j =>
    refine .ite (fun _ => ?_) fun _ => .bind (tracks_clearValid j) fun _ ms' h => .pure ?_
    · refine .bind (tracks_store j val fun _ => ⟨rfl, rfl, rfl⟩) fun k ms' h => .pure ?_
      exact h.touches
    · exact ⟨_, h, List.Sublist.refl _, rfl⟩

theorem tracks_reportSolar (vdd : Option ℚ) :
    Tracks (Tallied V w n) ms (reportSolar drv n vdd) fun _ ms' => ms' = ms ∧ True := by
  refine .ite (fun _ => ?_) fun _ => .pure ⟨rfl, trivial⟩
  refine .bind_keep (tracks_matchSensor "Solar") fun s _ => .ite (fun _ => ?_) fun _ => .pure ⟨rfl, trivial⟩
  refine .bind_keep tracks_dev fun d _ => .bind_keep (tracks_call _) fun _ _ => ?_
  exact tracks_w1Replog

/-- What the temperature channel adds: no mark, or one; the caller's temperature is set by
a good one only. -/
def TempRead (w : Device) (v : Option Ds2438v) (r : ℕ × Option Ds2438v)
    (new : List SensorMark) : Prop :=
  new = [] ∧ r = (0, v) ∨ ∃ j val ok, w.finds "temp" = some j ∧ new = [⟨j, some val, ok⟩] ∧
    r = (if ok then 1 else 0, v.map fun v => if ok then { v with temp := val } else v)

theorem tracks_readTempChannel (v : Option Ds2438v) :
    Tracks (Tallied V w n) ms (readTempChannel drv n v) fun r ms' =>
      ∃ new, ms' = ms ++ new ∧ TempRead w v r new := by
  have hnone : ∃ new, ms = ms ++ new ∧ TempRead w v (0, v) new :=
    ⟨[], (List.append_nil ms).symm, Or.inl ⟨rfl, rfl⟩⟩
  refine .bind_keep (tracks_matchSensor "temp") fun s hs => .bind_keep tracks_dev fun d _ => ?_
  refine .ite (fun _ => .bind_keep (tracks_call _) fun val _ => ?_) fun _ => .pure hnone
  split
  · rename_i j _ _
    refine .bind (tracks_store j val fun _ => ⟨rfl, rfl, rfl⟩) fun k ms' h => .pure ?_
    obtain ⟨new, hms, hnew, rfl⟩ := h
    obtain ⟨m, rfl, hm⟩ := List.map_eq_singleton_iff.mp hnew
    obtain ⟨hkey, hvalue⟩ := Prod.mk.inj hm
    refine ⟨[m], hms, Or.inr ⟨j, val, m.ok, hs.symm, by rw [← hkey, ← hvalue], ?_⟩⟩
    by_cases hok : m.ok = true
    · simp [hok]
    · simp [hok]
  · exact .pure hnone

def voltageNames : List String := ["vdd", "vad", "vsens"]

/-- The channels of `w1_read_voltages`; the last one is the temperature. -/
theorem tracks_w1ReadVoltages (v : Option Ds2438v) :
    Tracks (Tallied V w n) [] (w1ReadVoltages drv n v) fun r ms =>
      ∃ pre new v' k, ms = pre ++ new ∧ r.1 = count ms ∧
        (pre.map Mark.key).Sublist (w.found voltageNames) ∧ TempRead w v' (k, r.2) new ∧
        v'.map (·.temp) = v.map (·.temp) := by
  have hsel : Tracks (Tallied V w n) [] (selectUnless drv n v) fun _ ms' => ms' = [] ∧ True := by
    cases v with
    | none => exact tracks_w1SelectDevice drv
    | some v => exact .pure ⟨rfl, trivial⟩
  refine .bind_keep tracks_makeSerial fun _ _ => .bind_keep hsel fun sel _ => ?_
  refine .bind_keep tracks_w1SetInvalid fun _ _ => .ite (fun _ => ?_) fun _ => .pure ?_
  · refine .bind_keep tracks_dev fun d _ => .bind (touches_readChannel _ _ _) fun vdd ms₁ h₁ => ?_
    refine .bind_keep (tracks_reportSolar drv _) fun _ _ => ?_
    refine .bind (touches_readChannel _ _ _) fun vad ms₂ h₂ => ?_
    refine .bind (touches_readChannel _ _ _) fun vsens ms₃ h₃ => ?_
    refine .bind (tracks_readTempChannel drv _) fun temp ms₄ h₄ => .pure ?_
    obtain ⟨pre, hpre, hkeys, hcount⟩ := (h₁.trans h₂).trans h₃
    obtain ⟨new, rfl, htemp⟩ := h₄
    rw [List.nil_append] at hpre
    have htempCount : temp.1 = count new := by
      rcases htemp with ⟨rfl, rfl⟩ | ⟨j, val, ok, -, rfl, rfl⟩
      · rfl
      · simp
    refine ⟨pre, new, _, temp.1, by rw [hpre], ?_, ?_, htemp, ?_⟩
    · rw [count_append, hpre, ← hcount, htempCount]
      push_cast
      ring
    · simpa [Device.found, voltageNames] using hkeys
    · cases v <;> rfl
  · exact ⟨[], [], v, 0, rfl, rfl, List.nil_sublist _, Or.inl ⟨rfl, rfl⟩, rfl⟩

/-- With a record of its own the caller knows what the temperature channel has done. -/
theorem tracks_voltages (req : ℕ) :
    Tracks (Tallied V w n) [] (voltages drv n req) fun r ms =>
      ∃ pre new, ms = pre ++ new ∧ r.1 = count ms ∧
        (pre.map Mark.key).Sublist (w.found voltageNames) ∧
        (new = [] ∧ r.2.temp = 0 ∨ ∃ j val ok, w.finds "temp" = some j ∧
          new = [⟨j, some val, ok⟩] ∧ r.2.temp = if ok then val else 0) := by
  refine .bind (tracks_w1ReadVoltages drv _) fun r ms' h => .pure ?_
  obtain ⟨pre, new, v', k, hms, hcount, hkeys, htemp, hv'⟩ := h
  obtain ⟨u, rfl, hu⟩ : ∃ u, v' = some u ∧ u.temp = 0 := by
    cases v' with
    | none => exact nomatch hv'
    | some u => exact ⟨u, rfl, Option.some.inj hv'⟩
  refine ⟨pre, new, hms, hcount, hkeys, ?_⟩
  rcases htemp with ⟨rfl, hr⟩ | ⟨j, val, ok, hj, rfl, hr⟩
  · refine Or.inl ⟨rfl, ?_⟩
    rw [(Prod.mk.inj hr).2]
    exact hu
  · refine Or.inr ⟨j, val, ok, hj, rfl, ?_⟩
    rw [(Prod.mk.inj hr).2]
    cases ok with
    | true => rfl
    | false => exact hu

def ds2438Names : List String := ["vdd", "vad", "vsens", "temp"]

theorem keys_temp {pre new : List SensorMark}
    (hpre : (pre.map Mark.key).Sublist (w.found voltageNames))
    (hnew : (new.map Mark.key).Sublist (w.finds "temp").toList) :
    ((pre ++ new).map Mark.key).Sublist (w.found ds2438Names) := by
  have happ : w.found ds2438Names = w.found voltageNames ++ (w.finds "temp").toList := by
    simp [Device.found, ds2438Names, voltageNames]
  rw [List.map_append, happ]
  exact hpre.append hnew

theorem touches_w1ReadVoltages (v : Option Ds2438v) :
    Tracks (Tallied V w n) [] (w1ReadVoltages drv n v) fun r ms =>
      ∃ k : ℕ, r.1 = k ∧ Touches [] (w.found ds2438Names) k ms := by
  refine (tracks_w1ReadVoltages drv v).conseq fun r ms h => ?_
  obtain ⟨pre, new, v', k, rfl, hcount, hkeys, htemp, -⟩ := h
  refine ⟨_, hcount, _, rfl, keys_temp hkeys ?_, rfl⟩
  rcases htemp with ⟨rfl, -⟩ | ⟨j, val, ok, hj, rfl, -⟩
  · exact List.nil_sublist _
  · rw [hj]
    exact List.Sublist.refl _

theorem touches_voltages (req : ℕ) :
    Tracks (Tallied V w n) [] (voltages drv n req) fun r ms =>
      ∃ k : ℕ, r.1 = k ∧ Touches [] (w.found ds2438Names) k ms :=
  .bind (touches_w1ReadVoltages drv _) fun _ _ h => .pure h

/-- A reader that may offer one more value after the channels. -/
theorem reports_after {k : ℕ} {ms : List SensorMark} {r : Int} (name : String)
    (hr : r = k) (h : Touches [] (w.found ds2438Names) k ms) (value : ℚ) :
    Tracks (Tallied V w n) ms (do let nv ← offer (σ := σ) n name value; return r + nv) fun r ms' =>
      ∃ k : ℕ, r = k ∧ Touches [] (w.found (ds2438Names ++ [name])) k ms' := by
  refine .bind (touches_one name value) fun i ms' hi => .pure ⟨k + i, by simp [hr], ?_⟩
  rw [Device.found, List.flatMap_append]
  exact h.trans hi

theorem found_more (name : String) :
    (w.found ds2438Names).Sublist (w.found (ds2438Names ++ [name])) := by
  rw [Device.found, Device.found, List.flatMap_append]
  exact List.sublist_append_left _ _

theorem reports_ds2438v :
    Reports V w n (do return (← w1ReadVoltages drv n none).1) (w.found ds2438Names) :=
  .bind (touches_w1ReadVoltages drv none) fun _ _ h => .pure h

theorem reports_w1ReadBray :
    Reports V w n (w1ReadBray drv n) (w.found (ds2438Names ++ ["Pres"])) := by
  refine .bind_keep tracks_makeSerial fun _ _ => .bind_keep (tracks_w1SelectDevice drv) fun found _ => ?_
  refine .ite (fun _ => .bind (touches_voltages drv _) fun r ms h => ?_) fun _ =>
    .bind_keep tracks_w1SetInvalid fun _ _ => .pure ⟨0, rfl, .none⟩
  obtain ⟨k, hr, hk⟩ := h
  refine .ite (fun _ => ?_) fun _ => .pure ⟨k, hr, hk.mono (found_more "Pres")⟩
  refine .bind_keep tracks_dev fun d _ => .bind_keep tracks_getW1 fun w1 _ => ?_
  refine .bind_keep .lift fun p _ => ?_
  exact reports_after "Pres" hr hk _

theorem reports_w1ReadHbPressure :
    Reports V w n (w1ReadHbPressure drv n) (w.found (ds2438Names ++ ["Pres"])) := by
  refine .bind_keep tracks_makeSerial fun _ _ => .bind_keep tracks_w1SetInvalid fun _ _ => ?_
  refine .bind_keep (tracks_w1SelectDevice drv) fun found _ => ?_
  refine .ite (fun _ => .bind (touches_voltages drv _) fun r ms h => ?_) fun _ => .pure ⟨0, rfl, .none⟩
  obtain ⟨k, hr, hk⟩ := h
  refine .ite (fun _ => ?_) fun _ => .pure ⟨k, hr, hk.mono (found_more "Pres")⟩
  refine .bind_keep tracks_dev fun d _ => ?_
  exact reports_after "Pres" hr hk _

theorem reports_w1ReadCurrent :
    Reports V w n (w1ReadCurrent drv n) (w.found (ds2438Names ++ ["current"])) := by
  refine .bind_keep tracks_makeSerial fun _ _ => .bind_keep tracks_w1SetInvalid fun _ _ => ?_
  refine .bind_keep (tracks_w1SelectDevice drv) fun found _ => ?_
  refine .ite (fun _ => .bind (touches_voltages drv _) fun r ms h => ?_) fun _ => .pure ⟨0, rfl, .none⟩
  obtain ⟨k, hr, hk⟩ := h
  refine .ite (fun _ => ?_) fun _ => .pure ⟨k, hr, hk.mono (found_more "current")⟩
  exact reports_after "current" hr hk _

/-! ## Humidity -/

theorem finds_temp : w.finds "Temp" = w.finds "temp" := by
  have hmatch : ∀ (xs : List Sensor) (j : ℕ),
      matchFrom "Temp".toList xs j = matchFrom "temp".toList xs j := by
    intro xs
    induction xs with
    | nil => exact fun _ => rfl
    | cons x xs ih =>
      intro j
      have hlower : "Temp".toList.map CStrings.tolower = "temp".toList.map CStrings.tolower := by decide
      have hsame : ∀ s, (CStrings.strcasestr s "Temp".toList = CStrings.strcasestr s "temp".toList) ∧
          CStrings.strcaseeq s "Temp".toList = CStrings.strcaseeq s "temp".toList := by
        intro s
        simp only [CStrings.strcasestr, CStrings.strcaseeq, hlower, and_self]
      rw [matchFrom, matchFrom, ih (j + 1)]
      cases x.abbrv with
      | none => rfl
      | some abbrv =>
        cases x.name with
        | none => rfl
        | some name =>
          simp only [(hsame name).1, (hsame abbrv).2]
  rw [Device.finds, Device.finds, w1MatchSensor, w1MatchSensor, hmatch]

/-- The verdicts behind the marks are lawful. -/
theorem tracks_lawful {α : Type} {m : M σ α} {Q : α → List SensorMark → Prop}
    (h : Tracks (Tallied V w n) ms m Q) :
    Tracks (Tallied V w n) ms m fun a ms' => Q a ms' ∧ V.Lawful ms' := by
  intro s a s' hs hr
  obtain ⟨ms', hs', hQ⟩ := h s a s' hs hr
  exact ⟨ms', hs', hQ, hs'.lawful⟩

/-- The temperature is offered a second time, but an accepted one is accepted again. -/
theorem steady_again {pre new again rest : List SensorMark} {temp : ℚ}
    (hkeys : ((pre ++ new ++ rest).map Mark.key).Nodup)
    (htemp : new = [] ∧ temp = 0 ∨ ∃ j val ok, w.finds "temp" = some j ∧
      new = [⟨j, some val, ok⟩] ∧ temp = if ok then val else 0)
    (hagain : again.map Mark.target = w.target "Temp" (some temp))
    (hfresh : new = [] → ((pre ++ again ++ rest).map Mark.key).Nodup)
    (hlawful : V.Lawful (pre ++ new ++ again ++ rest)) :
    Steady (pre ++ new ++ again ++ rest) := by
  rcases htemp with ⟨rfl, -⟩ | ⟨j, val, ok, hj, rfl, rfl⟩
  · rw [List.append_nil]
    exact steady_of_nodup (hfresh rfl)
  · rw [Device.target, finds_temp, hj] at hagain
    obtain ⟨m, rfl, hm⟩ := List.map_eq_singleton_iff.mp hagain
    obtain ⟨hkey, hvalue⟩ := Prod.mk.inj hm
    have hsplit : pre ++ [⟨j, some val, ok⟩] ++ [m] ++ rest = pre ++ ⟨j, some val, ok⟩ :: m :: rest := by
      simp
    rw [hsplit]
    refine steady_repeat (by simpa using hkeys) hkey ?_
    rintro (rfl : ok = true)
    refine hlawful.again (pre ++ [⟨j, some val, true⟩]) m rest (by simp) ?_
    rw [last_snoc, if_pos hkey.symm, hkey, hvalue]
    rfl

theorem tracks_reportHumidity :
    Tracks (Tallied V w n) ms (reportHumidity (σ := σ) n) fun _ ms' => ms' = ms ∧ True := by
  refine .bind_keep (φ := fun _ => True) ?_ fun both _ => ?_
  · refine .bind_keep (tracks_slot 0) fun x _ => .ite (fun _ => ?_) fun _ => .pure ⟨rfl, trivial⟩
    exact .bind_keep (tracks_slot 1) fun y _ => .pure ⟨rfl, trivial⟩
  · exact .ite (fun _ => tracks_w1Replog) fun _ => .pure ⟨rfl, trivial⟩

theorem tracks_w1ReadHumidity :
    Tracks (Tallied V w n) [] (w1ReadHumidity drv n) fun r ms =>
      r = count ms ∧ ((w.found (ds2438Names ++ ["Humidity"])).Nodup → Steady ms) := by
  refine .bind_keep tracks_makeSerial fun _ _ => .bind_keep tracks_w1SetInvalid fun _ _ => ?_
  refine .bind_keep (tracks_w1SelectDevice drv) fun found _ => .ite (fun _ => ?_) fun _ => ?_
  · refine .bind (tracks_voltages drv _) fun r ms₁ h₁ => .bind (tracks_offer "Temp" _) fun i ms₂ h₂ => ?_
    refine .bind (tracks_lawful (touches_one "Humidity" _)) fun j ms₃ h₃ => ?_
    refine .bind_keep tracks_reportHumidity fun _ _ => .pure ?_
    obtain ⟨pre, new, rfl, hcount, hkeys, htemp⟩ := h₁
    obtain ⟨again, rfl, hagain, rfl⟩ := h₂
    obtain ⟨⟨rest, rfl, hrest, rfl⟩, hlawful⟩ := h₃
    refine ⟨by simp [hcount, add_assoc], fun hnodup => ?_⟩
    have htarget : (again.map Mark.key).Sublist (w.finds "temp").toList := by
      have hmap := congrArg (List.map Prod.fst) hagain
      rw [List.map_map, Device.target, finds_temp, List.map_map] at hmap
      have hid : (w.finds "temp").toList.map (Prod.fst ∘ (·, some r.2.temp)) =
          (w.finds "temp").toList := List.map_id _
      rw [hid] at hmap
      exact hmap ▸ List.Sublist.refl _
    have hnewKeys : (new.map Mark.key).Sublist (w.finds "temp").toList := by
      rcases htemp with ⟨rfl, -⟩ | ⟨k, val, ok, hk, rfl, -⟩
      · exact List.nil_sublist _
      · rw [hk]
        exact List.Sublist.refl _
    have hall : ∀ mid : List SensorMark, (mid.map Mark.key).Sublist (w.finds "temp").toList →
        ((pre ++ mid ++ rest).map Mark.key).Nodup := by
      intro mid hmid
      refine hnodup.sublist ?_
      rw [List.map_append, Device.found, List.flatMap_append]
      exact (keys_temp hkeys hmid).append hrest
    exact steady_again (hall new hnewKeys) htemp hagain (fun _ => hall again htarget) hlawful
  · exact .bind_keep tracks_reportHumidity fun _ _ => .pure ⟨rfl, fun _ => .nil⟩

/-! ## Both or neither -/

/-- The marks that end `w1_read_hih`. -/
def unlessBoth (ms : List SensorMark) : List SensorMark :=
  if shows 0 ms && shows 1 ms then [] else [⟨1, none, false⟩, ⟨0, none, false⟩]

theorem tracks_clearUnlessBoth :
    Tracks (Tallied V w n) ms (clearUnlessBoth (σ := σ) n) fun _ ms' => ms' = ms ++ unlessBoth ms := by
  have htwo : Tracks (Tallied V w n) ms (firstTwoInvalid (σ := σ) n) fun b ms' =>
      ms' = ms ∧ (b = true ↔ ¬ (shows 0 ms && shows 1 ms) = true) := by
    refine .bind_keep (tracks_slot 0) fun x hx => .ite (fun hvalid => ?_) fun hvalid => .pure ⟨rfl, ?_⟩
    · refine .bind_keep (tracks_slot 1) fun y hy => .pure ⟨rfl, ?_⟩
      rw [hx.mp hvalid, Bool.true_and, ← hy]
      simp
    · rw [hx] at hvalid
      simp [hvalid]
  refine .bind_keep htwo fun b hb => .ite (fun h => ?_) fun h => .pure ?_
  · refine .bind_keep tracks_w1Replog fun _ _ => .bind (tracks_clearValid 1) fun _ ms₁ h₁ => ?_
    subst h₁
    refine (tracks_clearValid 0).conseq fun _ ms₂ h₂ => ?_
    rw [h₂, unlessBoth, if_neg (hb.mp h), List.append_assoc]
    rfl
  · have hboth : (shows 0 ms && shows 1 ms) = true := by
      by_contra hnot
      exact h (hb.mpr hnot)
    rw [unlessBoth, if_pos hboth, List.append_nil]

/-- What `w1_read_hih` counts: the humidity, if a channel was accepted. -/
def HihRead (w : Device) (r : Int) (ms : List SensorMark) : Prop :=
  ∃ cs hs, ms = cs ++ hs ++ unlessBoth (cs ++ hs) ∧ (cs.map Mark.key).Sublist (w.found ds2438Names) ∧
    r = count hs ∧ (count cs = 0 → hs = []) ∧
    (0 < count cs → hs.map Mark.key = (w.finds "Humidity").toList)

theorem tracks_w1ReadHih :
    Tracks (Tallied V w n) [] (w1ReadHih drv n) fun r ms => r = 0 ∧ ms = [] ∨ HihRead w r ms := by
  refine .bind_keep tracks_makeSerial fun _ _ => .bind_keep tracks_w1SetInvalid fun _ _ => ?_
  refine .bind_keep (tracks_w1SelectDevice drv) fun found _ =>
    .ite (fun _ => ?_) fun _ => .pure (Or.inl ⟨rfl, rfl⟩)
  refine .bind (touches_voltages drv _) fun r ms₁ h₁ => ?_
  obtain ⟨_, hr, cs, hms, hkeys, rfl⟩ := h₁
  rw [List.nil_append] at hms
  subst hms
  refine .ite (fun hne => ?_) fun heq => ?_
  · refine .bind (tracks_offer "Humidity" _) fun nv ms₂ h₂ => ?_
    obtain ⟨hs, rfl, htargets, rfl⟩ := h₂
    refine .bind tracks_clearUnlessBoth fun _ ms₃ h₃ => .pure (Or.inr ⟨ms₁, hs, h₃, hkeys, rfl, ?_, ?_⟩)
    · intro hzero
      exact absurd (by rw [hr, hzero]; rfl) hne
    · intro _
      have hmap := congrArg (List.map Prod.fst) htargets
      rw [List.map_map, Device.target, List.map_map] at hmap
      exact hmap.trans (List.map_id _)
  · have hzero : count ms₁ = 0 := by
      have : r.1 = 0 := by simpa using heq
      omega
    refine .bind tracks_clearUnlessBoth fun _ ms₂ h₂ => .pure (Or.inr ⟨ms₁, [], ?_, hkeys, rfl, ?_, ?_⟩)
    · simpa using h₂
    · exact fun _ => rfl
    · intro hpos
      omega

end
end W1Retap
