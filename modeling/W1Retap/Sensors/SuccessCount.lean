import W1Retap.Main.Loop
import W1Retap.Sensors.Collisions

/-!
# The success count

For one type and one layout of names the value of the reader agrees with `valid`, whatever
the limits, the state of the process and the answers of the bus, exactly when the reader
finds different sensors.
-/
namespace W1Retap

open Programs Tally

/-- Nothing of the device is valid, and its spare slots are empty. -/
def Device.Cleared (d : Device) : Prop := d.Spare ∧ d.anyValid = false

/-- The reader returns a positive value exactly when a sensor is valid where it ends. -/
def Counts (stype : W1Type) (d : Device) : Prop :=
  ∀ (σ : Type) (drv : Driver σ) (n : ℕ) (s s' : Machine σ) (r : Int), s.w1.devs[n]? = some d →
    (readSensors drv n stype).run s = .ok (r, s') → (0 < r ↔ s'.hasValid n)

/-- So it does for every device with the names of `w`. -/
def CountsFor (stype : W1Type) (w : Device) : Prop :=
  ∀ d : Device, d.labels = w.labels → d.Cleared → Counts stype d

/-- A bus on which every device is found and each quantity has one value. -/
def Driver.meter (value : String → ℚ) : Driver Unit :=
  { Driver.silent with
    owSearch := fun _ serno b => ([serno], b)
    readAtoD := fun vdd _ b => (value (if vdd then "vdd" else "vad"), b)
    readVsens := fun _ b => (value "vsens", b)
    getTemperature := fun _ b => (value "temp", b)
    readAtoDResults := fun _ _ b =>
      (some #v[value "ADA", value "ADB", value "ADC", value "ADD"], b)
    readSHT11 := fun _ b => (some (value "Temp", value "Humidity"), b)
    readDS2760 := fun _ b =>
      (some ⟨value "Volt", value "Current", value "Accumulator", value "Temp"⟩, b)
    readDS1923 := fun _ _ b => (some ⟨value "Humidity", value "Temp"⟩, b)
    hbuvReadData := fun _ b => (some ⟨100, 0⟩, b)
    hbhtReadData := fun _ b => (some ⟨value "Temp", value "Humidity"⟩, b)
    readPressureValues := fun b => (some (value "Temp", value "Pres"), b)
    exp := fun _ => 1 }

/-! ## Runs that disagree -/

section
variable {stype : W1Type} {w : Device} {good : ℚ} {accepting : ℕ → Bool} {value : String → ℚ}

/-- The value and the marks disagree. -/
def Disagrees (w : Device) (r : Int) (ms : List SensorMark) : Prop :=
  (0 < r ∧ ¬ ∃ j, shows j ms = true) ∨ (r ≤ 0 ∧ ∃ j < w.ns, shows j ms = true)

theorem meter_finds : (Driver.meter value).Finds := fun _ _ => by simp [Driver.meter]

/-- A reader that ends and disagrees on a trial device does not count right. -/
theorem not_countsFor (good : ℚ) (accepting : ℕ → Bool) (value : String → ℚ)
    {Q : Int → List SensorMark → Prop} (hgood : 0 ≤ good)
    (h : Marks (exactly good accepting) (w.trial good accepting) []
      (readSensors (Driver.meter value) 0 stype) Q)
    (hQ : ∀ r ms, (exactly good accepting).Lawful ms → Q r ms → Disagrees w r ms) :
    ¬ CountsFor stype w := by
  intro hcounts
  have hstart : Alone (w.trial good accepting) []
      ({ w1 := { devs := [w.trial good accepting] }, bus := () } : Machine Unit) := by
    refine ⟨⟨_, rfl, rfl, rfl, rfl, rfl⟩, ?_⟩
    intro e he
    exact nomatch he
  have htallied : Tallied (exactly good accepting) (w.trial good accepting) 0 []
      ({ w1 := { devs := [w.trial good accepting] }, bus := () } : Machine Unit) :=
    tallied_start rfl (fun _ _ hx => trial_law hgood hx) fun _ hx => trial_valid hx
  obtain ⟨r, s', hrun, ms, ⟨-, hms⟩, hr⟩ := h _ ⟨hstart, htallied⟩
  have hiff := hcounts (w.trial good accepting) trial_labels ⟨trial_spare, trial_anyValid⟩ Unit
    (Driver.meter value) 0 _ s' r rfl hrun
  rcases hQ r ms hms.lawful hr with ⟨hpos, hnone⟩ | ⟨hle, j, hj, hshow⟩
  · exact hnone (hms.shows_of_hasValid (hiff.mp hpos))
  · have := hiff.mpr (hms.hasValid_of_shows hj hshow)
    omega

/-- Two names of the list find `c`, and only the first of them is given the good value. -/
theorem overruled_shared {d : Device} {names before after : List String} {name : String} {c : ℕ}
    {ms : List SensorMark} (hfits : ∀ m ∈ ms, (exactly good accepting).Fits m)
    (hc : accepting c = true) (hnames : names = before ++ name :: after)
    (hname : d.finds name = some c) (hother : ∃ other ∈ after, d.finds other = some c)
    (hvalue : value name = good) (hafter : ∀ m ∈ after, value m ≠ good)
    (hts : ms.map Mark.target = d.targets names value) : 0 < count ms ∧ shows c ms = false := by
  have hsplit : d.targets names value = d.targets before value ++
      (c, some good) :: d.targets after value := by
    simp [hnames, Device.targets, Device.target, hname, hvalue]
  rw [hsplit] at hts
  have hmem : ∃ v, (c, v) ∈ d.targets after value := by
    obtain ⟨other, hin, hfind⟩ := hother
    refine ⟨some (value other), List.mem_flatMap.mpr ⟨other, hin, ?_⟩⟩
    simp [Device.target, hfind]
  have hbad : ∀ t ∈ d.targets after value, t.2 ≠ some good := by
    intro t ht
    obtain ⟨m, hm, htm⟩ := List.mem_flatMap.mp ht
    obtain ⟨j, -, rfl⟩ := List.mem_map.mp htm
    exact fun heq => hafter m hm (Option.some.inj heq)
  exact overruled hfits hts hc hmem hbad

/-- Where only `c` accepts, nothing is shown when it is not. -/
theorem not_shows_of_only {ms : List SensorMark} {c : ℕ} (hlawful : (exactly good (· == c)).Lawful ms)
    (hnot : shows c ms = false) : ¬ ∃ j, shows j ms = true := by
  rintro ⟨j, hj⟩
  have hjc : j = c := by simpa using accepting_of_shows hlawful hj
  rw [hjc, hnot] at hj
  cases hj

/-- So the reader counts one, and leaves nothing valid. -/
theorem disagrees_of_shared (d : Device) (value : String → ℚ) {names before after : List String}
    {name : String} {c : ℕ} {r : Int} {ms : List SensorMark} (hlawful : (exactly good (· == c)).Lawful ms)
    (hnames : names = before ++ name :: after) (hname : d.finds name = some c)
    (hother : ∃ other ∈ after, d.finds other = some c) (hvalue : value name = good)
    (hafter : ∀ m ∈ after, value m ≠ good) (hr : r = count ms)
    (hts : ms.map Mark.target = d.targets names value) : Disagrees w r ms := by
  obtain ⟨hpos, hnot⟩ := overruled_shared hlawful.fits (beq_self_eq_true c) hnames hname hother hvalue
    hafter hts
  exact Or.inl ⟨by omega, not_shows_of_only hlawful hnot⟩

/-- The value of the first name is 99.9, of the others 100. -/
def firstOnly (name m : String) : ℚ := if m = name then 999 / 10 else 100

theorem firstOnly_self (name : String) : firstOnly name name = 999 / 10 := if_pos rfl

theorem firstOnly_ne {name m : String} (h : m ≠ name) : firstOnly name m ≠ 999 / 10 := by
  rw [firstOnly, if_neg h]
  norm_num

theorem ordinary_firstOnly (name : String) : Ordinary (firstOnly name) := by
  intro m
  by_cases h : m = name
  · exact Or.inl (if_pos h)
  · exact Or.inr (if_neg h)

theorem measures_meter (hord : Ordinary value) : Measures (Driver.meter value) value where
  vdd _ _ := rfl
  vad _ _ := rfl
  vsens _ _ := rfl
  temp _ _ := rfl
  ok name _ := by
    rcases hord name with h | h <;> rw [h] <;> norm_num

theorem trial_finds : (w.trial good accepting).finds = w.finds := finds_congr trial_labels

theorem not_mem_after {names before after : List String} {name : String} (hnodup : names.Nodup)
    (hnames : names = before ++ name :: after) : ∀ m ∈ after, m ≠ name := by
  rw [hnames] at hnodup
  rintro m hm rfl
  have hrest := (List.nodup_append.mp hnodup).2.1
  exact (List.nodup_cons.mp hrest).1 hm

/-- A reader whose targets are the values of a list of names. -/
theorem not_countsFor_of_aims {names : List String} (hnames : names.Nodup)
    (h : ∀ name c, Aims (exactly (999 / 10) (· == c)) (w.trial (999 / 10) (· == c))
      (readSensors (Driver.meter (firstOnly name)) 0 stype)
      ((w.trial (999 / 10) (· == c)).targets names (firstOnly name)))
    (hshared : ¬ (w.found names).Nodup) : ¬ CountsFor stype w := by
  obtain ⟨before, name, after, c, hsplit, hname, other, hother, hfind⟩ := exists_shared hshared
  refine not_countsFor _ _ _ (by norm_num) (h name c) fun r ms hlawful hr => ?_
  refine disagrees_of_shared (w.trial (999 / 10) (· == c)) _ hlawful hsplit
    (by rw [trial_finds, hname]) ⟨other, hother, by rw [trial_finds, hfind]⟩ (firstOnly_self name) ?_
    hr.1 hr.2
  intro m hm
  exact firstOnly_ne (not_mem_after hnames hsplit m hm)

/-- A name in front of another is not the last one. -/
theorem ne_last {names before after : List String} {name last : String}
    (hnodup : (names ++ [last]).Nodup) (hsplit : names ++ [last] = before ++ name :: after)
    (hafter : after ≠ []) : name ≠ last := by
  rintro rfl
  obtain ⟨rest, m, rfl⟩ := (List.eq_nil_or_concat after).resolve_left hafter
  rw [List.concat_eq_append, ← List.cons_append, ← List.append_assoc] at hsplit
  obtain ⟨-, hm⟩ := List.append_inj' hsplit rfl
  have hlast : name = m := by simpa using hm
  have hnames : names ++ [name] = before ++ name :: (rest ++ [m]) := by
    rw [hsplit]
    simp
  exact not_mem_after hnodup hnames m (by simp) hlast.symm

/-- A reader that computes one more value from the channels. -/
theorem not_countsFor_of_aimsAfter {last : String} (hnames : (ds2438Names ++ [last]).Nodup)
    (h : ∀ name c, AimsAfter (exactly (999 / 10) (· == c)) (w.trial (999 / 10) (· == c))
      (firstOnly name) last (readSensors (Driver.meter (firstOnly name)) 0 stype))
    (hshared : ¬ (w.found (ds2438Names ++ [last])).Nodup) : ¬ CountsFor stype w := by
  obtain ⟨before, name, after, c, hsplit, hname, other, hother, hfind⟩ := exists_shared hshared
  have hne : name ≠ last := ne_last hnames hsplit (List.ne_nil_of_mem hother)
  refine not_countsFor _ _ _ (by norm_num) (h name c) fun r ms hlawful hr => ?_
  obtain ⟨hcount, v, hv, hts⟩ := hr
  let value (m : String) : ℚ := if m = last then v else firstOnly name m
  have hchannels : ∀ m ∈ ds2438Names, value m = firstOnly name m := by
    intro m hm
    refine if_neg ?_
    rintro rfl
    exact (List.nodup_append.mp hnames).2.2 m hm m (by simp) rfl
  have htargets : (w.trial (999 / 10) (· == c)).targets (ds2438Names ++ [last]) value =
      (w.trial (999 / 10) (· == c)).targets ds2438Names (firstOnly name) ++
        (w.trial (999 / 10) (· == c)).target last (some v) := by
    rw [targets_append]
    congr 1
    · exact List.flatMap_congr fun m hm => by rw [hchannels m hm]
    · rw [Device.targets, List.flatMap_singleton, show value last = v from if_pos rfl]
  refine disagrees_of_shared (w.trial (999 / 10) (· == c)) value hlawful hsplit
    (by rw [trial_finds, hname]) ⟨other, hother, by rw [trial_finds, hfind]⟩ ?_ ?_ hcount
    (hts.trans htargets.symm)
  · exact (if_neg hne).trans (firstOnly_self name)
  · intro m hm
    by_cases hml : m = last
    · rw [show value m = v from if_pos hml]
      exact hv
    · rw [show value m = firstOnly name m from if_neg hml]
      exact firstOnly_ne (not_mem_after hnames hsplit m hm)

theorem trial_stype : (w.trial good accepting).stype ≠ .coupler := by
  simp [Device.trial]

theorem trial_length : 2 ≤ (w.trial good accepting).s.length := by
  simp [Device.trial, Device.slots]

/-- The humidity sensor's reader offers the temperature twice. -/
theorem not_countsFor_humid (hnamed : w.Named)
    (hshared : ¬ (w.found (ds2438Names ++ ["Humidity"])).Nodup) : ¬ CountsFor .humid w := by
  obtain ⟨before, name, after, c, hsplit, hname, other, hother, hfind⟩ := exists_shared hshared
  obtain ⟨rest, m, rfl⟩ := (List.eq_nil_or_concat after).resolve_left (List.ne_nil_of_mem hother)
  rw [List.concat_eq_append, ← List.cons_append, ← List.append_assoc] at hsplit
  obtain ⟨hfront, hm⟩ := List.append_inj' hsplit rfl
  obtain rfl : "Humidity" = m := by simpa using hm
  let d := w.trial (999 / 10) (· == c)
  have hfinds : d.finds = w.finds := trial_finds
  refine not_countsFor (999 / 10) (· == c) (firstOnly name) (by norm_num)
    (aims_w1ReadHumidity meter_finds trial_stype (trial_named hnamed) trial_length
      (measures_meter (ordinary_firstOnly name)) (ordinary_firstOnly name)) ?_
  rintro r ms hlawful ⟨hcount, temp, humid, htemp, hhumid, hts⟩
  let value (m : String) : ℚ :=
    if m = "Temp" then temp else if m = "Humidity" then humid else firstOnly name m
  have htargets : ms.map Mark.target = d.targets (ds2438Names ++ ["Temp", "Humidity"]) value := by
    rw [hts]
    simp [d, Device.targets, ds2438Names, value]
  by_cases hagain : name = "temp" ∧ temp = 999 / 10
  · -- the accepted temperature is offered again under the second name
    obtain ⟨rfl, rfl⟩ := hagain
    have hrest : rest = [] := by
      by_contra hne
      have hnames : ["vdd", "vad", "vsens"] ++ ["temp"] = before ++ "temp" :: rest := hfront
      exact ne_last (by decide) hnames hne rfl
    have hother' : other = "Humidity" := by simpa [hrest] using hother
    have hnames : ds2438Names ++ ["Temp", "Humidity"] = ds2438Names ++ "Temp" :: ["Humidity"] := rfl
    refine disagrees_of_shared d value hlawful hnames
      (by rw [hfinds, finds_temp, hname]) ⟨other, by simp [hother'], by rw [hfinds, hfind]⟩ rfl ?_ hcount
      htargets
    intro m hm
    obtain rfl : m = "Humidity" := by simpa using hm
    exact hhumid
  · have hnames : ds2438Names ++ ["Temp", "Humidity"] =
        before ++ name :: (rest ++ ["Temp", "Humidity"]) := by
      rw [hfront]
      simp
    refine disagrees_of_shared d value hlawful hnames (by rw [hfinds, hname])
      ⟨other, ?_, by rw [hfinds, hfind]⟩ ?_ ?_ hcount htargets
    · rw [List.concat_eq_append] at hother
      rcases List.mem_append.mp hother with h | h
      · exact List.mem_append_left _ h
      · rw [List.mem_singleton.mp h]
        simp
    · have hmem : name ∈ ds2438Names := by rw [hfront]; simp
      have hne : name ≠ "Temp" ∧ name ≠ "Humidity" := by
        constructor <;> rintro rfl <;> exact absurd hmem (by decide)
      simp only [value, if_neg hne.1, if_neg hne.2]
      exact firstOnly_self name
    · have hnodup : ds2438Names.Nodup := by decide
      intro m hm
      by_cases hmt : m = "Temp"
      · rw [show value m = temp from if_pos hmt]
        rcases htemp with h | h
        · rw [h]
          norm_num
        · by_cases hn : name = "temp"
          · exact fun heq => hagain ⟨hn, heq⟩
          · rw [h]
            exact firstOnly_ne (Ne.symm hn)
      · by_cases hmh : m = "Humidity"
        · rw [show value m = humid by simp only [value, if_neg hmt, if_pos hmh]]
          exact hhumid
        · have hin : m ∈ rest := by simpa [hmt, hmh] using hm
          rw [show value m = firstOnly name m by simp only [value, if_neg hmt, if_neg hmh]]
          exact firstOnly_ne (not_mem_after hnodup hfront m hin)

theorem marks_matchUv {V : Judge} {ms : List SensorMark} {σ : Type} (hw : w.Named) :
    Marks V w ms (matchUv (σ := σ) 0) fun r ms' => ms' = ms ∧ r = w.findsUv := by
  refine .bind_keep (marks_matchSensor hw "uv") fun r hr => ?_
  rw [Device.findsUv, ← hr]
  cases r with
  | some j => exact .pure ⟨rfl, rfl⟩
  | none =>
    refine .bind_keep (marks_matchSensor hw "ultra") fun r hr => ?_
    rw [← hr]
    cases r with
    | some j => exact .pure ⟨rfl, rfl⟩
    | none => exact marks_matchSensor hw "violet"

/-- The temperature and the ultraviolet reading of one sensor. -/
theorem not_countsFor_hbuv (hnamed : w.Named)
    (hshared : ¬ ((w.finds "Temp").toList ++ w.findsUv.toList).Nodup) : ¬ CountsFor .hbuv w := by
  obtain ⟨c, htemp, huv⟩ : ∃ c, w.finds "Temp" = some c ∧ w.findsUv = some c := by
    cases htemp : w.finds "Temp" with
    | none => cases huv : w.findsUv <;> simp [htemp, huv] at hshared
    | some c =>
      cases huv : w.findsUv with
      | none => simp [htemp, huv] at hshared
      | some c' =>
        have heq : c = c' := by simpa [htemp, huv] using hshared
        exact ⟨c, rfl, by rw [heq]⟩
  let d := w.trial 50 (· == c)
  have hnamed' : d.Named := trial_named hnamed
  have hfinds : d.finds = w.finds := trial_finds
  have huv' : d.findsUv = some c := by rw [Device.findsUv, hfinds]; exact huv
  have htemp' : d.finds "Temp" = some c := by rw [hfinds, htemp]
  have hc : ((d.s[c]?).bind Sensor.abbrv).isSome := (hnamed'.finds_lt htemp').2
  have haims : Aims (exactly 50 (· == c)) d (readSensors (Driver.meter fun _ => 0) 0 .hbuv)
      [(c, some 50), (c, some 0)] := by
    refine aims_readAndOffer meter_finds trial_stype (fun _ _ => rfl) ?_
    refine .bind (marks_offer hnamed' "Temp" _) fun i ms₁ h₁ => ?_
    refine .bind_keep (marks_matchUv hnamed') fun uv huv => ?_
    rw [huv, huv']
    refine .bind (marks_store hc 0 fun _ => ⟨rfl, rfl, by norm_num⟩) fun j ms₂ h₂ => .pure ?_
    have hboth := h₁.trans h₂
    rw [Device.target, htemp'] at hboth
    norm_num at hboth
    exact hboth
  refine not_countsFor _ _ _ (by norm_num) haims fun r ms hlawful hr => ?_
  have hsplit : ms.map Mark.target = [] ++ (c, some 50) :: [(c, some 0)] := hr.2
  obtain ⟨hpos, hnot⟩ := overruled hlawful.fits hsplit (beq_self_eq_true c) ⟨some 0, by simp⟩
    (by norm_num)
  exact Or.inl ⟨by rw [hr.1]; omega, not_shows_of_only hlawful hnot⟩

/-! ## Both or neither -/

theorem targets_keys (names : List String) (value : String → ℚ) :
    (w.targets names value).map Prod.fst = w.found names := by
  simp [Device.targets, Device.target, Device.found, List.map_flatMap, Function.comp_def]

/-- The channels that deliver the good value are shown where it is accepted. -/
theorem shows_of_good {ms : List SensorMark} {j : ℕ}
    (hfits : ∀ m ∈ ms, (exactly good accepting).Fits m) (hvalue : ∀ m ∈ ms, m.value = some good)
    (hj : j ∈ ms.map Mark.key) (hacc : accepting j = true) : shows j ms = true := by
  obtain ⟨m, hlast⟩ := exists_last hj
  obtain ⟨hmem, hkey⟩ := last_mem hlast
  refine shows_iff.mpr ⟨m, hlast, (exactly_fits (hfits m hmem)).mpr ⟨?_, hvalue m hmem⟩⟩
  rw [hkey]
  exact hacc

/-- With the good value on every channel. -/
theorem good_targets {ms : List SensorMark} {names : List String}
    (h : ms.map Mark.target = w.targets names fun _ => good) :
    ms.map Mark.key = w.found names ∧ ∀ m ∈ ms, m.value = some good := by
  constructor
  · rw [← targets_keys names fun _ => good, ← h, List.map_map]
    rfl
  · intro m hm
    have htarget : m.target ∈ w.targets names fun _ => good := h ▸ List.mem_map.mpr ⟨m, hm, rfl⟩
    obtain ⟨name, -, ht⟩ := List.mem_flatMap.mp htarget
    obtain ⟨j, -, heq⟩ := List.mem_map.mp ht
    exact (Prod.mk.inj heq).2.symm

/-- The humidity is rejected, and other sensors are accepted. -/
theorem hih_rejected {r : Int} {ms : List SensorMark} (hnamed : w.Named)
    (hlawful : (exactly (999 / 10) fun j => decide (w.finds "Humidity" ≠ some j)).Lawful ms)
    (h : HihMeasured w (fun _ => 999 / 10) r ms)
    (hkept : (∃ j ∈ w.found ds2438Names, 2 ≤ j ∧ w.finds "Humidity" ≠ some j) ∨
      ∀ i < 2, i ∈ w.found ds2438Names ∧ w.finds "Humidity" ≠ some i) : Disagrees w r ms := by
  obtain ⟨cs, hs, rfl, hts, rfl, hpos, hzero⟩ := h
  obtain ⟨hkeys, hvalue⟩ := good_targets hts
  have hhs : ∀ m ∈ hs, w.finds "Humidity" = some m.key := by
    intro m hm
    rcases Nat.eq_zero_or_pos (count cs) with hc | hc
    · rw [hzero hc] at hm
      exact nomatch hm
    · have htarget : m.target ∈ w.target "Humidity" (some (999 / 10)) :=
        hpos hc ▸ List.mem_map.mpr ⟨m, hm, rfl⟩
      obtain ⟨k, hk, heq⟩ := List.mem_map.mp htarget
      rw [← (Prod.mk.inj heq).1]
      simpa using hk
  have hcount : count hs = 0 := by
    by_contra hne
    obtain ⟨m, hm, hok⟩ := count_pos.mp (Nat.pos_of_ne_zero hne)
    have hacc := ((exactly_fits (hlawful.fits m (by simp [hm]))).mp hok).1
    exact of_decide_eq_true hacc (hhs m hm)
  have hshow : ∀ j ∈ w.found ds2438Names, w.finds "Humidity" ≠ some j → shows j (cs ++ hs) = true := by
    intro j hj hne
    have hfresh : ∀ m ∈ hs, m.key ≠ j := by
      rintro m hm rfl
      exact hne (hhs m hm)
    rw [shows_append hfresh]
    refine shows_of_good (fun m hm => hlawful.fits m (by simp [hm])) hvalue ?_ (decide_eq_true hne)
    rwa [hkeys]
  have hlt : ∀ j ∈ w.found ds2438Names, j < w.ns := by
    intro j hj
    obtain ⟨name, -, hname⟩ := List.mem_flatMap.mp hj
    have hfind : w.finds name = some j := by simpa using hname
    exact (hnamed.finds_lt hfind).1
  refine Or.inr ⟨by rw [hcount]; exact le_rfl, ?_⟩
  rcases hkept with ⟨j, hj, h2, hne⟩ | hboth
  · exact ⟨j, hlt j hj, shows_unlessBoth.mpr ⟨hshow j hj hne, Or.inl h2⟩⟩
  · have h0 := hshow 0 (hboth 0 (by decide)).1 (hboth 0 (by decide)).2
    have h1 := hshow 1 (hboth 1 (by decide)).1 (hboth 1 (by decide)).2
    exact ⟨0, hlt 0 (hboth 0 (by decide)).1, shows_unlessBoth.mpr ⟨h0, Or.inr ⟨h0, h1⟩⟩⟩

/-- The humidity is accepted by one of the first two sensors, and the other is not valid. -/
theorem hih_accepted {r : Int} {ms : List SensorMark} {value : String → ℚ} {h : ℕ}
    (hlawful : (exactly (999 / 10) accepting).Lawful ms) (hmeasured : HihMeasured w value r ms)
    (hfind : w.finds "Humidity" = some h) (hlt : h < 2) (hacc : accepting h = true)
    (hchannel : ∀ cs : List SensorMark, (∀ m ∈ cs, m ∈ ms) →
      cs.map Mark.target = w.targets ds2438Names value →
      0 < count cs ∧ ∀ j, j ≠ h → shows j cs = false) : Disagrees w r ms := by
  obtain ⟨cs, hs, rfl, hts, rfl, hpos, -⟩ := hmeasured
  obtain ⟨hc, hnot⟩ := hchannel cs (fun m hm => by simp [hm]) hts
  have hhs := hpos hc
  rw [Device.target, hfind] at hhs
  obtain ⟨m, rfl, hm⟩ := List.map_eq_singleton_iff.mp hhs
  obtain ⟨hkey, hvalue⟩ := Prod.mk.inj hm
  have hok : m.ok = true := by
    rw [exactly_fits (hlawful.fits m (by simp)), hkey]
    exact ⟨hacc, hvalue⟩
  have hother : ∀ j, j ≠ h → shows j (cs ++ [m]) = false := by
    intro j hj
    rw [shows_snoc, if_neg (by rw [hkey]; exact Ne.symm hj)]
    exact hnot j hj
  refine Or.inl ⟨by simp [hok], ?_⟩
  rintro ⟨j, hj⟩
  obtain ⟨hshow, h2 | ⟨h0, h1⟩⟩ := shows_unlessBoth.mp hj
  · rw [hother j (by omega)] at hshow
    cases hshow
  · have hcases : h = 0 ∨ h = 1 := by omega
    rcases hcases with rfl | rfl
    · rw [hother 1 (by decide)] at h1
      cases h1
    · rw [hother 0 (by decide)] at h0
      cases h0

theorem hihMeasured_trial {value : String → ℚ} :
    HihMeasured (w.trial good accepting) value = HihMeasured w value := by
  unfold HihMeasured
  simp only [Device.targets, Device.target, trial_finds]

/-- On some bus the verdict on the humidity is not that on the device. -/
theorem not_countsFor_of_measured (accepting : ℕ → Bool) (value : String → ℚ) (hnamed : w.Named)
    (hord : Ordinary value)
    (h : ∀ r ms, (exactly (999 / 10) accepting).Lawful ms → HihMeasured w value r ms →
      Disagrees w r ms) : ¬ CountsFor .hih w := by
  refine not_countsFor (999 / 10) accepting value (by norm_num)
    (marks_w1ReadHih meter_finds trial_stype (trial_named hnamed) trial_length (measures_meter hord)
      hord) fun r ms hlawful hm => h r ms hlawful ?_
  rwa [hihMeasured_trial] at hm

theorem not_countsFor_rejected (hnamed : w.Named)
    (hkept : (∃ j ∈ w.found ds2438Names, 2 ≤ j ∧ w.finds "Humidity" ≠ some j) ∨
      ∀ i < 2, i ∈ w.found ds2438Names ∧ w.finds "Humidity" ≠ some i) : ¬ CountsFor .hih w :=
  not_countsFor_of_measured _ _ hnamed (fun _ => Or.inl rfl) fun _ _ hlawful hm =>
    hih_rejected hnamed hlawful hm hkept

/-- Sensors that are not among the first two but for `i`, or are all `i`. -/
theorem found_cases {found : List ℕ} {skip : Option ℕ}
    (hzero : ∃ j ∈ found, skip ≠ some j ∧ j ≠ 0) (hone : ∃ j ∈ found, skip ≠ some j ∧ j ≠ 1) :
    (∃ j ∈ found, 2 ≤ j ∧ skip ≠ some j) ∨ ∀ i < 2, i ∈ found ∧ skip ≠ some i := by
  obtain ⟨a, ha, hskip, hne⟩ := hzero
  obtain ⟨b, hb, hskip', hne'⟩ := hone
  by_cases ha2 : 2 ≤ a
  · exact Or.inl ⟨a, ha, ha2, hskip⟩
  · by_cases hb2 : 2 ≤ b
    · exact Or.inl ⟨b, hb, hb2, hskip'⟩
    · obtain rfl : a = 1 := by omega
      obtain rfl : b = 0 := by omega
      refine Or.inr fun i hi => ?_
      have hcases : i = 0 ∨ i = 1 := by omega
      rcases hcases with rfl | rfl
      · exact ⟨hb, hskip'⟩
      · exact ⟨ha, hskip⟩

theorem not_countsFor_hih (hnamed : w.Named)
    (hnot : ¬ HihFits (w.found ds2438Names) (w.finds "Humidity")) : ¬ CountsFor .hih w := by
  cases hfind : w.finds "Humidity" with
  | none =>
    rw [hfind, HihFits, not_or] at hnot
    push Not at hnot
    obtain ⟨⟨a, ha, ha0⟩, b, hb, hb1⟩ := hnot
    apply not_countsFor_rejected hnamed
    rw [hfind]
    exact found_cases ⟨a, ha, by simp, ha0⟩ ⟨b, hb, by simp, hb1⟩
  | some h =>
    by_cases hlt : h < 2
    · rw [hfind] at hnot
      simp only [HihFits, if_pos hlt] at hnot
      by_cases hhigh : ∃ j ∈ w.found ds2438Names, 2 ≤ j
      · -- a channel beyond the first two sensors stays valid
        obtain ⟨j, hj, h2⟩ := hhigh
        apply not_countsFor_rejected hnamed
        refine Or.inl ⟨j, hj, h2, ?_⟩
        rw [hfind, Ne, Option.some.injEq]
        omega
      · by_cases hself : h ∈ w.found ds2438Names
        · -- the humidity's sensor is also a channel's, and the only one that accepts
          refine not_countsFor_of_measured (· == h) (fun _ => 999 / 10) hnamed (fun _ => Or.inl rfl) fun r ms hlawful hm =>
              hih_accepted hlawful hm hfind hlt (beq_self_eq_true h) ?_
          intro cs hcs hts
          obtain ⟨hkeys, hvalue⟩ := good_targets hts
          have hfits : ∀ m ∈ cs, (exactly (999 / 10) (· == h)).Fits m :=
            fun m hm => hlawful.fits m (hcs m hm)
          constructor
          · have hshow := shows_of_good hfits hvalue (hkeys ▸ hself) (beq_self_eq_true h)
            by_contra hzero
            rw [not_shows_of_count (by omega)] at hshow
            cases hshow
          · intro j hj
            by_contra hshow
            obtain ⟨m, hlast, hok⟩ := shows_iff.mp (by simpa using hshow)
            obtain ⟨hmem, rfl⟩ := last_mem hlast
            have hacc := ((exactly_fits (hfits m hmem)).mp hok).1
            exact hj (by simpa using hacc)
        · -- all channels find the other sensor, and it accepts the first value only
          have hall : ∀ j ∈ w.found ds2438Names, j = 1 - h := by
            intro j hj
            have hj2 : j < 2 := by
              by_contra hge
              exact hhigh ⟨j, hj, by omega⟩
            have hne : j ≠ h := fun heq => hself (heq ▸ hj)
            omega
          have hshared : ¬ (w.found ds2438Names).Nodup := by
            intro hnodup
            apply hnot
            rw [List.eq_replicate_of_mem hall] at hnodup ⊢
            rw [List.nodup_replicate] at hnodup
            exact List.replicate_sublist_iff.mpr (by simpa using hnodup)
          obtain ⟨before, name, after, c, hsplit, hname, other, hother, hfindOther⟩ :=
            exists_shared hshared
          have hc : c = 1 - h := by
            apply hall
            refine List.mem_flatMap.mpr ⟨name, by rw [hsplit]; simp, ?_⟩
            rw [hname]
            simp
          have hnodup : ds2438Names.Nodup := by decide
          refine not_countsFor_of_measured (fun _ => true) (firstOnly name) hnamed
            (ordinary_firstOnly name) fun r ms hlawful hm => hih_accepted hlawful hm hfind hlt rfl ?_
          intro cs hcs hts
          have hfits : ∀ m ∈ cs, (exactly (999 / 10) fun _ => true).Fits m :=
            fun m hm => hlawful.fits m (hcs m hm)
          have hafter : ∀ m ∈ after, firstOnly name m ≠ 999 / 10 :=
            fun m hm => firstOnly_ne (not_mem_after hnodup hsplit m hm)
          obtain ⟨hpos, hnot⟩ := overruled_shared hfits rfl hsplit hname ⟨other, hother, hfindOther⟩
            (firstOnly_self name) hafter hts
          refine ⟨hpos, fun j hj => ?_⟩
          by_contra hshow
          have hmem : j ∈ cs.map Mark.key := mem_keys_of_shows (by simpa using hshow)
          have hj1 : j = 1 - h := by
            apply hall
            rw [← targets_keys ds2438Names (firstOnly name), ← hts, List.map_map]
            exact hmem
          rw [hj1, ← hc, hnot] at hshow
          exact hshow rfl
    · rw [hfind] at hnot
      simp only [HihFits, if_neg hlt, not_or] at hnot
      push Not at hnot
      obtain ⟨⟨a, ha, hah, ha0⟩, b, hb, hbh, hb1⟩ := hnot
      apply not_countsFor_rejected hnamed
      rw [hfind]
      exact found_cases ⟨a, ha, by simpa using Ne.symm hah, ha0⟩ ⟨b, hb, by simpa using Ne.symm hbh, hb1⟩

/-! ## The condition -/

section
variable {V : Judge}

theorem aims_w1ReadSht11 (hw : w.stype ≠ .coupler) (hnamed : w.Named) :
    Aims V w (w1ReadSht11 (Driver.meter value) 0) (w.targets ["Temp", "Humidity"] value) := by
  refine aims_readAndOffer meter_finds hw (fun _ _ => rfl) ?_
  exact marks_two hnamed "Temp" "Humidity" value

theorem aims_w1ReadDs1923 (hw : w.stype ≠ .coupler) (hnamed : w.Named) :
    Aims V w (w1ReadDs1923 (Driver.meter value) 0) (w.targets ["Temp", "Humidity"] value) := by
  refine aims_readAndOffer meter_finds hw (fun _ _ => rfl) ?_
  exact marks_two hnamed "Temp" "Humidity" value

theorem aims_w1ReadHbht (hw : w.stype ≠ .coupler) (hnamed : w.Named) :
    Aims V w (w1ReadHbht (Driver.meter value) 0) (w.targets ["Temp", "Humidity"] value) := by
  refine aims_readAndOffer meter_finds hw (fun _ _ => rfl) ?_
  exact marks_two hnamed "Temp" "Humidity" value

theorem aims_w1ReadDs2760 (hw : w.stype ≠ .coupler) (hnamed : w.Named) :
    Aims V w (w1ReadDs2760 (Driver.meter value) 0)
      (w.targets ["Temp", "Current", "Volt", "Accumulator"] value) := by
  refine aims_readAndOffer meter_finds hw (fun _ _ => rfl) ?_
  exact marks_four hnamed "Temp" "Current" "Volt" "Accumulator" value

end

/-- A count that is right for all limits and all buses needs different sensors. -/
theorem separate_of_countsFor {stype : W1Type} (hnamed : w.Named) (h : CountsFor stype w) :
    w.Separate stype := by
  by_contra hnot
  revert h
  have hvolts : ∀ name, Measures (Driver.meter (firstOnly name)) (firstOnly name) :=
    fun name => measures_meter (ordinary_firstOnly name)
  have hnamed' : ∀ accepting, (w.trial (999 / 10) accepting).Named := fun _ => trial_named hnamed
  cases stype with
  | hih => exact not_countsFor_hih hnamed hnot
  | humid => exact not_countsFor_humid hnamed hnot
  | hbuv => exact not_countsFor_hbuv hnamed hnot
  | ds2438v =>
    exact not_countsFor_of_aims (by decide)
      (fun name c => aims_ds2438v meter_finds trial_stype (hnamed' _) (hvolts name)) hnot
  | ds2450 =>
    exact not_countsFor_of_aims (by decide)
      (fun name c => aims_w1ReadDs2450 meter_finds trial_stype (hnamed' _) fun _ _ _ => rfl) hnot
  | sht11 =>
    exact not_countsFor_of_aims (by decide)
      (fun name c => aims_w1ReadSht11 trial_stype (hnamed' _)) hnot
  | ds1923 =>
    exact not_countsFor_of_aims (by decide)
      (fun name c => aims_w1ReadDs1923 trial_stype (hnamed' _)) hnot
  | hbht =>
    exact not_countsFor_of_aims (by decide)
      (fun name c => aims_w1ReadHbht trial_stype (hnamed' _)) hnot
  | ds2760 =>
    exact not_countsFor_of_aims (by decide)
      (fun name c => aims_w1ReadDs2760 trial_stype (hnamed' _)) hnot
  | pres =>
    exact not_countsFor_of_aims (by decide)
      (fun name c => aims_w1ReadPressure meter_finds trial_stype (hnamed' _) rfl fun _ => rfl) hnot
  | bray =>
    exact not_countsFor_of_aimsAfter (by decide) (fun name c => aims_w1ReadBray meter_finds trial_stype
      (hnamed' _) rfl rfl (hvolts name) (ordinary_firstOnly name)) hnot
  | hbbaro =>
    exact not_countsFor_of_aimsAfter (by decide) (fun name c => aims_w1ReadHbPressure meter_finds
      trial_stype (hnamed' _) rfl (hvolts name) (ordinary_firstOnly name)) hnot
  | msTc =>
    exact not_countsFor_of_aimsAfter (by decide) (fun name c => aims_w1ReadCurrent meter_finds
      trial_stype (hnamed' _) (hvolts name) (ordinary_firstOnly name)) hnot
  | _ => exact absurd List.nodup_nil hnot

/-- Different sensors are enough, for the retry loop as well. -/
theorem counts_of_separate {d : Device} {σ : Type} {n : ℕ} {s s' : Machine σ}
    {r : Int} {m : M σ Int} (hm : Tracks (Tallied (inUse d) d n) [] m Fits)
    (hclear : d.Cleared) (hd : s.w1.devs[n]? = some d) (h : m.run s = .ok (r, s')) :
    0 < r ↔ s'.hasValid n := by
  obtain ⟨ms, hms, hfits⟩ := hm s r s' (tallied_inUse hd hclear.1 hclear.2) h
  rw [hms.hasValid_iff]
  exact hfits

end

/-! ## The count of a pass -/

/-- The count is positive exactly when a sensor is valid, for all limits and all buses,
exactly when the reader finds different sensors; then this is so of the retry loop, and of
a pass, which decides whether the loggers are called. -/
theorem success_count_iff (stype : W1Type) :
    (∀ w : Device, w.Named → (CountsFor stype w ↔ w.Separate stype)) ∧
    (∀ d : Device, d.Separate stype → d.Cleared → ∀ (σ : Type) (drv : Driver σ)
      (n rtry : ℕ) (s s' : Machine σ) (r : Int), s.w1.devs[n]? = some d →
      (readRetrying drv n stype rtry).run s = .ok (r, s') → (0 < r ↔ s'.hasValid n)) ∧
    ∀ (σ : Type) (drv : Driver σ) (secs nv : Int) (s s' : Machine σ),
      s.w1.doread = true ∨ (¬ ∃ n, s.hasValid n) → (∀ n < s.w1.devs.length, Ready s n) →
      (w1ReadAllSensors drv secs).run s = .ok (nv, s') →
      (nv ≠ 0 ↔ ∃ n, s'.hasValid n) ∧
        ((∃ n, s'.hasValid n) → (readPass drv secs).run s = (do
          callLoggers
          let w1 ← getW1
          if w1.logtmp ≠ 0 then
            let phase ← StateT.lift (timeMod secs w1.cycle)
            if phase = 0 then w1Tmpfilelog
          releaseInterface drv : M σ Unit).run s') ∧
        ((¬ ∃ n, s'.hasValid n) → (readPass drv secs).run s = (releaseInterface drv).run s') := by
  refine ⟨fun w hnamed => ⟨separate_of_countsFor hnamed, ?_⟩, ?_, ?_⟩
  · intro hsep d hlabels hclear σ drv n s s' r hd h
    have hfinds : d.finds = w.finds := finds_congr hlabels
    have hsep' : d.Separate stype := (separate_congr hfinds stype).mpr hsep
    exact counts_of_separate (fits_readSensors stype hsep') hclear hd h
  · intro d hsep hclear σ drv n rtry s s' r hd h
    exact counts_of_separate (fits_readRetrying hsep rtry) hclear hd h
  · intro σ drv secs nv s s' hstart hready h
    have hcount : nv ≠ 0 ↔ ∃ n, s'.hasValid n := by
      by_cases hread : s.w1.doread = true
      · exact w1ReadAllSensors_counts hread hready h
      · have hnone := hstart.resolve_left hread
        rw [w1ReadAllSensors, run_getW1_bind, if_neg hread] at h
        obtain ⟨rfl, rfl⟩ := run_pure_ok.mp h
        simp [hnone]
    refine ⟨hcount, fun hvalid => ?_, fun hnone => ?_⟩
    · rw [readPass, StateT.run_bind, h]
      change StateT.run (if nv ≠ 0 then _ else _ : M σ Unit) s' = _
      rw [if_pos (hcount.mpr hvalid)]
    · have hnv : ¬ nv ≠ 0 := fun hne => hnone (hcount.mp hne)
      rw [readPass, StateT.run_bind, h]
      change StateT.run (if nv ≠ 0 then _ else _ : M σ Unit) s' = _
      rw [if_neg hnv]

/-- A converter with one sensor for each of two inputs. -/
def tankLevels : Device where
  stype := .ds2450
  s := [{ abbrv := some "ADA".toList, name := some "Level".toList, flags := w1Rmax, rmax := 5 },
    { abbrv := some "ADB".toList, name := some "Inflow".toList }]
  ns := 2
  init := 1

/-- The machine with this device alone. -/
def Device.alone (d : Device) : Machine Unit :=
  { w1 := { devs := [d], doread := true, portnum := 1 }, bus := () }

/-- The converter counts right, and a pass that counts leaves one of its sensors valid. -/
theorem success_count_tankLevels : CountsFor .ds2450 tankLevels ∧
    ∃ nv s', (w1ReadAllSensors (Driver.meter fun _ => 10) 0).run tankLevels.alone = .ok (nv, s') ∧
      nv = 1 ∧ ∃ n, s'.hasValid n := by
  obtain ⟨hcounts, -, hpass⟩ := success_count_iff .ds2450
  have hsep : tankLevels.Separate .ds2450 :=
    show (tankLevels.lookups .ds2450).Nodup by decide +kernel
  refine ⟨(hcounts tankLevels (by decide)).mpr hsep, ?_⟩
  obtain ⟨nv, s', h, hnv⟩ := exists_result_ok
    (m := w1ReadAllSensors (Driver.meter fun _ => 10) 0) (s := tankLevels.alone)
    (p := fun r => r.1 = 1) (by decide +kernel)
  have hready : ∀ n < tankLevels.alone.w1.devs.length, Ready tankLevels.alone n := by
    intro n hn
    obtain rfl : n = 0 := Nat.lt_one_iff.mp hn
    exact ⟨tankLevels, rfl, by simp [Device.Spare, tankLevels], hsep⟩
  have hone : nv = 1 := hnv
  exact ⟨nv, s', h, hone, (hpass Unit _ 0 nv _ s' (Or.inl rfl) hready h).1.mp (by omega)⟩

/-- A humidity device with a channel on a third sensor; 90 % is the limit. -/
def greenhouseAir : Device where
  stype := .hih
  s := [{ abbrv := some "GHT".toList, name := some "Temp".toList },
    { abbrv := some "GHH".toList, name := some "Humidity".toList, flags := w1Rmax, rmax := 90 },
    { abbrv := some "GHV".toList, name := some "vdd".toList }]
  ns := 3
  init := 1

/-- A converter with one sensor that both of the first two inputs find. -/
def tankLevel : Device where
  stype := .ds2450
  s := [{ abbrv := some "ADA".toList, name := some "ADB".toList, flags := w1Rmax, rmax := 5 }]
  ns := 1
  init := 1

theorem hasValid_eq {σ : Type} {s : Machine σ} {n : ℕ} :
    s.hasValid n ↔ (s.w1.devs[n]?).any Device.anyValid = true := by
  simp [Machine.hasValid, Option.any_eq_true]

/-- A pass over each of these devices is wrong about it. -/
theorem success_count_fails :
    (∃ nv s', (w1ReadAllSensors (Driver.meter fun _ => 5) 0).run greenhouseAir.alone = .ok (nv, s') ∧
      nv = 0 ∧ s'.hasValid 0) ∧
    ∃ nv s', (w1ReadAllSensors (Driver.meter fun name => if name = "ADA" then 1 else 10) 0).run
      tankLevel.alone = .ok (nv, s') ∧ nv = 1 ∧ ¬ s'.hasValid 0 := by
  simp only [hasValid_eq]
  constructor
  · exact exists_result_ok (m := w1ReadAllSensors (Driver.meter fun _ => 5) 0)
      (p := fun r => r.1 = 0 ∧ (r.2.w1.devs[0]?).any Device.anyValid = true) (by decide +kernel)
  · exact exists_result_ok
      (m := w1ReadAllSensors (Driver.meter fun name => if name = "ADA" then 1 else 10) 0)
      (p := fun r => r.1 = 1 ∧ ¬ (r.2.w1.devs[0]?).any Device.anyValid = true) (by decide +kernel)

end W1Retap
