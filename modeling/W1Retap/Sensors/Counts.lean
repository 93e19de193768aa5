import W1Retap.Sensors.Reports

/-!
# When the count of a reader agrees with `valid`

A reader is asked to return a positive value exactly when it leaves a sensor of its device
valid. It does when the names it looks up find different sensors; `w1_read_hih`, which
returns the verdict on the humidity alone, needs more. Then the retry loop stops, and a read
pass counts something, exactly when a sensor is valid.
-/
namespace W1Retap

open Programs Tally

/-- `valid` of some sensor in use -/
def Device.anyValid (d : Device) : Bool := (d.s.take d.ns).any (·.valid)

/-- Allocated slots that are not in use have no abbreviation and are not valid. -/
def Device.Spare (d : Device) : Prop := ∀ x ∈ d.s.drop d.ns, x.abbrv = none ∧ x.valid = false

/-- The sensors that a reader finds by name, in the order of its text. -/
def Device.lookups (d : Device) : W1Type → List ℕ
  | .ds2438v => d.found ds2438Names
  | .bray | .hbbaro => d.found (ds2438Names ++ ["Pres"])
  | .humid => d.found (ds2438Names ++ ["Humidity"])
  | .msTc => d.found (ds2438Names ++ ["current"])
  | .ds2450 => d.found ["ADA", "ADB", "ADC", "ADD"]
  | .ds2760 => d.found ["Temp", "Current", "Volt", "Accumulator"]
  | .sht11 | .ds1923 | .hbht => d.found ["Temp", "Humidity"]
  | .hbuv => (d.finds "Temp").toList ++ d.findsUv.toList
  | .pres => d.found ["Temp", "Pres"]
  | _ => []

/-- For `w1_read_hih`: where the channels and the humidity may be, so that clearing the first
two sensors fits the verdict on the humidity. -/
def HihFits (channels : List ℕ) : Option ℕ → Prop
  | none => (∀ j ∈ channels, j = 0) ∨ ∀ j ∈ channels, j = 1
  | some h =>
    if h < 2 then channels.Sublist [1 - h]
    else (∀ j ∈ channels, j ≠ h → j = 0) ∨ ∀ j ∈ channels, j ≠ h → j = 1

/-- The reader of this type finds different sensors. -/
def Device.Separate (d : Device) : W1Type → Prop
  | .hih => HihFits (d.found ds2438Names) (d.finds "Humidity")
  | t => (d.lookups t).Nodup

instance (channels : List ℕ) (humidity : Option ℕ) : Decidable (HihFits channels humidity) := by
  unfold HihFits
  split <;> infer_instance

/-! ## The marks of `w1_read_hih` -/

section
variable {w : Device} {ms : List SensorMark} {j : ℕ}

/-- Without both of the first two sensors neither is shown. -/
theorem shows_unlessBoth : shows j (ms ++ unlessBoth ms) = true ↔
    shows j ms = true ∧ (2 ≤ j ∨ shows 0 ms = true ∧ shows 1 ms = true) := by
  by_cases hboth : (shows 0 ms && shows 1 ms) = true
  · rw [unlessBoth, if_pos hboth, List.append_nil]
    simp [by simpa using hboth]
  · have hsplit : ms ++ unlessBoth ms = ms ++ [⟨1, none, false⟩] ++ [⟨0, none, false⟩] := by
      rw [unlessBoth, if_neg hboth]
      simp
    have hnot : ¬ (shows 0 ms = true ∧ shows 1 ms = true) := by simpa using hboth
    rw [hsplit, shows_snoc, shows_snoc]
    by_cases h₀ : 0 = j
    · subst h₀
      simp [hnot]
    · by_cases h₁ : 1 = j
      · subst h₁
        simp [hnot]
      · have hj : 2 ≤ j := by omega
        simp [h₀, h₁, hj]

/-- A key that shows a good mark was marked. -/
theorem mem_keys_of_shows (h : shows j ms = true) : j ∈ ms.map Mark.key := by
  obtain ⟨m, hm, -⟩ := shows_iff.mp h
  obtain ⟨hmem, hkey⟩ := last_mem hm
  exact List.mem_map.mpr ⟨m, hmem, hkey⟩

theorem not_shows_of_count (h : count ms = 0) : shows j ms = false := by
  by_contra hshow
  obtain ⟨m, hm, hok⟩ := shows_iff.mp (by simpa using hshow)
  have hpos : 0 < count ms := count_pos.mpr ⟨m, (last_mem hm).1, hok⟩
  omega

/-- After the channels the humidity is marked once. -/
theorem HihRead.cases {r : Int} (h : HihRead w r ms) :
    ∃ cs hs, ms = cs ++ hs ++ unlessBoth (cs ++ hs) ∧ (cs.map Mark.key).Sublist (w.found ds2438Names) ∧
      (count cs = 0 ∧ hs = [] ∧ r = 0 ∨ 0 < count cs ∧ w.finds "Humidity" = none ∧ hs = [] ∧ r = 0 ∨
        0 < count cs ∧ ∃ m, w.finds "Humidity" = some m.key ∧ hs = [m] ∧ (0 < r ↔ m.ok = true)) := by
  obtain ⟨cs, hs, rfl, hkeys, hr, hzero, hpos⟩ := h
  refine ⟨cs, hs, rfl, hkeys, ?_⟩
  rcases Nat.eq_zero_or_pos (count cs) with hc | hc
  · obtain rfl := hzero hc
    exact Or.inl ⟨hc, rfl, hr⟩
  · have hhs := hpos hc
    cases hf : w.finds "Humidity" with
    | none =>
      rw [hf, Option.toList_none, List.map_eq_nil_iff] at hhs
      subst hhs
      exact Or.inr (Or.inl ⟨hc, rfl, rfl, hr⟩)
    | some k =>
      rw [hf, Option.toList_some] at hhs
      obtain ⟨m, rfl, rfl⟩ := List.map_eq_singleton_iff.mp hhs
      refine Or.inr (Or.inr ⟨hc, m, rfl, rfl, ?_⟩)
      rw [hr, count_singleton]
      by_cases hok : m.ok = true <;> simp [hok]

/-- When only sensor `i`, one of the first two, and sensors from `h` on may be shown, the
first two are cleared. -/
theorem shows_cleared {i h : ℕ} (hi : i < 2) (hh : 2 ≤ h)
    (hall : ∀ k, shows k ms = true → k ≠ h → k = i) :
    shows j (ms ++ unlessBoth ms) = true ↔ j = h ∧ shows h ms = true := by
  have hnot : ¬ (shows 0 ms = true ∧ shows 1 ms = true) := by
    rintro ⟨h0, h1⟩
    have := hall 0 h0 (by omega)
    have := hall 1 h1 (by omega)
    omega
  rw [shows_unlessBoth, or_iff_left hnot]
  constructor
  · rintro ⟨hj, h2⟩
    have hjh : j = h := by
      by_contra hne
      have := hall j hj hne
      omega
    exact ⟨hjh, hjh ▸ hj⟩
  · rintro ⟨rfl, hj⟩
    exact ⟨hj, hh⟩

/-- The first two sensors have one mark each, and the first mark is good. -/
theorem shows_pair {c m : SensorMark} (hkeys : c.key + m.key = 1) (hc : c.ok = true) :
    (∃ j, shows j ([c] ++ [m] ++ unlessBoth ([c] ++ [m])) = true) ↔ m.ok = true := by
  have hne : m.key ≠ c.key := by omega
  have hself : shows m.key ([c] ++ [m]) = m.ok := by rw [shows_snoc, if_pos rfl]
  have hother : shows c.key ([c] ++ [m]) = true := by
    rw [shows_snoc, if_neg hne, ← List.nil_append [c], shows_snoc, if_pos rfl, hc]
  have hboth : (shows 0 ([c] ++ [m]) = true ∧ shows 1 ([c] ++ [m]) = true) ↔ m.ok = true := by
    have hcases : m.key = 0 ∧ c.key = 1 ∨ m.key = 1 ∧ c.key = 0 := by omega
    rcases hcases with ⟨hm, hk⟩ | ⟨hm, hk⟩
    · rw [hm] at hself
      rw [hk] at hother
      rw [hself, hother, and_iff_left rfl]
    · rw [hm] at hself
      rw [hk] at hother
      rw [hself, hother, and_iff_right rfl]
  simp only [shows_unlessBoth, hboth]
  constructor
  · rintro ⟨j, hj, h2 | hok⟩
    · have hmem := mem_keys_of_shows hj
      simp only [List.map_cons, List.map_nil, List.cons_append, List.nil_append,
        List.mem_cons, List.not_mem_nil, or_false] at hmem
      omega
    · exact hok
  · intro hok
    exact ⟨m.key, hself.trans hok, Or.inr hok⟩

theorem hih_agrees {r : Int} (h : HihRead w r ms)
    (hfits : HihFits (w.found ds2438Names) (w.finds "Humidity")) :
    0 < r ↔ ∃ j, shows j ms = true := by
  obtain ⟨cs, hs, rfl, hkeys, hcases⟩ := h.cases
  have hmem : ∀ k, shows k cs = true → k ∈ w.found ds2438Names :=
    fun k hk => hkeys.subset (mem_keys_of_shows hk)
  rcases hcases with ⟨hc, rfl, rfl⟩ | ⟨-, hnone, rfl, rfl⟩ | ⟨hc, m, hsome, rfl, hr⟩
  · -- no channel was accepted
    simp [shows_unlessBoth, not_shows_of_count hc]
  · -- without a humidity sensor at most one of the first two is marked
    have hcleared : ∃ i, i < 2 ∧ ∀ k, shows k cs = true → k = i := by
      rw [hnone] at hfits
      rcases hfits with hall | hall
      · exact ⟨0, by decide, fun k hk => hall k (hmem k hk)⟩
      · exact ⟨1, by decide, fun k hk => hall k (hmem k hk)⟩
    obtain ⟨i, hi, hall⟩ := hcleared
    rw [List.append_nil, lt_self_iff_false, false_iff]
    rintro ⟨k, hk⟩
    rw [shows_cleared hi le_rfl fun k hk _ => hall k hk] at hk
    have := hall 2 hk.2
    omega
  · rw [hsome] at hfits
    rw [hr]
    by_cases hlt : m.key < 2
    · -- the channels have the other of the first two sensors, and it was accepted
      simp only [HihFits, if_pos hlt] at hfits
      rcases List.sublist_singleton.mp (hkeys.trans hfits) with hnil | hone
      · rw [List.map_eq_nil_iff] at hnil
        simp [hnil] at hc
      · obtain ⟨c, rfl, hkey⟩ := List.map_eq_singleton_iff.mp hone
        obtain ⟨c', hc', hok⟩ := count_pos.mp hc
        rw [List.mem_singleton] at hc'
        subst hc'
        exact (shows_pair (by omega) hok).symm
    · -- the humidity is beyond the first two sensors, which are cleared
      have hcleared : ∃ i, i < 2 ∧ ∀ k, k ∈ w.found ds2438Names → k ≠ m.key → k = i := by
        simp only [HihFits, if_neg hlt] at hfits
        rcases hfits with hall | hall
        · exact ⟨0, by decide, hall⟩
        · exact ⟨1, by decide, hall⟩
      obtain ⟨i, hi, hall⟩ := hcleared
      have hrest : ∀ k, shows k (cs ++ [m]) = true → k ≠ m.key → k = i := by
        intro k hk hne
        rw [shows_snoc, if_neg (Ne.symm hne)] at hk
        exact hall k (hmem k hk) hne
      simp only [shows_cleared hi (by omega) hrest, shows_snoc, if_true, exists_eq_left]

end

/-! ## One attempt -/

section
variable {σ : Type} {drv : Driver σ} {V : Judge} {w : Device} {n : ℕ} {ms : List SensorMark}
variable {s s' : Machine σ}

/-- The value tells whether a sensor is shown valid. -/
def Fits (r : Int) (ms : List SensorMark) : Prop := 0 < r ↔ ∃ j, shows j ms = true

theorem Reports.fits {m : M σ Int} {js : List ℕ} (h : Reports V w n m js) (hjs : js.Nodup) :
    Tracks (Tallied V w n) [] m Fits := by
  refine h.conseq fun r ms hr => ?_
  obtain ⟨k, rfl, new, hms, hkeys, rfl⟩ := hr
  rw [List.nil_append] at hms
  subst hms
  rw [Fits, Int.natCast_pos]
  exact count_pos_iff (steady_of_nodup (hjs.sublist hkeys))

/-- Every reader, by its type. -/
theorem fits_readSensors (stype : W1Type) (hsep : w.Separate stype) :
    Tracks (Tallied V w n) [] (readSensors drv n stype) Fits := by
  have hidle : Tracks (Tallied V w n) [] (pure (-1) : M σ Int) Fits :=
    .pure (by simp [Fits])
  cases stype with
  | invalid => exact hidle
  | coupler => exact hidle
  | temp => exact Reports.fits (reports_w1ReadTemp drv) (by simp)
  | counter => exact Reports.fits (reports_w1ReadCounter drv) (by simp)
  | windvane => exact Reports.fits (reports_w1ReadWindvane drv) (by simp)
  | pres => exact Reports.fits (reports_w1ReadPressure drv) hsep
  | bray => exact Reports.fits (reports_w1ReadBray drv) hsep
  | hbbaro => exact Reports.fits (reports_w1ReadHbPressure drv) hsep
  | sht11 => exact Reports.fits (reports_w1ReadSht11 drv) hsep
  | ds2438v => exact Reports.fits (reports_ds2438v drv) hsep
  | ds2760 => exact Reports.fits (reports_w1ReadDs2760 drv) hsep
  | ds2450 => exact Reports.fits (reports_w1ReadDs2450 drv) hsep
  | msTc => exact Reports.fits (reports_w1ReadCurrent drv) hsep
  | ds1923 => exact Reports.fits (reports_w1ReadDs1923 drv) hsep
  | hbuv => exact Reports.fits (reports_w1ReadHbuv drv) hsep
  | hbht => exact Reports.fits (reports_w1ReadHbht drv) hsep
  | ds1921 =>
    refine Reports.fits (reports_w1ReadDs1921 drv) ?_
    rw [Device.found, List.flatMap_singleton]
    cases w.finds "Temp" <;> simp
  | humid =>
    refine (tracks_w1ReadHumidity drv).conseq fun r ms hr => ?_
    rw [Fits, hr.1, Int.natCast_pos]
    exact count_pos_iff (hr.2 hsep)
  | hih =>
    refine (tracks_w1ReadHih drv).conseq fun r ms hr => ?_
    rcases hr with ⟨rfl, rfl⟩ | hr
    · simp [Fits]
    · exact hih_agrees hr hsep

/-! ## From marks to sensors -/

/-- The sensors that are not in use have no abbreviation, so they are never accepted. -/
def inUse (w : Device) : Judge where
  law j x := x.abbrv.isSome → j < w.ns
  ok j _ b := b = true → j < w.ns
  memory j x x' h hmem := by
    have habbrv : x'.abbrv = x.abbrv := congrArg (fun m => m.1.1) hmem
    rw [habbrv]
    exact h
  judges j t x x' h hx' := by
    have hlabel : x'.abbrv = x.abbrv := congrArg Prod.fst (w1Validate_label hx')
    refine ⟨by rwa [hlabel], fun hvalid => h ?_⟩
    by_contra hnone
    have habbrv : x.abbrv = none := by simpa using hnone
    simp only [w1Validate, checkSeq, habbrv] at hx'
    split at hx'
    · exact nomatch hx'
    · rename_i hreason
      obtain rfl := Except.ok.inj hx'
      simp [Sensor.conclude, hreason] at hvalid

/-- Device `n` has a valid sensor. -/
def Machine.hasValid (s : Machine σ) (n : ℕ) : Prop :=
  ∃ d, s.w1.devs[n]? = some d ∧ d.anyValid = true

theorem Device.anyValid_iff {d : Device} :
    d.anyValid = true ↔ ∃ j x, j < d.ns ∧ d.s[j]? = some x ∧ x.valid = true := by
  simp only [anyValid, List.any_eq_true, List.mem_iff_getElem?, List.getElem?_take]
  constructor
  · rintro ⟨x, ⟨j, hx⟩, hvalid⟩
    by_cases hj : j < d.ns
    · rw [if_pos hj] at hx
      exact ⟨j, x, hj, hx, hvalid⟩
    · rw [if_neg hj] at hx
      exact nomatch hx
  · rintro ⟨j, x, hj, hx, hvalid⟩
    exact ⟨x, ⟨j, by rw [if_pos hj, hx]⟩, hvalid⟩

theorem SetUp.dev (h : SetUp w n s) :
    ∃ d, s.w1.devs[n]? = some d ∧ d.ns = w.ns ∧ ∀ j, s.slot? n j = d.s[j]? := by
  obtain ⟨d, hd, hw⟩ := h
  simp only [Device.setup, Prod.mk.injEq] at hw
  exact ⟨d, hd, hw.2.2.1, fun j => by rw [Machine.slot?, hd, Option.bind_some]⟩

theorem Tallied.shows_of_hasValid (h : Tallied V w n ms s) (hs : s.hasValid n) :
    ∃ j, shows j ms = true := by
  obtain ⟨d, hd, -, hslot⟩ := h.setUp.dev
  obtain ⟨d', hd', hvalid⟩ := hs
  obtain rfl := Option.some.inj (hd.symm.trans hd')
  obtain ⟨j, x, -, hx, hv⟩ := Device.anyValid_iff.mp hvalid
  exact ⟨j, (h.shown j x ((hslot j).trans hx)).mp hv⟩

theorem Tallied.hasValid_of_shows (h : Tallied V w n ms s) {j : ℕ} (hj : j < w.ns)
    (hshow : shows j ms = true) : s.hasValid n := by
  obtain ⟨d, hd, hns, hslot⟩ := h.setUp.dev
  have hlt : j < d.ns := hns ▸ hj
  have hx := List.getElem?_eq_getElem (hlt.trans_le d.ns_le)
  have hv := (h.shown j _ ((hslot j).trans hx)).mpr hshow
  exact ⟨d, hd, Device.anyValid_iff.mpr ⟨j, _, hlt, hx, hv⟩⟩

theorem Tallied.hasValid_iff (h : Tallied (inUse w) w n ms s) :
    s.hasValid n ↔ ∃ j, shows j ms = true := by
  refine ⟨h.shows_of_hasValid, ?_⟩
  rintro ⟨j, hj⟩
  obtain ⟨m, hm, hok⟩ := shows_iff.mp hj
  obtain ⟨hmem, rfl⟩ := last_mem hm
  have hfit := h.lawful.fits m hmem
  unfold Judge.Fits at hfit
  split at hfit
  · exact h.hasValid_of_shows (hfit hok) hj
  · rw [hok] at hfit
    exact nomatch hfit

/-- A device without valid sensors has no marks. -/
theorem tallied_start (hd : s.w1.devs[n]? = some w) (hlaw : ∀ j x, w.s[j]? = some x → V.law j x)
    (hvalid : ∀ x ∈ w.s, x.valid = false) : Tallied V w n [] s := by
  have hslot : ∀ j x, s.slot? n j = some x → w.s[j]? = some x :=
    fun j x hx => by rwa [Machine.slot?, hd, Option.bind_some] at hx
  refine ⟨⟨w, hd, rfl⟩, fun j x hx => hlaw j x (hslot j x hx), .nil, ?_, ?_⟩
  · intro j x hx
    simp [hvalid x (List.mem_iff_getElem?.mpr ⟨j, hslot j x hx⟩)]
  · intro j x v _ hlast
    cases hlast

theorem tallied_inUse (hd : s.w1.devs[n]? = some w) (hspare : w.Spare) (hnone : w.anyValid = false) :
    Tallied (inUse w) w n [] s := by
  apply tallied_start hd
  · intro j x hx habbrv
    by_contra hj
    have hmem : x ∈ w.s.drop w.ns := by
      refine List.mem_iff_getElem?.mpr ⟨j - w.ns, ?_⟩
      rw [List.getElem?_drop, show w.ns + (j - w.ns) = j by omega, hx]
    rw [(hspare x hmem).1] at habbrv
    exact nomatch habbrv
  · intro x hx
    rw [← List.take_append_drop w.ns w.s] at hx
    rcases List.mem_append.mp hx with hx | hx
    · simpa using List.any_eq_false.mp hnone x hx
    · exact (hspare x hx).2

/-- When nothing is shown the marks may be forgotten. -/
theorem Tallied.forget (h : Tallied V w n ms s) (hnone : ¬ ∃ j, shows j ms = true) :
    Tallied V w n [] s := by
  refine ⟨h.setUp, h.law, .nil, ?_, ?_⟩
  · intro j x hx
    rw [h.shown j x hx, shows_nil]
    exact iff_of_false (fun hj => hnone ⟨j, hj⟩) (by simp)
  · intro j x v _ hlast
    exact nomatch hlast

/-! ## All attempts -/

theorem fits_readRetrying {stype : W1Type} (hsep : w.Separate stype) (rtry : ℕ) :
    Tracks (Tallied V w n) [] (readRetrying drv n stype rtry) Fits := by
  induction rtry with
  | zero => exact .pure (by simp [Fits])
  | succ rtry ih =>
    refine .bind (fits_readSensors stype hsep) fun r ms hr => .ite (fun _ => .pure hr) fun hzero => ?_
    have hnone : ¬ ∃ j, shows j ms = true := by
      rw [← show 0 < r ↔ _ from hr]
      have : r = 0 := by simpa using hzero
      omega
    -- the next attempt starts without valid sensors
    intro s r' s' hs hrun
    have hrest : Tracks (Tallied V w n) [] (do w1Replog; readRetrying drv n stype rtry) Fits :=
      .bind_keep tracks_w1Replog fun _ _ => ih
    exact hrest s r' s' (hs.forget hnone) hrun

/-! ## The read pass -/

/-- The type and the sensors of the devices but `n` are the same. -/
def OthersKept (n : ℕ) (s s' : Machine σ) : Prop :=
  ∀ m, m ≠ n → (s'.w1.devs[m]?).map Device.kept = (s.w1.devs[m]?).map Device.kept

theorem OthersKept.modifyDev_self (s : Machine σ) (n : ℕ) (f : Device → Device) :
    OthersKept n s (s.modifyDev n f) := by
  intro m hm
  rw [Machine.modifyDev_getElem?, if_neg (Ne.symm hm)]

instance : AnyBus (OthersKept (σ := σ) n) := ⟨fun _ _ _ _ => rfl⟩

instance : PortSteps (OthersKept (σ := σ) n) := ⟨fun _ _ _ _ => rfl⟩

instance : BusSteps (OthersKept (σ := σ) n) where
  wire _ _ _ _ _ := rfl
  touch s m f hf k _ := by
    rw [Machine.modifyDev_getElem?]
    by_cases hk : m = k
    · rw [if_pos hk]
      cases s.w1.devs[k]? with
      | none => rfl
      | some d => exact congrArg some (hf d)
    · rw [if_neg hk]
  replog := does_reports fun _ _ _ _ _ => rfl

instance : ReaderSteps n (OthersKept (σ := σ) n) where
  clear s := .modifyDev_self s n _
  assign s _ _ _ := .modifyDev_self s n _
  validate s _ _ _ _ _ _ _ m hm := by
    rw [Machine.log_w1, Machine.modifyDev_getElem?, Machine.modifyDev_getElem?, if_neg (Ne.symm hm),
      if_neg (Ne.symm hm)]

/-- What a chain of such steps leaves of a device. -/
theorem OthersKept.of_does {α : Type} {m : M σ α} {a : α} (hm : Does (OthersKept n) m)
    (h : m.run s = .ok (a, s')) : OthersKept n s s' := by
  refine hm.keeps (P := fun t => OthersKept n s t) ?_ h fun _ _ => rfl
  intro t t' hstep ht k hk
  exact (hstep k hk).trans (ht k hk)

/-- Device `m` exists, its reader finds different sensors, and its spare slots are empty. -/
def Ready (s : Machine σ) (m : ℕ) : Prop :=
  ∃ d, s.w1.devs[m]? = some d ∧ d.Spare ∧ d.Separate d.stype

/-- Only what the names find matters. -/
theorem separate_congr {d d' : Device} (hfinds : d'.finds = d.finds) (stype : W1Type) :
    d'.Separate stype ↔ d.Separate stype := by
  cases stype <;>
    simp only [Device.Separate, Device.lookups, Device.found, Device.findsUv, hfinds]

theorem kept_cases {m : ℕ}
    (h : (s'.w1.devs[m]?).map Device.kept = (s.w1.devs[m]?).map Device.kept) {d : Device}
    (hd : s.w1.devs[m]? = some d) :
    ∃ d', s'.w1.devs[m]? = some d' ∧ d'.stype = d.stype ∧ d'.ns = d.ns ∧ d'.s = d.s := by
  rw [hd, Option.map_some] at h
  obtain ⟨d', hd', hk⟩ := Option.map_eq_some_iff.mp h
  simp only [Device.kept, Device.sensors, Prod.mk.injEq] at hk
  exact ⟨d', hd', hk.1, hk.2.1, hk.2.2.2⟩

theorem Ready.of_kept {m : ℕ} (h : Ready s m)
    (hk : (s'.w1.devs[m]?).map Device.kept = (s.w1.devs[m]?).map Device.kept) : Ready s' m := by
  obtain ⟨d, hd, hspare, hsep⟩ := h
  obtain ⟨d', hd', hstype, hns, hs⟩ := kept_cases hk hd
  refine ⟨d', hd', ?_, ?_⟩
  · rw [Device.Spare, hns, hs]
    exact hspare
  · have hfinds : d'.finds = d.finds := by
      funext name
      rw [Device.finds, Device.finds, w1MatchSensor, w1MatchSensor, hns, hs]
    rw [hstype, separate_congr hfinds]
    exact hsep

theorem hasValid_of_kept {m : ℕ}
    (hk : (s'.w1.devs[m]?).map Device.kept = (s.w1.devs[m]?).map Device.kept) (h : s.hasValid m) :
    s'.hasValid m := by
  obtain ⟨d, hd, hvalid⟩ := h
  obtain ⟨d', hd', -, hns, hs⟩ := kept_cases hk hd
  refine ⟨d', hd', ?_⟩
  rw [Device.anyValid, hns, hs]
  exact hvalid

/-- One device of the pass counts when one of its sensors is valid. -/
theorem readDevice_counts {secs r : Int} (hready : Ready s n)
    (h : (readDevice drv secs n).run s = .ok (r, s')) : 0 ≤ r ∧ (0 < r ↔ s'.hasValid n) := by
  obtain ⟨d, hd, hspare, hsep⟩ := hready
  rw [readDevice, run_bind_ok] at h
  obtain ⟨_, s₁, h₁, h⟩ := h
  obtain rfl := run_modifyDev_ok.mp h₁
  have hd₁ : (s.modifyDev n Device.setInvalid).w1.devs[n]? = some d.setInvalid := by
    rw [Machine.modifyDev_getElem?, if_pos rfl, hd, Option.map_some]
  have hspare₁ : d.setInvalid.Spare := by
    have hle := d.ns_le
    have hdrop : d.setInvalid.s.drop d.setInvalid.ns = d.s.drop d.ns := by
      rw [Device.setInvalid_ns, Device.setInvalid, List.drop_append_of_le_length (by simp; omega),
        List.drop_eq_nil_of_le (by simp), List.nil_append]
    rw [Device.Spare, hdrop]
    exact hspare
  have hnone : d.setInvalid.anyValid = false := by
    by_contra hany
    obtain ⟨j, x, hj, hx, hv⟩ := Device.anyValid_iff.mp (by simpa using hany)
    rw [Device.setInvalid_getElem?, if_pos (show j < d.ns from hj)] at hx
    obtain ⟨y, -, rfl⟩ := Option.map_eq_some_iff.mp hx
    cases hv
  have hstart := tallied_inUse hd₁ hspare₁ hnone
  rw [run_dev_bind hd₁] at h
  by_cases hdue : d.setInvalid.due secs = true
  · rw [if_pos hdue, run_event_bind, run_bind_ok] at h
    obtain ⟨r', s₂, h₂, h⟩ := h
    obtain ⟨rfl, rfl⟩ := run_pure_ok.mp h
    have hsep₁ : d.setInvalid.Separate d.setInvalid.stype := by
      have hfinds : d.setInvalid.finds = d.finds := by
        funext name
        rw [Device.finds, Device.finds, w1MatchSensor_setup (setup_setInvalid d)]
      rw [Device.setInvalid_stype, separate_congr hfinds]
      exact hsep
    have hlog : Tallied (inUse d.setInvalid) d.setInvalid n []
        ((s.modifyDev n Device.setInvalid).log (.read n secs)) :=
      hstart.of_sameSlots ⟨fun _ => rfl, rfl⟩ hstart.setUp
    obtain ⟨ms, hms, hfits⟩ := fits_readRetrying hsep₁ w1Retry _ _ _ hlog h₂
    rw [hms.hasValid_iff, ← show 0 < r' ↔ _ from hfits]
    by_cases hr : 0 ≤ r'
    · rw [if_pos hr]
      exact ⟨hr, Iff.rfl⟩
    · rw [if_neg hr]
      exact ⟨le_rfl, by omega⟩
  · rw [if_neg hdue] at h
    obtain ⟨rfl, rfl⟩ := run_pure_ok.mp h
    rw [hstart.hasValid_iff]
    simp

theorem readDevices_counts {secs r : Int} {ns : List ℕ} (hns : ns.Nodup)
    (hready : ∀ m ∈ ns, Ready s m) (h : (readDevices drv secs ns).run s = .ok (r, s')) :
    0 ≤ r ∧ (0 < r ↔ ∃ m ∈ ns, s'.hasValid m) ∧
      ∀ m ∉ ns, (s'.w1.devs[m]?).map Device.kept = (s.w1.devs[m]?).map Device.kept := by
  induction ns generalizing s r with
  | nil =>
    obtain ⟨rfl, rfl⟩ := run_pure_ok.mp h
    simp
  | cons n ns ih =>
    rw [readDevices, run_bind_ok] at h
    obtain ⟨r₁, s₁, h₁, h⟩ := h
    rw [run_bind_ok] at h
    obtain ⟨r₂, s₂, h₂, h⟩ := h
    obtain ⟨rfl, rfl⟩ := run_pure_ok.mp h
    obtain ⟨hn, hns⟩ := List.nodup_cons.mp hns
    have hothers : OthersKept n s s₁ := .of_does (does_readDevice fun _ _ _ => rfl) h₁
    obtain ⟨hpos₁, hvalid₁⟩ := readDevice_counts (hready n (by simp)) h₁
    have hready₁ : ∀ m ∈ ns, Ready s₁ m := fun m hm =>
      (hready m (by simp [hm])).of_kept (hothers m fun heq => hn (heq ▸ hm))
    obtain ⟨hpos₂, hvalid₂, hkept₂⟩ := ih hns hready₁ h₂
    have hfirst : s₁.hasValid n ↔ s'.hasValid n :=
      ⟨hasValid_of_kept (hkept₂ n hn), hasValid_of_kept (hkept₂ n hn).symm⟩
    refine ⟨by omega, ?_, ?_⟩
    · rw [List.exists_mem_cons_iff, ← hfirst, ← hvalid₁, ← hvalid₂]
      omega
    · intro m hm
      rw [List.mem_cons, not_or] at hm
      exact (hkept₂ m hm.2).trans (hothers m hm.1)

/-- The pass as a whole. -/
theorem w1ReadAllSensors_counts {secs nv : Int} (hread : s.w1.doread = true)
    (hready : ∀ m < s.w1.devs.length, Ready s m)
    (h : (w1ReadAllSensors drv secs).run s = .ok (nv, s')) :
    nv ≠ 0 ↔ ∃ m, s'.hasValid m := by
  rw [w1ReadAllSensors, run_getW1_bind, if_pos hread, run_event_bind, run_bind_ok] at h
  obtain ⟨_, s₁, h₁, h⟩ := h
  rw [run_bind_ok] at h
  obtain ⟨r, s₂, h₂, h⟩ := h
  rw [run_bind_ok] at h
  obtain ⟨_, s₃, h₃, h⟩ := h
  obtain ⟨rfl, rfl⟩ := run_pure_ok.mp h
  -- acquiring the interface and switching the couplers off touch no sensor
  have hacquire : ∀ m : ℕ, (s₁.w1.devs[m]?).map Device.kept = (s.w1.devs[m]?).map Device.kept := by
    intro m
    have hothers : OthersKept (m + 1) (s.log (.readAll secs)) s₁ := .of_does does_acquire h₁
    exact hothers m (by omega)
  have hoff : ∀ m : ℕ, (s'.w1.devs[m]?).map Device.kept = (s₂.w1.devs[m]?).map Device.kept := by
    intro m
    have hothers : OthersKept (m + 1) s₂ s' := .of_does (does_w1AllCouplersOff drv) h₃
    exact hothers m (by omega)
  have hready₁ : ∀ m ∈ List.range s.w1.devs.length, Ready s₁ m := fun m hm =>
    (hready m (List.mem_range.mp hm)).of_kept (hacquire m)
  obtain ⟨hpos, hvalid, hkept⟩ := readDevices_counts List.nodup_range hready₁ h₂
  have hrange : ∀ m, s₂.hasValid m → m ∈ List.range s.w1.devs.length := by
    rintro m ⟨d, hd, -⟩
    by_contra hm
    have hout : s.w1.devs[m]? = none := by simpa using hm
    have hsame := (hkept m hm).trans (hacquire m)
    rw [hd, hout] at hsame
    cases hsame
  rw [show nv ≠ 0 ↔ 0 < nv by omega, hvalid]
  constructor
  · rintro ⟨m, -, hm⟩
    exact ⟨m, hasValid_of_kept (hoff m) hm⟩
  · rintro ⟨m, hm⟩
    have hm₂ := hasValid_of_kept (hoff m).symm hm
    exact ⟨m, hrange m hm₂, hm₂⟩

end
end W1Retap
