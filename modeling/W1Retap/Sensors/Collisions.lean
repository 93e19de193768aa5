import W1Retap.Sensors.Alone
import W1Retap.Sensors.Counts

/-!
# Sensors that go by two names

When two of the names that a reader looks up find one sensor there are limits and answers
of the bus for which the count disagrees with `valid`: the sensor accepts the first value
and rejects the second, and nothing else is accepted. So the condition of
`fits_readSensors` cannot be weakened.
-/
namespace W1Retap

open Programs Tally

/-- Two names find the same. -/
theorem exists_shared {f : String → Option ℕ} {names : List String}
    (h : ¬ (names.flatMap fun name => (f name).toList).Nodup) :
    ∃ before name after c, names = before ++ name :: after ∧ f name = some c ∧
      ∃ other ∈ after, f other = some c := by
  induction names with
  | nil => exact absurd List.nodup_nil h
  | cons name names ih =>
    have hrest : (¬ (names.flatMap fun name => (f name).toList).Nodup) →
        ∃ before name' after c, name :: names = before ++ name' :: after ∧ f name' = some c ∧
          ∃ other ∈ after, f other = some c := by
      intro hnot
      obtain ⟨before, name', after, c, rfl, hc, hother⟩ := ih hnot
      exact ⟨name :: before, name', after, c, rfl, hc, hother⟩
    rw [List.flatMap_cons] at h
    cases hf : f name with
    | none =>
      rw [hf] at h
      exact hrest h
    | some c =>
      rw [hf, Option.toList_some, List.singleton_append, List.nodup_cons, not_and_or, not_not] at h
      rcases h with hmem | hnot
      · obtain ⟨other, hother, hc⟩ := List.mem_flatMap.mp hmem
        exact ⟨[], name, names, c, rfl, hf, other, hother, by simpa using hc⟩
      · exact hrest hnot

/-! ## Sensors that accept one value -/

/-- Some sensors accept the value `good` alone, the others accept nothing. -/
def exactly (good : ℚ) (accepting : ℕ → Bool) : Judge where
  law j x := x.flags = w1Rmin ||| w1Rmax ∧ x.rmin = (if accepting j then good else good + 1) ∧
    x.rmax = good ∧ x.lval ≤ good
  ok j v b := b = true ↔ accepting j = true ∧ v = good
  memory j x x' h hmem := by
    simp only [Sensor.memory, Sensor.config, Prod.mk.injEq] at hmem
    obtain ⟨⟨-, hflags, hrmin, hrmax, -⟩, hlval, -⟩ := hmem
    rw [hflags, hrmin, hrmax, hlval]
    exact h
  judges j t x x' h hx' := by
    obtain ⟨hflags, hrmin, hrmax, hlval⟩ := h
    have hhas : x.has w1Rmin = true ∧ x.has w1Rmax = true ∧ x.has w1Roc = false := by
      simp only [Sensor.has, hflags]
      decide
    have hiff : Accepts t x x.value ↔ accepting j = true ∧ x.value = good := by
      constructor
      · intro hacc
        have hlow := hacc.rmin hhas.1
        have hhigh := hacc.rmax hhas.2.1
        rw [hrmin] at hlow
        rw [hrmax] at hhigh
        by_cases hj : accepting j = true
        · rw [if_pos hj] at hlow
          exact ⟨hj, le_antisymm hhigh hlow⟩
        · rw [if_neg hj] at hlow
          linarith
      · rintro ⟨hj, hv⟩
        refine ⟨fun _ => ?_, fun _ => ?_, fun hroc => ?_, fun _ _ _ => ?_⟩
        · rw [hrmin, if_pos hj, hv]
        · rw [hrmax, hv]
        · rw [hhas.2.2] at hroc
          exact nomatch hroc
        · rw [hv]
          exact hlval
    rcases w1Validate_cases hx' with ⟨hacc, rfl⟩ | ⟨hrej, v, r, rfl⟩
    · have hv := hiff.mp hacc
      exact ⟨⟨hflags, hrmin, hrmax, hv.2.le⟩, by simp [Sensor.accept, hv]⟩
    · refine ⟨⟨hflags, hrmin, hrmax, hlval⟩, ?_⟩
      rw [← hiff]
      simp [Sensor.reject, hrej]

section
variable {good : ℚ} {accepting : ℕ → Bool} {ms : List SensorMark} {c : ℕ}

theorem exactly_fits {m : SensorMark} (h : (exactly good accepting).Fits m) :
    m.ok = true ↔ accepting m.key = true ∧ m.value = some good := by
  unfold Judge.Fits at h
  split at h
  · rename_i v hv
    rw [hv, Option.some.injEq]
    exact h
  · rename_i hv
    simp [h, hv]

theorem accepting_of_shows (hlawful : (exactly good accepting).Lawful ms) (h : shows c ms = true) :
    accepting c = true := by
  obtain ⟨m, hlast, hok⟩ := shows_iff.mp h
  obtain ⟨hmem, rfl⟩ := last_mem hlast
  exact ((exactly_fits (hlawful.fits m hmem)).mp hok).1

/-- A sensor has accepted a value, and then rejected one. -/
theorem overruled (hfits : ∀ m ∈ ms, (exactly good accepting).Fits m)
    {before after : List (ℕ × Option ℚ)}
    (hts : ms.map Mark.target = before ++ (c, some good) :: after) (hc : accepting c = true)
    (hmem : ∃ v, (c, v) ∈ after) (hbad : ∀ t ∈ after, t.2 ≠ some good) :
    0 < count ms ∧ shows c ms = false := by
  obtain ⟨pre, rest, rfl, rfl, hrest⟩ := List.map_eq_append_iff.mp hts
  obtain ⟨m, post, rfl, hm, rfl⟩ := List.map_eq_cons_iff.mp hrest
  obtain ⟨hkey, hvalue⟩ := Prod.mk.inj hm
  constructor
  · refine count_pos.mpr ⟨m, by simp, ?_⟩
    rw [exactly_fits (hfits m (by simp)), hkey]
    exact ⟨hc, hvalue⟩
  · by_contra hshow
    obtain ⟨m', hlast, hok⟩ := shows_iff.mp (by simpa using hshow)
    obtain ⟨-, hgood⟩ := (exactly_fits (hfits m' (last_mem hlast).1)).mp hok
    -- the last mark of `c` is one of the later ones
    obtain ⟨v, hv⟩ := hmem
    obtain ⟨m₀, hm₀, htarget⟩ := List.mem_map.mp hv
    have hk : m₀.key = c := congrArg Prod.fst htarget
    rw [← List.singleton_append, ← List.append_assoc, last_append ⟨m₀, hm₀, hk⟩] at hlast
    have hpost : m' ∈ post := (last_mem hlast).1
    exact hbad m'.target (List.mem_map.mpr ⟨m', hpost, rfl⟩) hgood

end

/-! ## A device with such sensors -/

/-- What the sensors in use are found by. -/
def Device.labels (d : Device) : List (Option CString × Option CString) :=
  (d.s.take d.ns).map Sensor.label

/-- Every sensor in use has an abbreviation and a name. -/
def Device.Named (d : Device) : Prop := ∀ x ∈ d.s.take d.ns, x.abbrv.isSome ∧ x.name.isSome

instance (d : Device) : Decidable d.Named :=
  inferInstanceAs (Decidable (∀ x ∈ d.s.take d.ns, x.abbrv.isSome ∧ x.name.isSome))

/-- A sensor that accepts `good`, or nothing. -/
def Sensor.limited (good : ℚ) (accepts : Bool) (label : Option CString × Option CString) : Sensor where
  abbrv := label.1
  name := label.2
  flags := w1Rmin ||| w1Rmax
  rmin := if accepts then good else good + 1
  rmax := good

/-- The slots in use and two spare ones. -/
def Device.slots (w : Device) : List (Option CString × Option CString) :=
  w.labels ++ [(none, none), (none, none)]

theorem labels_length {w : Device} : w.labels.length = w.ns := by
  have := w.ns_le
  simp only [Device.labels, List.length_map, List.length_take]
  omega

/-- An initialised device with the names of `w` and limits of this kind. -/
def Device.trial (w : Device) (good : ℚ) (accepting : ℕ → Bool) : Device where
  s := w.slots.mapIdx fun j => Sensor.limited good (accepting j)
  ns := w.ns
  ns_le := by simp [Device.slots, labels_length]
  init := 2

section
variable {w : Device} {good : ℚ} {accepting : ℕ → Bool} {j : ℕ} {x : Sensor}

theorem trial_getElem? (h : (w.trial good accepting).s[j]? = some x) :
    ∃ label, w.slots[j]? = some label ∧ x = Sensor.limited good (accepting j) label := by
  rw [Device.trial, List.getElem?_mapIdx] at h
  obtain ⟨label, hl, rfl⟩ := Option.map_eq_some_iff.mp h
  exact ⟨label, hl, rfl⟩

theorem trial_slots : (w.trial good accepting).s.map Sensor.label = w.slots := by
  apply List.ext_getElem?
  intro j
  rw [List.getElem?_map, Device.trial, List.getElem?_mapIdx]
  cases w.slots[j]? <;> rfl

theorem trial_labels : (w.trial good accepting).labels = w.labels := by
  rw [Device.labels, List.map_take, trial_slots, Device.slots]
  exact List.take_left' labels_length

theorem finds_congr {d : Device} (h : d.labels = w.labels) : d.finds = w.finds := by
  funext name
  have hmatch : w1MatchSensor d name.toList = w1MatchSensor w name.toList := matchFrom_labels h
  rw [Device.finds, Device.finds, hmatch]

theorem trial_valid (hx : x ∈ (w.trial good accepting).s) : x.valid = false := by
  obtain ⟨j, hj⟩ := List.mem_iff_getElem?.mp hx
  obtain ⟨label, -, rfl⟩ := trial_getElem? hj
  rfl

theorem trial_spare : (w.trial good accepting).Spare := by
  intro x hx
  refine ⟨?_, trial_valid (List.mem_of_mem_drop hx)⟩
  obtain ⟨j, hj⟩ := List.mem_iff_getElem?.mp hx
  rw [List.getElem?_drop] at hj
  obtain ⟨label, hl, rfl⟩ := trial_getElem? hj
  rw [Device.slots, List.getElem?_append_right (by rw [labels_length]; exact Nat.le_add_right _ _)] at hl
  have hmem := List.mem_of_getElem? hl
  have hlabel : label = (none, none) := by simpa using hmem
  rw [hlabel]
  rfl

theorem trial_anyValid : (w.trial good accepting).anyValid = false := by
  rw [Device.anyValid, List.any_eq_false]
  intro x hx
  simp [trial_valid (List.mem_of_mem_take hx)]

theorem trial_named (h : w.Named) : (w.trial good accepting).Named := by
  intro x hx
  have hmem : x.label ∈ w.labels := by
    have hlabels : (w.trial good accepting).labels = w.labels := trial_labels
    rw [← hlabels]
    exact List.mem_map.mpr ⟨x, hx, rfl⟩
  obtain ⟨y, hy, hlabel⟩ := List.mem_map.mp hmem
  obtain ⟨habbrv, hname⟩ := Prod.mk.inj hlabel
  rw [← habbrv, ← hname]
  exact h y hy

theorem trial_law (hgood : 0 ≤ good) (hx : (w.trial good accepting).s[j]? = some x) :
    (exactly good accepting).law j x := by
  obtain ⟨label, -, rfl⟩ := trial_getElem? hx
  exact ⟨rfl, rfl, rfl, hgood⟩

/-! ## Runs on a bus where the device is found -/

/-- Among named sensors a search ends, and finds one with an abbreviation. -/
theorem matchFrom_named (name : CString) (i : ℕ) {xs : List Sensor}
    (h : ∀ x ∈ xs, x.abbrv.isSome ∧ x.name.isSome) :
    ∃ r, matchFrom name xs i = .ok r ∧ ∀ j, r = some j → i ≤ j ∧ j < i + xs.length := by
  induction xs generalizing i with
  | nil => exact ⟨none, rfl, fun j hj => nomatch hj⟩
  | cons x xs ih =>
    obtain ⟨⟨abbrv, ha⟩, name', hn⟩ : (∃ a, x.abbrv = some a) ∧ ∃ b, x.name = some b := by
      simpa [Option.isSome_iff_exists] using h x (by simp)
    rw [matchFrom, ha, hn]
    by_cases hmatch : (CStrings.strcasestr name' name || CStrings.strcaseeq abbrv name) = true
    · refine ⟨some i, by simp only [if_pos hmatch], ?_⟩
      rintro j hj
      obtain rfl := Option.some.inj hj
      simp
    · obtain ⟨r, hr, hj⟩ := ih (i + 1) fun y hy => h y (by simp [hy])
      refine ⟨r, by simp only [if_neg hmatch, hr], fun j hrj => ?_⟩
      have := hj j hrj
      simp only [List.length_cons]
      omega

theorem Device.Named.finds (h : w.Named) (name : String) :
    w1MatchSensor w name.toList = .ok (w.finds name) := by
  obtain ⟨r, hr, -⟩ := matchFrom_named name.toList 0 h
  rw [w1MatchSensor, hr, Device.finds_of_ok (d := w) hr]

theorem Device.Named.finds_lt (h : w.Named) {name : String} (hj : w.finds name = some j) :
    j < w.ns ∧ ((w.s[j]?).bind Sensor.abbrv).isSome := by
  obtain ⟨r, hr, hlt⟩ := matchFrom_named name.toList 0 h
  rw [Device.finds_of_ok (d := w) hr] at hj
  have hlen := (hlt j hj).2
  rw [Nat.zero_add, List.length_take] at hlen
  have hns : j < w.ns := hlen.trans_le (Nat.min_le_left _ _)
  have hx : w.s[j]? = some w.s[j] := List.getElem?_eq_getElem (hns.trans_le w.ns_le)
  have hmem : w.s[j] ∈ w.s.take w.ns := List.mem_take_iff_getElem.mpr ⟨j, hlen, rfl⟩
  exact ⟨hns, by rw [hx, Option.bind_some]; exact (h _ hmem).1⟩

end

section
variable {σ : Type} {V : Judge} {w : Device} {ms : List SensorMark} {drv : Driver σ}

/-- The device is alone, and has been marked so. -/
abbrev Marks (V : Judge) (w : Device) {α : Type} (ms : List SensorMark) (m : M σ α)
    (Q : α → List SensorMark → Prop) : Prop :=
  Leads (Alone w []) (Tallied V w 0) ms m Q

theorem marks_getW1 : Marks V w ms (getW1 (σ := σ)) fun _ ms' => ms' = ms ∧ True := by
  refine (Leads.of_tracks (φ := fun _ => True) ?_ tracks_getW1).conseq fun _ _ h => h.2
  exact completes_getW1.conseq (fun _ hs => hs) fun _ _ hs => ⟨hs, trivial⟩

theorem marks_call {α : Type} (f : σ → α × σ) :
    Marks V w ms (call f) fun a ms' => ms' = ms ∧ ∃ b, a = (f b).1 :=
  (Leads.of_tracks (completes_call f) (tracks_call f)).conseq fun _ _ h => h.2

theorem marks_dev : Marks V w ms (dev (σ := σ) 0) fun d ms' =>
    ms' = ms ∧ d.setup = w.setup ∧ d.init = 2 := by
  refine (Leads.of_tracks completes_dev tracks_dev).conseq fun d ms' h => ?_
  exact ⟨h.2.1, h.2.2, h.1.2.2.2⟩

theorem marks_w1Replog : Marks V w ms (w1Replog (σ := σ)) fun _ ms' => ms' = ms ∧ True := by
  refine (Leads.of_tracks (φ := fun _ => True) ?_ tracks_w1Replog).conseq fun _ _ h => h.2
  exact completes_w1Replog.conseq (fun _ hs => hs) fun _ _ hs => ⟨hs, trivial⟩

theorem marks_makeSerial : Marks V w ms (makeSerial (σ := σ) 0) fun _ ms' => ms' = ms ∧ True := by
  refine (Leads.of_tracks (φ := fun _ => True) ?_ tracks_makeSerial).conseq fun _ _ h => h.2
  exact completes_makeSerial.conseq (fun _ hs => hs) fun _ _ hs => ⟨hs, trivial⟩

theorem marks_w1SetInvalid : Marks V w [] (w1SetInvalid (σ := σ) 0) fun _ ms' => ms' = [] ∧ True := by
  refine (Leads.of_tracks (φ := fun _ => True) ?_ tracks_w1SetInvalid).conseq fun _ _ h => h.2
  exact completes_w1SetInvalid.conseq (fun _ hs => hs) fun _ _ hs => ⟨hs, trivial⟩

theorem marks_w1SelectDevice (hdrv : drv.Finds) (hw : w.stype ≠ .coupler) :
    Marks V w ms (w1SelectDevice drv 0) fun found ms' => ms' = ms ∧ found = true := by
  refine (Leads.of_tracks (completes_w1SelectDevice hdrv hw) (tracks_w1SelectDevice drv)).conseq ?_
  exact fun found ms' h => ⟨h.2.1, h.1⟩

theorem marks_matchSensor (hw : w.Named) (name : String) :
    Marks V w ms (matchSensor (σ := σ) 0 name.toList) fun r ms' => ms' = ms ∧ r = w.finds name := by
  refine (Leads.of_tracks (φ := fun _ => True) ?_ (tracks_matchSensor name)).conseq fun _ _ h => h.2
  refine .bind completes_dev fun d => .given ?_
  rintro ⟨hd, -⟩
  have hr : w1MatchSensor d name.toList = .ok (w.finds name) := by
    rw [w1MatchSensor_setup hd]
    exact hw.finds name
  exact (Completes.lift hr).conseq (fun _ hs => hs) fun _ _ hs => ⟨hs.1, trivial⟩

theorem marks_slot {j : ℕ} (hj : j < w.s.length) :
    Marks V w ms (slot (σ := σ) 0 j) fun x ms' => ms' = ms ∧ (x.valid = true ↔ shows j ms = true) :=
  (Leads.of_tracks (completes_slot hj) (tracks_slot j)).conseq fun _ _ h => h.2

theorem marks_clearValid {j : ℕ} (hj : j < w.s.length) :
    Marks V w ms (clearValid (σ := σ) 0 j) fun _ ms' => ms' = ms ++ [⟨j, none, false⟩] := by
  refine (Leads.of_tracks (φ := fun _ => True) ?_ (tracks_clearValid j)).conseq fun _ _ h => h.2
  exact (completes_clearValid hj).conseq (fun _ hs => hs) fun _ _ hs => ⟨hs, trivial⟩

theorem marks_store {j : ℕ} (hj : ((w.s[j]?).bind Sensor.abbrv).isSome) (v : ℚ) {f : Sensor → Sensor}
    (hf : ∀ x, (f x).memory = x.memory ∧ (f x).label = x.label ∧ (f x).value = v) :
    Marks V w ms (store (σ := σ) 0 j f) (Appends ms [(j, some v)]) := by
  refine (Leads.of_tracks (φ := fun _ => True) ?_ (tracks_store j v hf)).conseq fun _ _ h => h.2
  refine (completes_store hj fun x => (hf x).2.1).conseq (fun _ hs => hs) ?_
  rintro _ s ⟨raw, t, ok, hs⟩
  exact ⟨hs.tail, trivial⟩

/-- What is offered under a name that may find a sensor. -/
theorem marks_stored {j : Option ℕ} (hw : w.Named) {name : String} (hj : j = w.finds name) (v : ℚ) :
    Marks V w ms (match j with
      | some j => store (σ := σ) 0 j fun x => { x with value := v }
      | none => return 0) (Appends ms (w.target name (some v))) := by
  rw [Device.target, ← hj]
  cases j with
  | none => exact .pure .refl
  | some j => exact marks_store (hw.finds_lt hj.symm).2 v fun _ => ⟨rfl, rfl, rfl⟩

theorem marks_offer (hw : w.Named) (name : String) (v : ℚ) :
    Marks V w ms (offer (σ := σ) 0 name v) (Appends ms (w.target name (some v))) :=
  .bind_keep (marks_matchSensor hw name) fun _ hr => marks_stored hw hr v

/-- What is offered under names that find sensors, one after the other. -/
def Device.targets (w : Device) (names : List String) (value : String → ℚ) : List (ℕ × Option ℚ) :=
  names.flatMap fun name => w.target name (some (value name))

/-! ## Readers that get their values at once -/

theorem marks_offer_one (hw : w.Named) (name : String) (value : String → ℚ) :
    Marks V w ms (offer (σ := σ) 0 name (value name)) (Appends ms (w.targets [name] value)) := by
  rw [Device.targets, List.flatMap_singleton]
  exact marks_offer hw name _

theorem targets_append (names names' : List String) (value : String → ℚ) :
    w.targets (names ++ names') value = w.targets names value ++ w.targets names' value :=
  List.flatMap_append

theorem marks_two (hw : w.Named) (a b : String) (value : String → ℚ) :
    Marks V w ms (do return (← offer (σ := σ) 0 a (value a)) + (← offer 0 b (value b)))
      (Appends ms (w.targets [a, b] value)) := by
  refine .bind (marks_offer_one hw a value) fun i ms₁ h₁ => ?_
  refine .bind (marks_offer_one hw b value) fun j ms₂ h₂ => .pure ?_
  simpa [Device.targets] using h₁.trans h₂

theorem marks_four (hw : w.Named) (a b c d : String) (value : String → ℚ) :
    Marks V w ms (do
      return (← offer (σ := σ) 0 a (value a)) + (← offer 0 b (value b)) + (← offer 0 c (value c)) +
        (← offer 0 d (value d))) (Appends ms (w.targets [a, b, c, d] value)) := by
  refine .bind (marks_offer_one hw a value) fun i ms₁ h₁ => ?_
  refine .bind (marks_offer_one hw b value) fun j ms₂ h₂ => ?_
  refine .bind (marks_offer_one hw c value) fun k ms₃ h₃ => ?_
  refine .bind (marks_offer_one hw d value) fun l ms₄ h₄ => .pure ?_
  have hall := ((h₁.trans h₂).trans h₃).trans h₄
  simpa [Device.targets] using hall

/-- The reader returns the good marks, and these are its targets. -/
def Aims (V : Judge) (w : Device) (m : M σ Int) (ts : List (ℕ × Option ℚ)) : Prop :=
  Marks V w [] m fun r ms => r = count ms ∧ ms.map Mark.target = ts

theorem appends_aim {ts : List (ℕ × Option ℚ)} {k : ℕ} (h : Appends [] ts k ms) :
    (k : Int) = count ms ∧ ms.map Mark.target = ts := by
  obtain ⟨new, hms, hts, rfl⟩ := h
  rw [List.nil_append] at hms
  subst hms
  exact ⟨rfl, hts⟩

theorem aims_of {m : M σ ℕ} {ts : List (ℕ × Option ℚ)} (h : Marks V w [] m (Appends [] ts)) :
    Aims V w (do let nv ← m; return (nv : Int)) ts := by
  exact .bind h fun k ms hk => .pure (appends_aim hk)

theorem aims_readAndOffer {α : Type} {read : Device → σ → Option α × σ} {offers : α → M σ ℕ}
    {ts : List (ℕ × Option ℚ)} {v : α} (hdrv : drv.Finds) (hw : w.stype ≠ .coupler)
    (hread : ∀ d b, (read d b).1 = some v) (h : Marks V w [] (offers v) (Appends [] ts)) :
    Aims V w (readAndOffer drv 0 read offers) ts := by
  refine .bind_keep marks_makeSerial fun _ _ => .bind_keep marks_w1SetInvalid fun _ _ => ?_
  refine .bind_keep (marks_w1SelectDevice hdrv hw) fun found hfound => ?_
  refine .ite (fun _ => ?_) fun hnot => absurd hfound hnot
  refine .bind_keep marks_dev fun d _ => .bind_keep (marks_call _) fun a ha => ?_
  obtain ⟨b, rfl⟩ := ha
  rw [hread]
  exact aims_of h

theorem aims_w1ReadDs2450 (hdrv : drv.Finds) (hw : w.stype ≠ .coupler) (hnamed : w.Named)
    {value : String → ℚ}
    (hread : ∀ sn ctl b, (drv.readAtoDResults sn ctl b).1 =
      some #v[value "ADA", value "ADB", value "ADC", value "ADD"]) :
    Aims V w (w1ReadDs2450 drv 0) (w.targets ["ADA", "ADB", "ADC", "ADD"] value) := by
  refine .bind_keep marks_makeSerial fun _ _ => .bind_keep marks_w1SetInvalid fun _ _ => ?_
  refine .bind_keep (marks_w1SelectDevice hdrv hw) fun found hfound => ?_
  refine .ite (fun _ => ?_) fun hnot => absurd hfound hnot
  refine .bind_keep marks_dev fun d _ => .bind_keep (marks_call _) fun setup _ => ?_
  refine .bind_keep (marks_call _) fun _ _ => .bind_keep (marks_call _) fun a ha => ?_
  obtain ⟨b, rfl⟩ := ha
  rw [hread]
  refine .bind (marks_offer_one hnamed "ADA" value) fun i ms₁ h₁ => ?_
  refine .bind (marks_offer_one hnamed "ADB" value) fun j ms₂ h₂ => ?_
  refine .bind (marks_offer_one hnamed "ADC" value) fun k ms₃ h₃ => ?_
  refine .bind (marks_offer_one hnamed "ADD" value) fun l ms₄ h₄ => .pure ?_
  obtain ⟨hcount, hts⟩ := appends_aim (((h₁.trans h₂).trans h₃).trans h₄)
  exact ⟨by simpa using hcount, by simpa [Device.targets] using hts⟩

theorem reducePressure_of_exp (hexp : drv.exp = fun _ => 1) (w1 : DevList) (pres temp : ℚ) :
    reducePressure drv w1 pres temp = pres := by
  rw [reducePressure]
  split
  · simp [pressureAtMsl, hexp]
  · rfl

theorem aims_w1ReadPressure (hdrv : drv.Finds) (hw : w.stype ≠ .coupler) (hnamed : w.Named)
    (hexp : drv.exp = fun _ => 1) {value : String → ℚ}
    (hread : ∀ b, (drv.readPressureValues b).1 = some (value "Temp", value "Pres")) :
    Aims V w (w1ReadPressure drv 0) (w.targets ["Temp", "Pres"] value) := by
  refine .bind_keep marks_makeSerial fun _ _ => .bind_keep (marks_w1SelectDevice hdrv hw) fun found hfound => ?_
  refine .ite (fun _ => ?_) fun hnot => absurd hfound hnot
  have hcalibrate : Marks V w [] (calibrate drv 0) fun _ ms' => ms' = [] ∧ True := by
    refine .bind_keep marks_dev fun d hd => .ite (fun hinit => ?_) fun _ => .pure ⟨rfl, trivial⟩
    exact absurd (hinit.symm.trans hd.2) (by decide)
  refine .bind_keep hcalibrate fun _ _ => .bind_keep marks_dev fun d hd => ?_
  refine .ite (fun _ => ?_) fun hnot => absurd hd.2 hnot
  refine .bind_keep (marks_call _) fun a ha => ?_
  obtain ⟨b, rfl⟩ := ha
  rw [hread]
  refine .bind_keep marks_getW1 fun w1 _ => .bind (marks_offer_one hnamed "Temp" value) fun i ms₁ h₁ => ?_
  rw [reducePressure_of_exp hexp]
  refine .bind (marks_offer_one hnamed "Pres" value) fun j ms₂ h₂ => .pure ?_
  obtain ⟨hcount, hts⟩ := appends_aim (h₁.trans h₂)
  exact ⟨by simpa using hcount, by simpa [Device.targets] using hts⟩

/-! ## The channels -/

/-- A channel that delivers `val`. -/
theorem marks_readChannel (hw : w.Named) (name : String) (wanted : Bool) {read : σ → ℚ × σ} {val : ℚ}
    (hread : ∀ b, (read b).1 = val) (hval : val ≠ -1) :
    Marks V w ms (readChannel 0 name wanted read) fun r ms' =>
      Appends ms (w.target name (some val)) r.1 ms' ∧ (wanted = true → r.2 = some val) := by
  refine .bind_keep (marks_matchSensor hw name) fun s hs => .ite (fun _ => ?_) fun hnot => .pure ?_
  · refine .bind_keep (marks_call _) fun a ha => ?_
    obtain ⟨b, rfl⟩ := ha
    rw [hread]
    cases s with
    | none =>
      rw [Device.target, ← hs]
      exact .pure ⟨.refl, fun _ => rfl⟩
    | some j =>
      refine .ite (fun _ => ?_) fun h => absurd hval h
      refine .bind (marks_stored hw hs val) fun k ms' h => .pure ⟨h, fun _ => rfl⟩
  · have hboth : wanted = false ∧ s = none := by simpa using hnot
    rw [Device.target, ← hs, hboth.2]
    exact ⟨.refl, fun h => absurd (hboth.1.symm.trans h) (by decide)⟩

theorem marks_reportSolar (hw : w.Named) (vdd : Option ℚ) :
    Marks V w ms (reportSolar drv 0 vdd) fun _ ms' => ms' = ms ∧ True := by
  refine .ite (fun _ => ?_) fun _ => .pure ⟨rfl, trivial⟩
  refine .bind_keep (marks_matchSensor hw "Solar") fun s _ => .ite (fun _ => ?_) fun _ => .pure ⟨rfl, trivial⟩
  refine .bind_keep marks_dev fun d _ => .bind_keep (marks_call _) fun _ _ => ?_
  exact marks_w1Replog

/-- The temperature reaches the caller or stays as it was. -/
theorem marks_readTempChannel (hw : w.Named) (v : Option Ds2438v) {temp : ℚ}
    (hread : ∀ sn b, (drv.getTemperature sn b).1 = temp) (htemp : temp ≠ -1) :
    Marks V w ms (readTempChannel drv 0 v) fun r ms' =>
      Appends ms (w.target "temp" (some temp)) r.1 ms' ∧
        (r.2 = v ∨ r.2 = v.map fun v => { v with temp := temp }) := by
  refine .bind_keep (marks_matchSensor hw "temp") fun s hs => .bind_keep marks_dev fun d _ => ?_
  refine .ite (fun _ => ?_) fun hnot => .pure ⟨?_, Or.inl rfl⟩
  · refine .bind_keep (marks_call _) fun a ha => ?_
    obtain ⟨b, rfl⟩ := ha
    rw [hread, show (temp == -1) = false by simpa using htemp]
    cases s with
    | none =>
      rw [Device.target, ← hs]
      exact .pure ⟨.refl, Or.inl rfl⟩
    | some j =>
      refine .bind (marks_stored hw hs temp) fun k ms' h => .pure ⟨h, ?_⟩
      by_cases hk : k = 1
      · simp [hk]
      · simp [hk]
  · have hboth : s = none := by
      by_contra hne
      exact hnot (by simp [Option.ne_none_iff_isSome.mp hne])
    rw [Device.target, ← hs, hboth]
    exact .refl

/-- The channels deliver these values, and none of them fails. -/
structure Measures (drv : Driver σ) (value : String → ℚ) : Prop where
  vdd : ∀ sn b, (drv.readAtoD true sn b).1 = value "vdd"
  vad : ∀ sn b, (drv.readAtoD false sn b).1 = value "vad"
  vsens : ∀ sn b, (drv.readVsens sn b).1 = value "vsens"
  temp : ∀ sn b, (drv.getTemperature sn b).1 = value "temp"
  ok : ∀ name ∈ ds2438Names, value name ≠ -1

/-- What the caller's record holds after the channels it asked for. -/
structure Measured (req : ℕ) (value : String → ℚ) (v : Ds2438v) : Prop where
  vdd : req &&& ds2438Vdd ≠ 0 → v.vdd = value "vdd"
  vad : req &&& ds2438Vad ≠ 0 → v.vad = value "vad"
  temp : v.temp = 0 ∨ v.temp = value "temp"

variable {value : String → ℚ}

theorem marks_w1ReadVoltages (hdrv : drv.Finds) (hw : w.stype ≠ .coupler) (hnamed : w.Named)
    (hm : Measures drv value) (v : Option Ds2438v) :
    Marks V w [] (w1ReadVoltages drv 0 v) fun r ms =>
      (r.1 = count ms ∧ ms.map Mark.target = w.targets ds2438Names value) ∧
        ∀ req, v = some { req } → ∃ v', r.2 = some v' ∧ Measured req value v' := by
  have hsel : Marks V w [] (selectUnless drv 0 v) fun sel ms' => ms' = [] ∧ sel = true := by
    cases v with
    | none => exact marks_w1SelectDevice hdrv hw
    | some v => exact .pure ⟨rfl, rfl⟩
  refine .bind_keep marks_makeSerial fun _ _ => .bind_keep hsel fun sel hfound => ?_
  refine .bind_keep marks_w1SetInvalid fun _ _ => .ite (fun _ => ?_) fun hnot => absurd hfound hnot
  refine .bind_keep marks_dev fun d _ => ?_
  refine .bind (marks_readChannel hnamed "vdd" _ (hm.vdd d.serno) (hm.ok _ (by decide)))
    fun vdd ms₁ h₁ => ?_
  refine .bind_keep (marks_reportSolar hnamed _) fun _ _ => ?_
  refine .bind (marks_readChannel hnamed "vad" _ (hm.vad d.serno) (hm.ok _ (by decide)))
    fun vad ms₂ h₂ => ?_
  refine .bind (marks_readChannel hnamed "vsens" _ (hm.vsens d.serno) (hm.ok _ (by decide)))
    fun vsens ms₃ h₃ => ?_
  refine .bind (marks_readTempChannel hnamed _ hm.temp (hm.ok _ (by decide))) fun temp ms₄ h₄ => .pure ?_
  constructor
  · obtain ⟨hcount, hts⟩ := appends_aim (((h₁.1.trans h₂.1).trans h₃.1).trans h₄.1)
    exact ⟨by simpa using hcount, by simpa [Device.targets, ds2438Names] using hts⟩
  · rintro req rfl
    have hvdd : req &&& ds2438Vdd ≠ 0 → vdd.2.getD 0 = value "vdd" := by
      intro hreq
      rw [h₁.2 (by simpa [Ds2438v.wants] using hreq)]
      rfl
    have hvad : req &&& ds2438Vad ≠ 0 → vad.2.getD 0 = value "vad" := by
      intro hreq
      rw [h₂.2 (by simpa [Ds2438v.wants] using hreq)]
      rfl
    rcases h₄.2 with h | h
    · exact ⟨_, h, hvdd, hvad, Or.inl rfl⟩
    · exact ⟨_, h, hvdd, hvad, Or.inr rfl⟩

theorem marks_voltages (hdrv : drv.Finds) (hw : w.stype ≠ .coupler) (hnamed : w.Named)
    (hm : Measures drv value) (req : ℕ) :
    Marks V w [] (voltages drv 0 req) fun r ms =>
      Appends [] (w.targets ds2438Names value) (count ms) ms ∧ r.1 = count ms ∧
        Measured req value r.2 := by
  refine .bind (marks_w1ReadVoltages hdrv hw hnamed hm _) fun r ms h => .pure ?_
  obtain ⟨⟨hcount, hts⟩, hv⟩ := h
  obtain ⟨v', hr, hmeasured⟩ := hv req rfl
  refine ⟨⟨ms, rfl, hts, rfl⟩, hcount, ?_⟩
  rw [hr]
  exact hmeasured

theorem aims_ds2438v (hdrv : drv.Finds) (hw : w.stype ≠ .coupler) (hnamed : w.Named)
    (hm : Measures drv value) :
    Aims V w (do return (← w1ReadVoltages drv 0 none).1) (w.targets ds2438Names value) :=
  .bind (marks_w1ReadVoltages hdrv hw hnamed hm none) fun _ _ h => .pure h.1

/-- One more value after the channels. -/
theorem aims_after (hnamed : w.Named) {r : Int} {ts : List (ℕ × Option ℚ)}
    (h : Appends [] ts (count ms) ms) (hr : r = count ms) (name : String) (v : ℚ) :
    Marks V w ms (do let nv ← offer (σ := σ) 0 name v; return r + nv) fun r ms =>
      r = count ms ∧ ms.map Mark.target = ts ++ w.target name (some v) := by
  refine .bind (marks_offer hnamed name v) fun i ms' hi => .pure ?_
  obtain ⟨hcount, hts⟩ := appends_aim (h.trans hi)
  exact ⟨by rw [← hcount, hr]; simp, hts⟩

/-- The channels are given 99.9 or 100. -/
def Ordinary (value : String → ℚ) : Prop := ∀ name, value name = 999 / 10 ∨ value name = 100

/-- After the channels the reader offers a value computed from them, and that is not 99.9. -/
def AimsAfter (V : Judge) (w : Device) (value : String → ℚ) (name : String) (m : M σ Int) : Prop :=
  Marks V w [] m fun r ms => r = count ms ∧ ∃ v : ℚ, v ≠ 999 / 10 ∧
    ms.map Mark.target = w.targets ds2438Names value ++ w.target name (some v)

theorem marks_after (hnamed : w.Named) {r : Int} (h : Appends [] (w.targets ds2438Names value) (count ms) ms)
    (hr : r = count ms) (name : String) {v : ℚ} (hv : v ≠ 999 / 10) :
    Marks V w ms (do let nv ← offer (σ := σ) 0 name v; return r + nv) fun r ms => r = count ms ∧
      ∃ v : ℚ, v ≠ 999 / 10 ∧ ms.map Mark.target = w.targets ds2438Names value ++ w.target name (some v) := by
  refine (aims_after hnamed h hr name v).conseq fun r' ms' h => ?_
  exact ⟨h.1, v, hv, h.2⟩

theorem aims_w1ReadCurrent (hdrv : drv.Finds) (hw : w.stype ≠ .coupler) (hnamed : w.Named)
    (hm : Measures drv value) (hord : Ordinary value) :
    AimsAfter V w value "current" (w1ReadCurrent drv 0) := by
  refine .bind_keep marks_makeSerial fun _ _ => .bind_keep marks_w1SetInvalid fun _ _ => ?_
  refine .bind_keep (marks_w1SelectDevice hdrv hw) fun found hfound => ?_
  refine .ite (fun _ => ?_) fun hnot => absurd hfound hnot
  refine .bind (marks_voltages hdrv hw hnamed hm _) fun r ms h => ?_
  obtain ⟨hts, hr, hv⟩ := h
  have hvad : r.2.vad = 999 / 10 ∨ r.2.vad = 100 := by
    rw [hv.vad (by decide)]
    exact hord "vad"
  refine .ite (fun _ => marks_after hnamed hts hr "current" ?_) fun hnot => absurd ?_ hnot
  · rcases hvad with h | h <;> rw [h] <;> norm_num
  · rcases hvad with h | h <;> rw [h] <;> norm_num

theorem aims_w1ReadBray (hdrv : drv.Finds) (hw : w.stype ≠ .coupler) (hnamed : w.Named)
    (hparams : w.params = none) (hexp : drv.exp = fun _ => 1) (hm : Measures drv value)
    (hord : Ordinary value) : AimsAfter V w value "Pres" (w1ReadBray drv 0) := by
  refine .bind_keep marks_makeSerial fun _ _ => ?_
  refine .bind_keep (marks_w1SelectDevice hdrv hw) fun found hfound => ?_
  refine .ite (fun _ => ?_) fun hnot => absurd hfound hnot
  refine .bind (marks_voltages hdrv hw hnamed hm _) fun r ms h => ?_
  obtain ⟨hts, hr, hv⟩ := h
  have hvad : r.2.vad = 999 / 10 ∨ r.2.vad = 100 := by
    rw [hv.vad (by decide)]
    exact hord "vad"
  refine .ite (fun _ => ?_) fun hnot => absurd ?_ hnot
  · refine .bind_keep marks_dev fun d hd => .bind_keep marks_getW1 fun w1 _ => ?_
    have hnone : d.params = none := (congrArg (·.2.1) hd.1).trans hparams
    rw [hnone]
    refine .bind_keep (Leads.lift rfl) fun p hp => marks_after hnamed hts hr "Pres" ?_
    rw [hp, reducePressure_of_exp hexp]
    rcases hvad with h | h <;> rw [h] <;> norm_num [braySlope, brayOffset]
  · rcases hvad with h | h <;> rw [h] <;> norm_num

theorem aims_w1ReadHbPressure (hdrv : drv.Finds) (hw : w.stype ≠ .coupler) (hnamed : w.Named)
    (hparams : w.params = none) (hm : Measures drv value) (hord : Ordinary value) :
    AimsAfter V w value "Pres" (w1ReadHbPressure drv 0) := by
  refine .bind_keep marks_makeSerial fun _ _ => .bind_keep marks_w1SetInvalid fun _ _ => ?_
  refine .bind_keep (marks_w1SelectDevice hdrv hw) fun found hfound => ?_
  refine .ite (fun _ => ?_) fun hnot => absurd hfound hnot
  refine .bind (marks_voltages hdrv hw hnamed hm _) fun r ms h => ?_
  obtain ⟨hts, hr, hv⟩ := h
  have hvad : r.2.vad = 999 / 10 ∨ r.2.vad = 100 := by
    rw [hv.vad (by decide)]
    exact hord "vad"
  refine .ite (fun _ => ?_) fun hnot => absurd ?_ hnot
  · refine .bind_keep marks_dev fun d hd => marks_after hnamed hts hr "Pres" ?_
    have hnone : d.params = none := (congrArg (·.2.1) hd.1).trans hparams
    rw [hnone]
    rcases hvad with h | h <;> rw [h] <;> norm_num [hbParams, hbSlope, hbOffset, inhghpa]
  · rcases hvad with h | h <;> rw [h] <;> norm_num

theorem marks_firstTwoInvalid (hlen : 2 ≤ w.s.length) :
    Marks V w ms (firstTwoInvalid (σ := σ) 0) fun b ms' =>
      ms' = ms ∧ (b = true ↔ ¬ (shows 0 ms && shows 1 ms) = true) := by
  refine .bind_keep (marks_slot (show 0 < w.s.length by omega)) fun x hx =>
    .ite (fun hvalid => ?_) fun hvalid => .pure ⟨rfl, ?_⟩
  · refine .bind_keep (marks_slot (show 1 < w.s.length by omega)) fun y hy => .pure ⟨rfl, ?_⟩
    rw [hx.mp hvalid, Bool.true_and, ← hy]
    simp
  · rw [hx] at hvalid
    simp [hvalid]

theorem aims_w1ReadHumidity (hdrv : drv.Finds) (hw : w.stype ≠ .coupler) (hnamed : w.Named)
    (hlen : 2 ≤ w.s.length) (hm : Measures drv value) (hord : Ordinary value) :
    Marks V w [] (w1ReadHumidity drv 0) fun r ms => r = count ms ∧ ∃ temp humid : ℚ,
      (temp = 0 ∨ temp = value "temp") ∧ humid ≠ 999 / 10 ∧ ms.map Mark.target =
        w.targets ds2438Names value ++ w.target "Temp" (some temp) ++ w.target "Humidity" (some humid) := by
  refine .bind_keep marks_makeSerial fun _ _ => .bind_keep marks_w1SetInvalid fun _ _ => ?_
  refine .bind_keep (marks_w1SelectDevice hdrv hw) fun found hfound => ?_
  refine .ite (fun _ => ?_) fun hnot => absurd hfound hnot
  refine .bind (marks_voltages hdrv hw hnamed hm _) fun r ms h => ?_
  obtain ⟨hts, hr, hv⟩ := h
  have hvad : r.2.vad = 999 / 10 ∨ r.2.vad = 100 := by
    rw [hv.vad (by decide)]
    exact hord "vad"
  have hvdd : (if 5.8 < r.2.vdd then 5.8 else if r.2.vdd < 4.0 then 4.0 else r.2.vdd) = (5.8 : ℚ) := by
    rw [hv.vdd (by decide)]
    rcases hord "vdd" with h | h <;> rw [h] <;> norm_num
  have htemp : r.2.temp = 0 ∨ r.2.temp = 999 / 10 ∨ r.2.temp = 100 := by
    rcases hv.temp with h | h
    · exact Or.inl h
    · exact Or.inr (h ▸ hord "temp")
  refine .bind (marks_offer hnamed "Temp" _) fun i ms₁ h₁ => ?_
  refine .bind (marks_offer hnamed "Humidity" _) fun j ms₂ h₂ => ?_
  have hreport : Marks V w ms₂ (reportHumidity (σ := σ) 0) fun _ ms' => ms' = ms₂ ∧ True :=
    .bind_keep (marks_firstTwoInvalid hlen) fun b _ => .ite (fun _ => marks_w1Replog) fun _ =>
      .pure ⟨rfl, trivial⟩
  refine .bind_keep hreport fun _ _ => .pure ?_
  obtain ⟨hcount, htargets⟩ := appends_aim ((hts.trans h₁).trans h₂)
  refine ⟨by rw [← hcount, hr]; simp, _, _, hv.temp, ?_, htargets⟩
  rw [hvdd]
  rcases hvad with h | h <;> rcases htemp with h' | h' | h' <;> rw [h, h'] <;> norm_num

theorem marks_clearUnlessBoth (hlen : 2 ≤ w.s.length) :
    Marks V w ms (clearUnlessBoth (σ := σ) 0) fun _ ms' => ms' = ms ++ unlessBoth ms := by
  refine .bind_keep (marks_firstTwoInvalid hlen) fun b hb => .ite (fun h => ?_) fun h => .pure ?_
  · refine .bind_keep marks_w1Replog fun _ _ => ?_
    refine .bind (marks_clearValid (show 1 < w.s.length by omega)) fun _ ms₁ h₁ => ?_
    subst h₁
    refine (marks_clearValid (show 0 < w.s.length by omega)).conseq fun _ ms₂ h₂ => ?_
    rw [h₂, unlessBoth, if_neg (hb.mp h), List.append_assoc]
    rfl
  · have hboth : (shows 0 ms && shows 1 ms) = true := by
      by_contra hnot
      exact h (hb.mpr hnot)
    rw [unlessBoth, if_pos hboth, List.append_nil]

/-- What `w1_read_hih` has read: the humidity comes out as 99.9. -/
def HihMeasured (w : Device) (value : String → ℚ) (r : Int) (ms : List SensorMark) : Prop :=
  ∃ cs hs, ms = cs ++ hs ++ unlessBoth (cs ++ hs) ∧ cs.map Mark.target = w.targets ds2438Names value ∧
    r = count hs ∧ (0 < count cs → hs.map Mark.target = w.target "Humidity" (some (999 / 10))) ∧
    (count cs = 0 → hs = [])

theorem marks_w1ReadHih (hdrv : drv.Finds) (hw : w.stype ≠ .coupler) (hnamed : w.Named)
    (hlen : 2 ≤ w.s.length) (hm : Measures drv value) (hord : Ordinary value) :
    Marks V w [] (w1ReadHih drv 0) (HihMeasured w value) := by
  refine .bind_keep marks_makeSerial fun _ _ => .bind_keep marks_w1SetInvalid fun _ _ => ?_
  refine .bind_keep (marks_w1SelectDevice hdrv hw) fun found hfound => ?_
  refine .ite (fun _ => ?_) fun hnot => absurd hfound hnot
  refine .bind (marks_voltages hdrv hw hnamed hm _) fun r ms h => ?_
  obtain ⟨hts, hr, hv⟩ := h
  obtain ⟨-, hts⟩ := appends_aim hts
  have hhumid : hihHumidity r.2 = 999 / 10 := by
    have hvad : r.2.vad = 999 / 10 ∨ r.2.vad = 100 := by
      rw [hv.vad (by decide)]
      exact hord "vad"
    have hvdd : r.2.vdd = 999 / 10 ∨ r.2.vdd = 100 := by
      rw [hv.vdd (by decide)]
      exact hord "vdd"
    have htemp : r.2.temp = 0 ∨ r.2.temp = 999 / 10 ∨ r.2.temp = 100 := by
      rcases hv.temp with h | h
      · exact Or.inl h
      · exact Or.inr (h ▸ hord "temp")
    rcases hvad with h | h <;> rcases hvdd with h' | h' <;> rcases htemp with h'' | h'' | h'' <;>
      norm_num [hihHumidity, h, h', h'']
  refine .ite (fun hne => ?_) fun hzero => ?_
  · refine .bind (marks_offer hnamed "Humidity" _) fun nv ms₁ h₁ => ?_
    obtain ⟨hs, rfl, hhs, rfl⟩ := h₁
    rw [hhumid] at hhs
    refine .bind (marks_clearUnlessBoth hlen) fun _ ms₂ h₂ => .pure ?_
    refine ⟨ms, hs, h₂, hts, rfl, fun _ => hhs, fun hc => ?_⟩
    exact absurd (by rw [hr, hc]; rfl) hne
  · refine .bind (marks_clearUnlessBoth hlen) fun _ ms₂ h₂ => .pure ?_
    have hc : count ms = 0 := by
      have : r.1 = 0 := by simpa using hzero
      omega
    exact ⟨ms, [], by simpa using h₂, hts, rfl, fun hpos => by omega, fun _ => rfl⟩

end
end W1Retap
