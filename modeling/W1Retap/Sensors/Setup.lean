import W1Retap.Sensors.Steps
import W1Retap.Support.Triples

/-!
# What readers leave alone

No reader changes how a device was set up: its serial number, its parameters, and the
names of its sensors. A `Guard` is a condition on the machine that says at least this of
one device and that bus traffic and changes to other data leave alone; every part of a
reader keeps it.
-/
namespace W1Retap

open Programs

/-- What a sensor is found by. -/
def Sensor.label (x : Sensor) : Option CString × Option CString := (x.abbrv, x.name)

/-- What `w1_match_sensor` looks for. -/
def Sensor.goesBy (x : Sensor) (name : String) : Bool :=
  match x.abbrv, x.name with
  | some abbrv, some full =>
    CStrings.strcasestr full name.toList || CStrings.strcaseeq abbrv name.toList
  | _, _ => false

/-- What a table has said about a device. -/
def Device.setup (d : Device) :
    Option CString × Option (List ℚ) × ℕ × List (Option CString × Option CString) :=
  (d.serial, d.params, d.ns, d.s.map Sensor.label)

section
variable {σ : Type}

/-- Device `n` has been set up as `w`. -/
def SetUp (w : Device) (n : ℕ) (s : Machine σ) : Prop :=
  ∃ d, s.w1.devs[n]? = some d ∧ d.setup = w.setup

/-- The stops in `bad` concern sensor slots and names only, and `P`, which knows how
device `n` has been set up, is about nothing that a reader may change. -/
structure Guard (bad : Stop → Prop) (w : Device) (n : ℕ) (P : Machine σ → Prop) : Prop where
  bad : ∀ e, bad e → e = .noSlot ∨ e = .noName
  setUp : ∀ s, P s → SetUp w n s
  setBus : ∀ s b, P s → P (s.setBus b)
  log : ∀ s e, e.isBus = true → P s → P (s.log e)
  modifyDev : ∀ s m f, (∀ d, s.w1.devs[m]? = some d → (f d).setup = d.setup) → P s →
    P (s.modifyDev m f)

theorem SetUp.modifyDev {w : Device} {n : ℕ} {s : Machine σ} {m : ℕ} {f : Device → Device}
    (hf : ∀ d, s.w1.devs[m]? = some d → (f d).setup = d.setup) (h : SetUp w n s) :
    SetUp w n (s.modifyDev m f) := by
  obtain ⟨d, hd, hw⟩ := h
  by_cases hm : m = n
  · refine ⟨f d, ?_, (hf d (hm ▸ hd)).trans hw⟩
    rw [Machine.modifyDev_getElem?, if_pos hm, hd, Option.map_some]
  · exact ⟨d, by rw [Machine.modifyDev_getElem?, if_neg hm, hd], hw⟩

theorem setup_modifySlot {d : Device} {j : ℕ} {f : Sensor → Sensor}
    (hf : ∀ x, d.s[j]? = some x → (f x).label = x.label) : (d.modifySlot j f).setup = d.setup := by
  have hs : (d.s.modify j f).map Sensor.label = d.s.map Sensor.label := by
    apply List.ext_getElem?
    intro k
    rw [List.getElem?_map, List.getElem?_map, List.getElem?_modify]
    cases hx : d.s[k]? with
    | none => rfl
    | some x =>
      by_cases hj : j = k
      · simp [hj, hf x (hj ▸ hx)]
      · simp [hj]
  simp only [Device.setup, Device.modifySlot_s, hs]
  rfl

theorem setup_setInvalid (d : Device) : d.setInvalid.setup = d.setup := by
  have hs : d.setInvalid.s.map Sensor.label = d.s.map Sensor.label := by
    have hclear : Sensor.label ∘ (fun x : Sensor => { x with valid := false }) = Sensor.label := rfl
    simp only [Device.setInvalid, List.map_append, List.map_map, hclear]
    rw [← List.map_append, List.take_append_drop]
  simp only [Device.setup, hs]
  rfl

/-- A search can only fail at a sensor without name. -/
theorem matchFrom_error {name : CString} {xs : List Sensor} {j : ℕ} {e : Stop}
    (h : matchFrom name xs j = .error e) : e = .noName := by
  induction xs generalizing j with
  | nil => exact nomatch h
  | cons x xs ih =>
    rw [matchFrom] at h
    split at h
    · exact ih h
    · exact (Except.error.inj h).symm
    · split at h
      · exact nomatch h
      · exact ih h

/-- A search looks at the labels only. -/
theorem matchFrom_labels {name : CString} {xs ys : List Sensor} {j : ℕ}
    (h : xs.map Sensor.label = ys.map Sensor.label) : matchFrom name xs j = matchFrom name ys j := by
  induction xs generalizing ys j with
  | nil =>
    rw [List.map_nil, eq_comm, List.map_eq_nil_iff] at h
    rw [h]
  | cons x xs ih =>
    cases ys with
    | nil => simp at h
    | cons y ys =>
      rw [List.map_cons, List.map_cons] at h
      obtain ⟨hlabel, hrest⟩ := List.cons.inj h
      obtain ⟨habbrv, hname⟩ := Prod.mk.inj hlabel
      rw [matchFrom, matchFrom, habbrv, hname, ih hrest]

theorem matchFrom_lt {name : CString} {xs : List Sensor} {i k : ℕ}
    (h : matchFrom name xs i = .ok (some k)) : i ≤ k ∧ k < i + xs.length := by
  induction xs generalizing i with
  | nil => cases h
  | cons x xs ih =>
    rw [List.length_cons]
    rw [matchFrom] at h
    split at h
    · obtain ⟨hle, hlt⟩ := ih h
      omega
    · cases h
    · split at h
      · obtain rfl := Option.some.inj (Except.ok.inj h)
        omega
      · obtain ⟨hle, hlt⟩ := ih h
        omega

/-- Which sensor matches depends on the setup only. -/
theorem w1MatchSensor_setup {d w : Device} (h : d.setup = w.setup) (name : CString) :
    w1MatchSensor d name = w1MatchSensor w name := by
  obtain ⟨-, -, hns, hlabels⟩ : d.serial = w.serial ∧ d.params = w.params ∧ d.ns = w.ns ∧
      d.s.map Sensor.label = w.s.map Sensor.label := by
    simpa [Device.setup] using h
  apply matchFrom_labels
  rw [List.map_take, List.map_take, hns, hlabels]

/-- Since the trace was `t`, only events in `G` have happened. -/
def Adds (t : List Event) (G : Event → Prop) (s : Machine σ) : Prop :=
  ∃ new, s.trace = new ++ t ∧ ∀ ev ∈ new, G ev

theorem Adds.log {t : List Event} {G : Event → Prop} {s : Machine σ} (h : Adds t G s) {e : Event}
    (he : G e) : Adds t G (s.log e) := by
  obtain ⟨new, htrace, hnew⟩ := h
  refine ⟨e :: new, by rw [Machine.log_trace, htrace]; rfl, ?_⟩
  intro ev hev
  rcases List.mem_cons.mp hev with rfl | hev
  · exact he
  · exact hnew ev hev

/-- Events of the bus may happen under any guard about events. -/
theorem guard_adds (w : Device) (n : ℕ) (t : List Event) {G : Event → Prop}
    (hG : ∀ e, e.isBus = true → G e) :
    Guard (σ := σ) (fun _ => False) w n fun s => SetUp w n s ∧ Adds t G s where
  bad := fun _ hf => hf.elim
  setUp := fun _ hs => hs.1
  setBus := fun _ _ hs => hs
  log := fun _ e he hs => ⟨hs.1, hs.2.log (hG e he)⟩
  modifyDev := fun _ _ _ hf hs => ⟨hs.1.modifyDev hf, hs.2⟩

/-! ## The primitive operations keep a guard -/

section
variable {bad : Stop → Prop} {w : Device} {n : ℕ} {P : Machine σ → Prop}

theorem avoids_call_of (h : Guard bad w n P) {α : Type} (f : σ → α × σ) :
    Avoids bad P (call f) fun a s => P s ∧ ∃ b, a = (f b).1 := by
  intro s hs
  constructor
  · intro e he
    exact nomatch he
  · intro a s' hr
    obtain ⟨ha, rfl⟩ := run_call_ok.mp hr
    exact ⟨h.setBus s _ hs, s.bus, ha⟩

theorem avoids_call (h : Guard bad w n P) {α : Type} (f : σ → α × σ) :
    Avoids bad P (call f) fun _ => P :=
  (avoids_call_of h f).conseq (fun _ hs => hs) fun _ _ hs => hs.1

theorem avoids_event (h : Guard bad w n P) {e : Event} (he : e.isBus = true) :
    Avoids bad P (event e) fun _ => P := by
  intro s hs
  constructor
  · intro e' he'
    exact nomatch he'
  · intro a s' hr
    obtain rfl := run_event_ok.mp hr
    exact h.log s e he hs

theorem avoids_getW1 : Avoids bad P (getW1 (σ := σ)) fun _ => P := by
  intro s hs
  constructor
  · intro e he
    exact nomatch he
  · intro a s' hr
    obtain ⟨-, rfl⟩ := run_getW1_ok.mp hr
    exact hs

theorem avoids_modifyDev (h : Guard bad w n P) (m : ℕ) {f : Device → Device}
    (hf : ∀ d, (f d).setup = d.setup) : Avoids bad P (modifyDev m f) fun _ => P := by
  intro s hs
  constructor
  · intro e he
    exact nomatch he
  · intro a s' hr
    obtain rfl := run_modifyDev_ok.mp hr
    exact h.modifyDev s m f (fun d _ => hf d) hs

theorem run_dev_error {m : ℕ} {s : Machine σ} {e : Stop} (h : (dev m).run s = .error e) :
    e = .outOfBounds := by
  cases hd : s.w1.devs[m]? with
  | none =>
    have hrun : (dev m).run s = .error .outOfBounds := by
      unfold dev
      rw [run_bind_of_ok (run_get_ok.mpr ⟨rfl, rfl⟩)]
      simp only [hd]
      rfl
    exact Except.error.inj (h.symm.trans hrun)
  | some d =>
    rw [run_dev_ok.mpr ⟨hd, rfl⟩] at h
    cases h

theorem avoids_dev (h : Guard bad w n P) (m : ℕ) :
    Avoids bad P (dev m) fun d s => P s ∧ (m = n → d.setup = w.setup) := by
  intro s hs
  constructor
  · intro e he hb
    obtain rfl := run_dev_error he
    rcases h.bad _ hb with he | he <;> exact absurd he (by decide)
  · intro d s' hr
    obtain ⟨hd, rfl⟩ := run_dev_ok.mp hr
    refine ⟨hs, ?_⟩
    rintro rfl
    obtain ⟨d', hd', hw⟩ := h.setUp s' hs
    obtain rfl := Option.some.inj (hd'.symm.trans hd)
    exact hw

theorem SetUp.slot? {s : Machine σ} (h : SetUp w n s) (j : ℕ) :
    (s.slot? n j).map Sensor.label = (w.s[j]?).map Sensor.label := by
  obtain ⟨d, hd, hw⟩ := h
  have hlabels : d.s.map Sensor.label = w.s.map Sensor.label := by
    simp only [Device.setup, Prod.mk.injEq] at hw
    exact hw.2.2.2
  rw [Machine.slot?, hd, Option.bind_some, ← List.getElem?_map, ← List.getElem?_map, hlabels]

theorem run_slot_error {j : ℕ} {s : Machine σ} {e : Stop} (h : (slot n j).run s = .error e) :
    e = .outOfBounds ∨ e = .noSlot ∧ s.slot? n j = none := by
  rcases run_bind_error.mp h with he | ⟨d, s₁, h₁, he⟩
  · exact Or.inl (run_dev_error he)
  · obtain ⟨hd, rfl⟩ := run_dev_ok.mp h₁
    cases hx : d.s[j]? with
    | some x =>
      simp only [hx] at he
      exact nomatch he
    | none =>
      simp only [hx] at he
      exact Or.inr ⟨(Except.error.inj he).symm, by rw [Machine.slot?, hd, Option.bind_some, hx]⟩

/-- Reading slot `j`, where more may be known of the sensor in it. -/
theorem avoids_slot_of (h : Guard bad w n P) {j : ℕ} (hj : bad .noSlot → j < w.s.length)
    {C : Sensor → Prop} :
    Avoids bad (fun s => P s ∧ ∀ x, s.slot? n j = some x → C x) (slot n j)
      fun x s => P s ∧ (w.s[j]?).map Sensor.label = some x.label ∧ C x := by
  rintro s ⟨hs, hC⟩
  have hlabel := (h.setUp s hs).slot? j
  constructor
  · intro e he hb
    rcases run_slot_error he with rfl | ⟨rfl, hnone⟩
    · rcases h.bad _ hb with he | he <;> exact absurd he (by decide)
    · rw [hnone, List.getElem?_eq_getElem (hj hb)] at hlabel
      exact nomatch hlabel
  · intro x s' hr
    obtain ⟨hx, rfl⟩ := run_slot_ok.mp hr
    rw [hx] at hlabel
    exact ⟨hs, hlabel.symm, hC x hx⟩

theorem avoids_slot (h : Guard bad w n P) {j : ℕ} (hj : bad .noSlot → j < w.s.length) :
    Avoids bad P (slot n j) fun x s => P s ∧ (w.s[j]?).map Sensor.label = some x.label :=
  (avoids_slot_of h hj (C := fun _ => True)).conseq (fun _ hs => ⟨hs, fun _ _ => trivial⟩)
    fun _ _ hs => ⟨hs.1, hs.2.1⟩

/-- Assigning to slot `j`; what is assigned is known of the sensor in it afterwards. -/
theorem avoids_modifySlot_of (h : Guard bad w n P) {j : ℕ} (hj : bad .noSlot → j < w.s.length)
    {f : Sensor → Sensor}
    (hf : ∀ x, (w.s[j]?).map Sensor.label = some x.label → (f x).label = x.label) :
    Avoids bad P (modifySlot n j f) fun _ s => P s ∧ ∀ y, s.slot? n j = some y → ∃ x, y = f x := by
  intro s hs
  have hlabel := (h.setUp s hs).slot? j
  constructor
  · intro e he hb
    rcases run_bind_error.mp he with he | ⟨x, s₁, -, he⟩
    · exact (avoids_slot h hj s hs).1 e he hb
    · exact nomatch he
  · intro u s' hr
    obtain ⟨hslot, rfl⟩ := run_modifySlot_ok.mp hr
    obtain ⟨x, hx⟩ := Option.isSome_iff_exists.mp hslot
    constructor
    · refine h.modifyDev s n _ (fun d hd => setup_modifySlot fun y hy => hf y ?_) hs
      rw [← hlabel, Machine.slot?, hd, Option.bind_some, hy]
      rfl
    · intro y hy
      rw [Machine.slot?_modifySlot_self hx] at hy
      exact ⟨x, (Option.some.inj hy).symm⟩

theorem avoids_modifySlot (h : Guard bad w n P) {j : ℕ} (hj : bad .noSlot → j < w.s.length)
    {f : Sensor → Sensor}
    (hf : ∀ x, (w.s[j]?).map Sensor.label = some x.label → (f x).label = x.label) :
    Avoids bad P (modifySlot n j f) fun _ => P :=
  (avoids_modifySlot_of h hj hf).conseq (fun _ hs => hs) fun _ _ hs => hs.1

theorem avoids_matchSensor (h : Guard bad w n P) (name : CString)
    (hname : bad .noName → w1MatchSensor w name ≠ .error .noName) :
    Avoids bad P (matchSensor n name) fun r s => P s ∧ w1MatchSensor w name = .ok r := by
  refine .bind (avoids_dev h n) fun d => .given fun hd => .lift ?_ ?_
  · intro e he hb
    rw [w1MatchSensor_setup (hd rfl)] at he
    obtain rfl := matchFrom_error he
    exact hname hb he
  · intro r s hr hs
    exact ⟨hs, (w1MatchSensor_setup (hd rfl) name) ▸ hr⟩

/-! ## The common parts of the readers -/

theorem avoids_w1Replog (h : Guard bad w n P) : Avoids bad P w1Replog fun _ => P := by
  refine .bind avoids_getW1 fun w1 => .forM fun i _ => ?_
  split
  · exact .ite (fun _ => avoids_event h rfl) fun _ => .pure fun _ hs => hs
  · exact .pure fun _ hs => hs

variable (drv : Driver σ)

theorem avoids_w1SetCoupler (h : Guard bad w n P) (m : ℕ) (lines : Int) :
    Avoids bad P (w1SetCoupler drv m lines) fun _ => P := by
  refine .bind (avoids_dev h m) fun d => .given fun _ => .ite (fun _ => ?_) fun _ => .pure fun _ hs => hs
  refine .bind (avoids_call h _) fun ok => .bind (avoids_event h rfl) fun _ => ?_
  exact avoids_modifyDev h m fun _ => rfl

theorem avoids_switchOff (h : Guard bad w n P) (own : Option ℕ) (i : ℕ) :
    Avoids bad P (switchOff drv own i) fun _ => P :=
  .bind (avoids_dev h i) fun _ => .given fun _ =>
    .ite (fun _ => avoids_w1SetCoupler drv h i _) fun _ => .pure fun _ hs => hs

theorem avoids_w1SelectDevice (h : Guard bad w n P) :
    Avoids bad P (w1SelectDevice drv n) fun _ => P := by
  refine .bind avoids_getW1 fun w1 => .bind (avoids_dev h n) fun d => .given fun _ => ?_
  refine .bind (.forM fun i _ => avoids_switchOff drv h _ i) fun _ => ?_
  refine .bind (Q := fun _ => P) ?_ fun _ => ?_
  · cases d.coupler with
    | none => exact .pure fun _ hs => hs
    | some c => exact avoids_w1SetCoupler drv h c.couplerDevice c.branch
  · refine .bind (avoids_event h rfl) fun _ => .bind (avoids_call h _) fun _ => ?_
    exact .pure fun _ hs => hs

theorem w1MakeSerial_error {asc : Option CString} {e : Stop} (h : w1MakeSerial asc = .error e) :
    e = .nullDeref ∨ e = .outOfBounds := by
  cases asc with
  | none => exact Or.inl (Except.error.inj h).symm
  | some asc =>
    by_cases hlen : asc.length < 15
    · rw [w1MakeSerial, if_pos hlen] at h
      exact Or.inr (Except.error.inj h).symm
    · rw [w1MakeSerial, if_neg hlen] at h
      exact nomatch h

theorem avoids_makeSerial (h : Guard bad w n P) : Avoids bad P (makeSerial (σ := σ) n) fun _ => P := by
  refine .bind (avoids_dev h n) fun d => .given fun _ => .ite (fun _ => ?_) fun _ => .pure fun _ hs => hs
  refine .bind (.lift ?_ fun _ _ _ hs => hs) fun serno => avoids_modifyDev h n fun _ => rfl
  intro e he hb
  rcases h.bad e hb with rfl | rfl <;> rcases w1MakeSerial_error he with he | he <;>
    exact absurd he (by decide)

theorem avoids_w1SetInvalid (h : Guard bad w n P) : Avoids bad P (w1SetInvalid (σ := σ) n) fun _ => P :=
  avoids_modifyDev h n setup_setInvalid

theorem avoids_clearValid (h : Guard bad w n P) {j : ℕ} (hj : bad .noSlot → j < w.s.length) :
    Avoids bad P (clearValid (σ := σ) n j) fun _ => P :=
  avoids_modifySlot h hj fun _ _ => rfl

/-- A verdict changes no label, and there is none only for a sensor without abbreviation. -/
theorem w1Validate_label {t : Int} {x x' : Sensor} (h : w1Validate t x = .ok x') :
    x'.label = x.label := by
  rcases w1Validate_cases h with ⟨-, rfl⟩ | ⟨-, v, r, rfl⟩ <;> rfl

theorem w1Validate_error {t : Int} {x : Sensor} {e : Stop} (h : w1Validate t x = .error e) :
    e = .nullDeref := by
  cases ha : x.abbrv with
  | some a =>
    obtain ⟨x', hx⟩ := w1Validate_total t x ha
    cases hx.symm.trans h
  | none =>
    simp only [w1Validate, checkSeq, ha] at h
    split at h
    · exact (Except.error.inj h).symm
    · cases h

/-- Storing a value and validating it: the guard must allow for the verdict. -/
theorem avoids_store (h : Guard bad w n P) {j : ℕ} (hj : bad .noSlot → j < w.s.length)
    {f : Sensor → Sensor} (hf : ∀ x, (f x).label = x.label)
    (hlog : ∀ s x t ok, (w.s[j]?).map Sensor.label = some (f x).label → P s →
      P (s.log (.validate n j (f x).value t ok))) :
    Avoids bad P (store n j f) fun _ => P := by
  refine .bind (avoids_modifySlot_of h hj fun x _ => hf x) fun _ => ?_
  refine .bind avoids_getW1 fun w1 => .bind (avoids_slot_of h hj) fun y => .given ?_
  rintro ⟨hlabel, x, rfl⟩
  have hvalid : ∀ e, w1Validate w1.logtime (f x) = .error e → ¬ bad e := by
    intro e he hb
    obtain rfl := w1Validate_error he
    rcases h.bad _ hb with he | he <;> exact absurd he (by decide)
  have hkept : ∀ x' s, w1Validate w1.logtime (f x) = .ok x' → P s →
      P s ∧ (w.s[j]?).map Sensor.label = some x'.label := by
    intro x' s hx' hs
    rw [w1Validate_label hx']
    exact ⟨hs, hlabel⟩
  refine .bind (.lift hvalid hkept) fun x' => .given fun hx' => ?_
  refine .bind (avoids_modifySlot h hj fun y hy => Option.some.inj (hx'.symm.trans hy)) fun _ => ?_
  refine .bind ?_ fun _ => .ite (fun _ => .pure fun _ hs => hs) fun _ =>
    .bind (avoids_w1Replog h) fun _ => .pure fun _ hs => hs
  intro s hs
  constructor
  · intro e he
    exact nomatch he
  · intro u s' hr
    obtain rfl := run_event_ok.mp hr
    exact hlog s x _ _ hlabel hs

end
end
end W1Retap
