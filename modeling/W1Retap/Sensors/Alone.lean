import W1Retap.Sensors.Setup

/-!
# A device alone on the bus

To show that a reader really gets somewhere, it is run on a device that is alone on a bus
where it is always found, and whose ROM code has been made and calibration done before.
-/
namespace W1Retap

open Programs

section
variable {σ : Type}

/-- The only device has been set up as `w` and initialised, and these events have happened. -/
structure Alone (w : Device) (seen : List Event) (s : Machine σ) : Prop where
  dev : ∃ d, s.w1.devs = [d] ∧ d.setup = w.setup ∧ d.stype = w.stype ∧ d.coupler = none ∧ d.init = 2
  seen : ∀ e ∈ seen, e ∈ s.trace

/-- The bus on which every device is found. -/
def Driver.Finds (drv : Driver σ) : Prop :=
  ∀ (serno : Serno) b, (drv.owSearch serno.family serno b).1.contains serno = true

section
variable {w : Device} {seen : List Event} {s s' : Machine σ}

theorem Alone.setUp (h : Alone w seen s) : SetUp w 0 s := by
  obtain ⟨d, hd, hw, -⟩ := h.dev
  exact ⟨d, by rw [hd]; rfl, hw⟩

theorem Alone.tail {e : Event} (h : Alone w (e :: seen) s) : Alone w seen s :=
  ⟨h.dev, fun e' he' => h.seen e' (List.mem_cons_of_mem e he')⟩

theorem Alone.setBus (h : Alone w seen s) (b : σ) : Alone w seen (s.setBus b) := ⟨h.dev, h.seen⟩

theorem Alone.log (h : Alone w seen s) (e : Event) : Alone w (e :: seen) (s.log e) := by
  refine ⟨h.dev, ?_⟩
  intro e' he'
  rcases List.mem_cons.mp he' with rfl | he'
  · exact List.mem_cons_self
  · exact List.mem_cons_of_mem e (h.seen e' he')

theorem Alone.modifyDev (h : Alone w seen s) {f : Device → Device}
    (hf : ∀ d, s.w1.devs = [d] → d.setup = w.setup → (f d).setup = d.setup ∧
      (f d).stype = d.stype ∧ (f d).coupler = d.coupler ∧ (f d).init = d.init) :
    Alone w seen (s.modifyDev 0 f) := by
  obtain ⟨d, hd, hsetup, hstype, hcoupler, hinit⟩ := h.dev
  obtain ⟨hsetup', hstype', hcoupler', hinit'⟩ := hf d hd hsetup
  refine ⟨⟨f d, ?_, hsetup'.trans hsetup, hstype'.trans hstype, hcoupler'.trans hcoupler,
    hinit'.trans hinit⟩, h.seen⟩
  rw [Machine.modifyDev_devs, hd]
  rfl

/-! ## The primitive operations -/

variable {P : Machine σ → Prop}

theorem completes_getW1 : Completes P (getW1 (σ := σ)) fun _ => P :=
  fun s hs => ⟨s.w1, s, rfl, hs⟩

theorem completes_call {α : Type} (f : σ → α × σ) :
    Completes (Alone w seen) (call f) fun a s => Alone w seen s ∧ ∃ b, a = (f b).1 := by
  intro s hs
  exact ⟨_, _, run_call_ok.mpr ⟨rfl, rfl⟩, hs.setBus _, s.bus, rfl⟩

theorem completes_event (e : Event) :
    Completes (Alone w seen) (event (σ := σ) e) fun _ => Alone w (e :: seen) := by
  intro s hs
  exact ⟨(), _, run_event_ok.mpr rfl, hs.log e⟩

theorem completes_dev :
    Completes (Alone w seen) (dev (σ := σ) 0) fun d s => Alone w seen s ∧
      d.setup = w.setup ∧ d.stype = w.stype ∧ d.coupler = none ∧ d.init = 2 := by
  intro s hs
  obtain ⟨d, hd, hw⟩ := hs.dev
  exact ⟨d, s, run_dev_ok.mpr ⟨by rw [hd]; rfl, rfl⟩, hs, hw⟩

theorem completes_slot {j : ℕ} (hj : j < w.s.length) :
    Completes (Alone w seen) (slot (σ := σ) 0 j) fun x s => Alone w seen s ∧
      (w.s[j]?).map Sensor.label = some x.label := by
  intro s hs
  have hlabel := hs.setUp.slot? j
  cases hx : s.slot? 0 j with
  | none =>
    rw [hx, List.getElem?_eq_getElem hj] at hlabel
    exact nomatch hlabel
  | some x =>
    rw [hx] at hlabel
    exact ⟨x, s, run_slot_ok.mpr ⟨hx, rfl⟩, hs, hlabel.symm⟩

theorem completes_modifySlot {j : ℕ} (hj : j < w.s.length) {f : Sensor → Sensor}
    (hf : ∀ x, (w.s[j]?).map Sensor.label = some x.label → (f x).label = x.label) :
    Completes (Alone w seen) (modifySlot (σ := σ) 0 j f) fun _ => Alone w seen := by
  intro s hs
  obtain ⟨x, s₁, hx, -⟩ := completes_slot hj s hs
  obtain ⟨hx, rfl⟩ := run_slot_ok.mp hx
  refine ⟨(), _, run_modifySlot_ok.mpr ⟨by rw [hx]; rfl, rfl⟩, ?_⟩
  refine hs.modifyDev fun d hd hw => ⟨setup_modifySlot fun y hy => hf y ?_, rfl, rfl, rfl⟩
  have hlabel := hs.setUp.slot? j
  rw [Machine.slot?, hd] at hlabel
  rw [← hlabel]
  exact congrArg (Option.map Sensor.label) hy

theorem completes_clearValid {j : ℕ} (hj : j < w.s.length) :
    Completes (Alone w seen) (clearValid (σ := σ) 0 j) fun _ => Alone w seen :=
  completes_modifySlot hj fun _ _ => rfl

theorem completes_w1SetInvalid :
    Completes (Alone w seen) (w1SetInvalid (σ := σ) 0) fun _ => Alone w seen := by
  intro s hs
  exact ⟨(), _, run_modifyDev_ok.mpr rfl, hs.modifyDev fun d _ _ =>
    ⟨setup_setInvalid d, rfl, rfl, rfl⟩⟩

theorem completes_w1Replog : Completes (Alone w seen) (w1Replog (σ := σ)) fun _ => Alone w seen := by
  refine .bind completes_getW1 fun w1 => .forM fun i _ => ?_
  split
  · refine .ite (fun _ => ?_) fun _ => .pure fun _ hs => hs
    exact (completes_event _).conseq (fun _ hs => hs) fun _ _ hs => hs.tail
  · exact .pure fun _ hs => hs

/-! ## The common parts of the readers -/

theorem completes_makeSerial :
    Completes (Alone w seen) (makeSerial (σ := σ) 0) fun _ => Alone w seen := by
  refine .bind completes_dev fun d => .given ?_
  rintro ⟨-, -, -, hinit⟩
  exact .ite (fun h => absurd (hinit.symm.trans h) (by decide)) fun _ => .pure fun _ hs => hs

/-- The device is found. -/
theorem completes_w1SelectDevice {drv : Driver σ} (hdrv : drv.Finds) (hw : w.stype ≠ .coupler) :
    Completes (Alone w seen) (w1SelectDevice drv 0) fun found s => Alone w seen s ∧ found = true := by
  intro s hs
  obtain ⟨d, hd, -, hstype, hcoupler, -⟩ := hs.dev
  have hd0 : s.w1.devs[0]? = some d := by rw [hd]; rfl
  have hloop : ((List.range s.w1.devs.length).forM (switchOff drv none)).run s = .ok (⟨⟩, s) := by
    have hround : (switchOff drv none 0).run s = .ok ((), s) := by
      rw [switchOff, run_dev_bind hd0, if_neg fun h => hw (hstype ▸ h.1)]
      rfl
    rw [hd]
    exact run_forM_cons_ok.mpr ⟨_, s, hround, rfl⟩
  rw [w1SelectDevice, run_getW1_bind, run_dev_bind hd0, hcoupler, Option.map_none,
    run_bind_of_ok hloop]
  exact ⟨_, _, rfl, (hs.log _).tail.setBus _, hdrv d.serno s.bus⟩

/-- A sensor with an abbreviation is given a verdict, which the trace records. -/
theorem completes_store {j : ℕ} (hj : ((w.s[j]?).bind Sensor.abbrv).isSome) {f : Sensor → Sensor}
    (hf : ∀ x, (f x).label = x.label) :
    Completes (Alone w seen) (store (σ := σ) 0 j f) fun _ s =>
      ∃ raw t ok, Alone w (.validate 0 j raw t ok :: seen) s := by
  obtain ⟨y, hy, hy'⟩ : ∃ y, w.s[j]? = some y ∧ y.abbrv.isSome := by
    cases hw : w.s[j]? with
    | none => simp [hw] at hj
    | some y => exact ⟨y, rfl, by simpa [hw] using hj⟩
  have hlt : j < w.s.length := (List.getElem?_eq_some_iff.mp hy).1
  refine .bind (completes_modifySlot hlt fun x _ => hf x) fun _ => .bind completes_getW1 fun w1 => ?_
  refine .bind (completes_slot hlt) fun x => .given fun hlabel => ?_
  obtain ⟨a, ha⟩ : ∃ a, x.abbrv = some a := by
    rw [hy] at hlabel
    have habbrv : y.abbrv = x.abbrv := congrArg Prod.fst (Option.some.inj hlabel)
    exact Option.isSome_iff_exists.mp (habbrv ▸ hy')
  obtain ⟨x', hx'⟩ := w1Validate_total w1.logtime x ha
  refine .bind (.lift hx') fun z => .given fun hz => ?_
  have hkept : ∀ y : Sensor, (w.s[j]?).map Sensor.label = some y.label → z.label = y.label := by
    intro y hy
    rw [hz, w1Validate_label hx']
    exact Option.some.inj (hlabel.symm.trans hy)
  refine .bind (completes_modifySlot hlt hkept) fun _ => .bind (completes_event _) fun _ => ?_
  refine .ite (fun _ => .pure fun _ hs => ⟨_, _, _, hs⟩) fun _ => ?_
  exact .bind completes_w1Replog fun _ => .pure fun _ hs => ⟨_, _, _, hs⟩

end
end
end W1Retap
