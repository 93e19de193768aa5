import W1Retap.Sensors.Steps

/-!
# `w1_read_all_sensors`

A read pass clears `valid` of every sensor and reads the devices that are due, each up
to ten times. `lastVerdict` looks up the last verdict of `w1_validate` on a sensor since
the pass began; after the pass a sensor is valid only if that verdict was an acceptance
and its device was due.
-/
namespace W1Retap

open Programs

section
variable {σ : Type} (drv : Driver σ)

/-- The reader of a device, by its type. -/
def readSensors (n : ℕ) (stype : W1Type) : M σ Int :=
  match stype with
  | .temp => w1ReadTemp drv n
  | .humid => w1ReadHumidity drv n
  | .pres => w1ReadPressure drv n
  | .counter => w1ReadCounter drv n
  | .bray => w1ReadBray drv n
  | .hbbaro => w1ReadHbPressure drv n
  | .sht11 => w1ReadSht11 drv n
  | .windvane => w1ReadWindvane drv n
  | .ds2438v => do return (← w1ReadVoltages drv n none).1
  | .hih => w1ReadHih drv n
  | .ds2760 => w1ReadDs2760 drv n
  | .ds2450 => w1ReadDs2450 drv n
  | .msTc => w1ReadCurrent drv n
  | .ds1921 => w1ReadDs1921 drv n
  | .ds1923 => w1ReadDs1923 drv n
  | .hbuv => w1ReadHbuv drv n
  | .hbht => w1ReadHbht drv n
  | .invalid | .coupler => pure (-1)

/-- The retry loop, with the attempts that are left. -/
def readRetrying (n : ℕ) (stype : W1Type) : ℕ → M σ Int
  | 0 => return 0
  | rtry + 1 => do
    let r ← readSensors drv n stype
    if r ≠ 0 then
      return r
    else
      w1Replog
      readRetrying n stype rtry

/-- One device of the pass; the result is what it adds to the count of readings. -/
def readDevice (secs : Int) (n : ℕ) : M σ Int := do
  w1SetInvalid n
  let d ← dev n
  if d.due secs then
    event (.read n secs)
    let r ← readRetrying drv n d.stype w1Retry
    return if 0 ≤ r then r else 0
  else
    return 0

def readDevices (secs : Int) : List ℕ → M σ Int
  | [] => return 0
  | n :: ns => do
    let r ← readDevice drv secs n
    return r + (← readDevices secs ns)

/-- Acquire the interface when it is not held; a failure ends the program. -/
def acquire : M σ Unit := do
  let w1 ← getW1
  if w1.portnum = -1 then
    let portnum ← call (drv.owAcquireEx w1.iface)
    modifyW1 fun w1 => { w1 with portnum }
    if portnum < 0 then throw .exit else event .acquire

def w1ReadAllSensors (secs : Int) : M σ Int := do
  let w1 ← getW1
  if w1.doread then
    event (.readAll secs)
    acquire drv
    let nv ← readDevices drv secs (List.range w1.devs.length)
    w1AllCouplersOff drv
    return nv
  else
    return 0

end

/-! ## Verdicts of a pass -/

/-- The last verdict on a sensor since the latest read pass began. -/
def lastVerdict (n j : ℕ) : List Event → Option Bool
  | [] => none
  | .readAll _ :: _ => none
  | .validate n' j' _ _ accepted :: t =>
    if n' = n ∧ j' = j then some accepted else lastVerdict n j t
  | _ :: t => lastVerdict n j t

section
variable {σ : Type} {drv : Driver σ} {n : ℕ}

section
variable {R : Machine σ → Machine σ → Prop} [DriverSteps drv R] [WireSteps R] [TouchSteps n R]
  [ReaderSteps n R]

theorem does_readSensors (stype : W1Type) : Does R (readSensors drv n stype) := by
  cases stype with
  | temp => exact does_w1ReadTemp drv
  | humid => exact does_w1ReadHumidity drv
  | pres => exact does_w1ReadPressure drv
  | counter => exact does_w1ReadCounter drv
  | bray => exact does_w1ReadBray drv
  | hbbaro => exact does_w1ReadHbPressure drv
  | sht11 => exact does_w1ReadSht11 drv
  | windvane => exact does_w1ReadWindvane drv
  | ds2438v => exact .bind (does_w1ReadVoltages drv none) fun _ => .pure _
  | hih => exact does_w1ReadHih drv
  | ds2760 => exact does_w1ReadDs2760 drv
  | ds2450 => exact does_w1ReadDs2450 drv
  | msTc => exact does_w1ReadCurrent drv
  | ds1921 => exact does_w1ReadDs1921 drv
  | ds1923 => exact does_w1ReadDs1923 drv
  | hbuv => exact does_w1ReadHbuv drv
  | hbht => exact does_w1ReadHbht drv
  | invalid => exact .pure _
  | coupler => exact .pure _

theorem does_readRetrying (stype : W1Type) (rtry : ℕ) :
    Does R (readRetrying drv n stype rtry) := by
  induction rtry with
  | zero => exact .pure _
  | succ rtry ih =>
    exact .bind (does_readSensors stype) fun _ => .ite (fun _ => .pure _) fun _ =>
      .bind does_w1Replog fun _ => ih

theorem does_readDevice {secs : Int} (hread : ∀ s, R s (s.log (.read n secs))) :
    Does R (readDevice drv secs n) := by
  have hmark : Does R (event (.read n secs)) := by
    intro s u s' h
    obtain rfl := run_event_ok.mp h
    exact .single (hread s)
  refine .bind does_w1SetInvalid fun _ => .bind (does_dev n) fun d => .ite (fun _ => ?_) fun _ => .pure _
  exact .bind hmark fun _ => .bind (does_readRetrying d.stype w1Retry) fun _ => .pure _

end

theorem does_readDevices {R : Machine σ → Machine σ → Prop} [DriverSteps drv R] [BusSteps R]
    [∀ n, ReaderSteps n R] {secs : Int} (hread : ∀ s n, R s (s.log (.read n secs))) (ns : List ℕ) :
    Does R (readDevices drv secs ns) := by
  induction ns with
  | nil => exact .pure _
  | cons n ns ih =>
    exact .bind (does_readDevice fun s => hread s n) fun _ => .bind ih fun _ => .pure _

theorem does_acquireBy {R : Machine σ → Machine σ → Prop} [PortSteps R] [WireSteps R]
    (hacquire : ∀ iface s, R s (s.setBus (drv.owAcquireEx iface s.bus).2)) :
    Does R (acquire drv) := by
  refine .bind does_getW1 fun w1 => .ite (fun _ => .bind (does_call (hacquire _)) fun p => ?_)
    fun _ => .pure _
  exact .bind (does_setPortnum p) fun _ => .ite (fun _ => .throw _) fun _ => does_event rfl

theorem does_acquire {R : Machine σ → Machine σ → Prop} [AnyBus R] [PortSteps R] [BusSteps R] :
    Does R (acquire drv) :=
  does_acquireBy fun _ s => AnyBus.setBus s _

/-! ## What a chain of steps keeps -/

section
variable {s s' : Machine σ}

/-- The settings, but for the port, and the shape of the devices are the same. -/
structure SameShape (s s' : Machine σ) : Prop where
  w1 : s'.w1 = { s.w1 with devs := s'.w1.devs, portnum := s'.w1.portnum }
  devs : s'.w1.devs.map (fun d => (d.ns, d.intvl)) = s.w1.devs.map fun d => (d.ns, d.intvl)

theorem SameShape.refl (s : Machine σ) : SameShape s s := ⟨rfl, rfl⟩

theorem SameShape.trans {s₁ : Machine σ} (h : SameShape s s₁) (h' : SameShape s₁ s') :
    SameShape s s' := by
  refine ⟨?_, h'.devs.trans h.devs⟩
  rw [h'.w1, h.w1]

theorem SameShape.dev {m : ℕ} {d' : Device} (h : SameShape s s')
    (hd' : s'.w1.devs[m]? = some d') :
    ∃ d, s.w1.devs[m]? = some d ∧ d'.ns = d.ns ∧ d'.intvl = d.intvl := by
  have hm := congrArg (·[m]?) h.devs
  simp only [List.getElem?_map, hd', Option.map_some] at hm
  obtain ⟨d, hd, he⟩ := Option.map_eq_some_iff.mp hm.symm
  obtain ⟨hns, hintvl⟩ := Prod.mk.inj he
  exact ⟨d, hd, hns.symm, hintvl.symm⟩

theorem SameShape.length_eq (h : SameShape s s') : s'.w1.devs.length = s.w1.devs.length := by
  simpa using congrArg List.length h.devs

theorem SameShape.modifyDev (s : Machine σ) (m : ℕ) {f : Device → Device}
    (hf : ∀ d, (f d).ns = d.ns ∧ (f d).intvl = d.intvl) : SameShape s (s.modifyDev m f) := by
  refine ⟨rfl, ?_⟩
  apply List.ext_getElem?
  intro k
  rw [List.getElem?_map, List.getElem?_map, Machine.modifyDev_getElem?]
  by_cases hk : m = k
  · rw [if_pos hk]
    cases s.w1.devs[k]? <;> simp [hf]
  · rw [if_neg hk]

theorem SensorStep.sameShape (h : SensorStep n s s') : SameShape s s' := by
  cases h with
  | quiet hq =>
    refine ⟨?_, ?_⟩
    · rw [hq.w1]
    · have := congrArg (List.map fun x => (x.1, x.2.1)) hq.devs
      simpa [List.map_map, Function.comp_def, Device.sensors] using this
  | port portnum => exact ⟨rfl, rfl⟩
  | clear => exact .modifyDev s n fun _ => ⟨rfl, rfl⟩
  | assign j f hf => exact .modifyDev s n fun _ => ⟨rfl, rfl⟩
  | validate j f x x' hx hf hv =>
    have h₁ : SameShape s (s.modifyDev n (·.modifySlot j f)) := .modifyDev s n fun _ => ⟨rfl, rfl⟩
    have h₂ := SameShape.modifyDev (s.modifyDev n (·.modifySlot j f)) n
      (f := (·.modifySlot j fun _ => x')) fun _ => ⟨rfl, rfl⟩
    exact h₁.trans ⟨h₂.w1, h₂.devs⟩

/-- Every sensor of the devices in `A` is valid only by an acceptance of this pass, and
only when its device is due. -/
def Fresh (A : ℕ → Prop) (secs : Int) (s : Machine σ) : Prop :=
  ∀ m d j x, A m → s.w1.devs[m]? = some d → j < d.ns → d.s[j]? = some x → x.valid = true →
    d.due secs = true ∧ lastVerdict m j s.trace = some true

theorem lastVerdict_isBus {e : Event} (he : e.isBus = true) (m j : ℕ) (t : List Event) :
    lastVerdict m j (e :: t) = lastVerdict m j t := by
  cases e <;> simp [Event.isBus] at he <;> rfl

theorem due_congr {d d' : Device} (h : d'.intvl = d.intvl) (secs : Int) :
    d'.due secs = d.due secs := by
  simp [Device.due, h]

/-- The sensors of a device that was not touched are as fresh as before. -/
theorem Fresh.of_devs {A : ℕ → Prop} {secs : Int} (h : Fresh A secs s)
    (hdevs : ∀ m d', A m → s'.w1.devs[m]? = some d' →
      ∃ d, s.w1.devs[m]? = some d ∧ d'.sensors = d.sensors)
    (htrace : ∀ m j, A m → lastVerdict m j s'.trace = lastVerdict m j s.trace) :
    Fresh A secs s' := by
  intro m d' j x hA hd' hj hx hv
  obtain ⟨d, hd, he⟩ := hdevs m d' hA hd'
  simp only [Device.sensors, Prod.mk.injEq] at he
  obtain ⟨hns, hintvl, hs⟩ := he
  rw [htrace m j hA, due_congr hintvl]
  exact h m d j x hA hd (hns ▸ hj) (hs ▸ hx) hv

/-- One step of the reader of a due device. -/
theorem SensorStep.fresh {A : ℕ → Prop} {secs : Int} (h : SensorStep n s s')
    (hdue : ∀ d, s.w1.devs[n]? = some d → d.due secs = true) (hs : Fresh A secs s) :
    Fresh A secs s' := by
  cases h with
  | quiet hq =>
    refine hs.of_devs ?_ ?_
    · intro m d' _ hd'
      have hm := congrArg (·[m]?) hq.devs
      simp only [List.getElem?_map, hd', Option.map_some] at hm
      obtain ⟨d, hd, he⟩ := Option.map_eq_some_iff.mp hm.symm
      exact ⟨d, hd, he.symm⟩
    · intro m j _
      rcases hq.trace with ht | ⟨e, he, ht⟩
      · rw [ht]
      · rw [ht, lastVerdict_isBus he]
  | port portnum => exact hs.of_devs (fun _ d' _ hd' => ⟨d', hd', rfl⟩) fun _ _ _ => rfl
  | clear =>
    intro m d' j x hA hd' hj hx hv
    rw [Machine.modifyDev_getElem?] at hd'
    by_cases hm : n = m
    · rw [if_pos hm] at hd'
      obtain ⟨d, hd, rfl⟩ := Option.map_eq_some_iff.mp hd'
      rw [Device.setInvalid_getElem?, if_pos (show j < d.ns from hj)] at hx
      obtain ⟨y, -, rfl⟩ := Option.map_eq_some_iff.mp hx
      simp at hv
    · rw [if_neg hm] at hd'
      exact hs m d' j x hA hd' hj hx hv
  | assign j f hf =>
    intro m d' k x hA hd' hk hx hv
    rw [Machine.modifyDev_getElem?] at hd'
    by_cases hm : n = m
    · rw [if_pos hm] at hd'
      obtain ⟨d, hd, rfl⟩ := Option.map_eq_some_iff.mp hd'
      rw [Device.modifySlot_getElem?] at hx
      by_cases hjk : j = k
      · rw [if_pos hjk] at hx
        obtain ⟨y, hy, rfl⟩ := Option.map_eq_some_iff.mp hx
        exact hs m d k y hA hd hk hy ((hf y).2 hv)
      · rw [if_neg hjk] at hx
        exact hs m d k x hA hd hk hx hv
    · rw [if_neg hm] at hd'
      exact hs m d' k x hA hd' hk hx hv
  | validate j f y x' hy hf hval =>
    intro m d' k x hA hd' hk hx hv
    rw [Machine.log_w1, Machine.modifyDev_getElem?, Machine.modifyDev_getElem?] at hd'
    simp only [Machine.log_trace, Machine.modifyDev_trace, lastVerdict]
    by_cases hm : n = m
    · rw [if_pos hm, if_pos hm, Option.map_map] at hd'
      obtain ⟨d, hd, rfl⟩ := Option.map_eq_some_iff.mp hd'
      subst hm
      have hdd : d.due secs = true := hdue d hd
      by_cases hjk : j = k
      · subst hjk
        refine ⟨hdd, ?_⟩
        simp only [Function.comp_apply, Device.modifySlot_getElem?, if_true, Option.map_map] at hx
        obtain ⟨z, -, rfl⟩ := Option.map_eq_some_iff.mp hx
        rw [if_pos ⟨rfl, rfl⟩]
        exact congrArg some hv
      · rw [if_neg fun h => hjk h.2]
        simp only [Function.comp_apply, Device.modifySlot_getElem?, if_neg hjk] at hx
        exact hs n d k x hA hd hk hx hv
    · rw [if_neg hm, if_neg hm] at hd'
      rw [if_neg fun h => hm h.1]
      exact hs m d' k x hA hd' hk hx hv

/-- A whole reader of a due device. -/
theorem Does.fresh {A : ℕ → Prop} {secs : Int} {α : Type} {m : M σ α} {a : α}
    (hm : Does (SensorStep n) m) (h : m.run s = .ok (a, s'))
    (hdue : ∀ d, s.w1.devs[n]? = some d → d.due secs = true) (hs : Fresh A secs s) :
    Fresh A secs s' ∧ SameShape s s' := by
  let P (t : Machine σ) : Prop := Fresh A secs t ∧ SameShape s t
  refine Does.keeps (P := P) hm ?_ h ⟨hs, .refl s⟩
  rintro t t' hstep ⟨hfresh, hshape⟩
  refine ⟨hstep.fresh ?_ hfresh, hshape.trans hstep.sameShape⟩
  intro d hd
  obtain ⟨d₀, hd₀, -, hintvl⟩ := hshape.dev hd
  rw [due_congr hintvl]
  exact hdue d₀ hd₀

/-! ## The pass -/

variable {A : ℕ → Prop} {secs : Int}

/-- One device of the pass joins the fresh ones. -/
theorem readDevice_fresh {r : Int} (hs : Fresh A secs s)
    (h : (readDevice drv secs n).run s = .ok (r, s')) :
    Fresh (fun m => A m ∨ m = n) secs s' ∧ SameShape s s' := by
  rw [readDevice, run_bind_ok] at h
  obtain ⟨_, s₁, h₁, h⟩ := h
  obtain rfl := run_modifyDev_ok.mp h₁
  have hshape : SameShape s (s.modifyDev n Device.setInvalid) := .modifyDev s n fun _ => ⟨rfl, rfl⟩
  have hclear : Fresh (fun m => A m ∨ m = n) secs (s.modifyDev n Device.setInvalid) := by
    intro m d' j x hA hd' hj hx hv
    rw [Machine.modifyDev_getElem?] at hd'
    by_cases hm : n = m
    · rw [if_pos hm] at hd'
      obtain ⟨d, -, rfl⟩ := Option.map_eq_some_iff.mp hd'
      rw [Device.setInvalid_getElem?, if_pos (show j < d.ns from hj)] at hx
      obtain ⟨y, -, rfl⟩ := Option.map_eq_some_iff.mp hx
      simp at hv
    · rw [if_neg hm] at hd'
      exact hs m d' j x (hA.resolve_right fun h => hm h.symm) hd' hj hx hv
  rw [run_dev_bind_ok] at h
  obtain ⟨d, hd, h⟩ := h
  by_cases hdue : d.due secs = true
  · rw [if_pos hdue, run_event_bind, run_bind_ok] at h
    obtain ⟨_, s₂, h₂, h⟩ := h
    obtain ⟨-, rfl⟩ := run_pure_ok.mp h
    have hlog : Fresh (fun m => A m ∨ m = n) secs
        ((s.modifyDev n Device.setInvalid).log (.read n secs)) :=
      hclear.of_devs (fun _ d' _ hd' => ⟨d', hd', rfl⟩) fun _ _ _ => rfl
    obtain ⟨hfresh, hsame⟩ := Does.fresh (does_readRetrying d.stype w1Retry) h₂
      (fun d' hd' => by rw [← Option.some.inj (hd.symm.trans hd')]; exact hdue) hlog
    exact ⟨hfresh, hshape.trans ⟨hsame.w1, hsame.devs⟩⟩
  · rw [if_neg hdue] at h
    obtain ⟨-, rfl⟩ := run_pure_ok.mp h
    exact ⟨hclear, hshape⟩

theorem readDevices_fresh {ns : List ℕ} {r : Int} (hs : Fresh A secs s)
    (h : (readDevices drv secs ns).run s = .ok (r, s')) :
    Fresh (fun m => A m ∨ m ∈ ns) secs s' ∧ SameShape s s' := by
  induction ns generalizing s A r with
  | nil =>
    obtain ⟨-, rfl⟩ := run_pure_ok.mp h
    exact ⟨by simpa using hs, .refl s'⟩
  | cons n ns ih =>
    rw [readDevices, run_bind_ok] at h
    obtain ⟨r₁, s₁, h₁, h⟩ := h
    rw [run_bind_ok] at h
    obtain ⟨r₂, s₂, h₂, h⟩ := h
    obtain ⟨-, rfl⟩ := run_pure_ok.mp h
    obtain ⟨hf₁, hsh₁⟩ := readDevice_fresh hs h₁
    obtain ⟨hf₂, hsh₂⟩ := ih hf₁ h₂
    exact ⟨by simpa [or_assoc] using hf₂, hsh₁.trans hsh₂⟩

/-- A program that touches no sensor keeps the fresh ones: it is the reader of a device
beyond the list. -/
theorem Does.fresh_of_all {α : Type} {m : M σ α} {a : α} (hm : ∀ n, Does (SensorStep n) m)
    (h : m.run s = .ok (a, s')) (hs : Fresh A secs s) : Fresh A secs s' ∧ SameShape s s' :=
  Does.fresh (hm s.w1.devs.length) h (fun d hd => by simp at hd) hs

/-- After a pass a valid sensor was accepted in this pass, and its device was due. -/
theorem w1ReadAllSensors_fresh {nv : Int} (hread : s.w1.doread = true)
    (h : (w1ReadAllSensors drv secs).run s = .ok (nv, s')) :
    Fresh (fun _ => True) secs s' ∧ SameShape s s' := by
  rw [w1ReadAllSensors, run_getW1_bind, if_pos hread, run_event_bind, run_bind_ok] at h
  obtain ⟨_, s₁, h₁, h⟩ := h
  rw [run_bind_ok] at h
  obtain ⟨r, s₂, h₂, h⟩ := h
  rw [run_bind_ok] at h
  obtain ⟨_, s₃, h₃, h⟩ := h
  obtain ⟨-, rfl⟩ := run_pure_ok.mp h
  have hnone : Fresh (fun _ => False) secs (s.log (.readAll secs)) :=
    fun _ _ _ _ hA => absurd hA id
  obtain ⟨hfresh₁, hshape₁⟩ := Does.fresh_of_all (fun _ => does_acquire) h₁ hnone
  obtain ⟨hfresh₂, hshape₂⟩ := readDevices_fresh hfresh₁ h₂
  have hall : Fresh (fun _ => True) secs s₂ := by
    intro m d j x _ hd hj hx hv
    refine hfresh₂ m d j x (Or.inr ?_) hd hj hx hv
    have hm := (List.getElem?_eq_some_iff.mp hd).1
    rw [(hshape₁.trans hshape₂).length_eq] at hm
    exact List.mem_range.mpr hm
  obtain ⟨hfresh, hshape₃⟩ := Does.fresh_of_all (fun n => does_w1AllCouplersOff drv) h₃ hall
  have hshape := (hshape₁.trans hshape₂).trans hshape₃
  exact ⟨hfresh, hshape.w1, hshape.devs⟩

end
end
end W1Retap
