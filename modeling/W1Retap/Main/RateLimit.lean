import W1Retap.Main.Steps

/-!
# The rate limit over a run

The rate test compares a reading with `lval` and `ltime`. In every run without a reload
these are the latest accepted reading of the sensor and its time, however many readings
were rejected since, so the limit holds between neighbours of the accepted readings. The
test asks nothing of a reading at the time of the one before, nor after a reading whose
time is not positive.
-/
namespace W1Retap

open Programs

/-- The reading of sensor `j` of device `n` that an event accepts, with its time. -/
def Event.acceptance (n j : ℕ) : Event → Option (ℚ × Int)
  | .validate n' j' raw logtime true => if n' = n ∧ j' = j then some (raw, logtime) else none
  | _ => none

/-- The accepted readings of a sensor, latest first. -/
def accepted (n j : ℕ) (trace : List Event) : List (ℚ × Int) :=
  trace.filterMap (Event.acceptance n j)

/-- From one reading to the other the value changes by at most `roc` a minute. -/
def Gradual (roc : ℚ) (later earlier : ℚ × Int) : Prop :=
  |later.1 - earlier.1| * 60 ≤ roc * (|later.2 - earlier.2| : Int)

instance (roc : ℚ) (later earlier : ℚ × Int) : Decidable (Gradual roc later earlier) :=
  inferInstanceAs (Decidable (_ ≤ _))

/-- What the rate test asks of neighbours: nothing, unless both times are real ones and
the clock has advanced. -/
def RateKept (roc : ℚ) (later earlier : ℚ × Int) : Prop :=
  0 < earlier.2 → earlier.2 < later.2 → Gradual roc later earlier

section
variable {σ : Type}

/-- Consecutively accepted readings of a sensor with a rate limit are related by `R`. -/
def RateLimited (R : ℚ → ℚ × Int → ℚ × Int → Prop) (s : Machine σ) : Prop :=
  ∀ n j x, s.slot? n j = some x → x.has w1Roc = true → (accepted n j s.trace).IsChain (R x.roc)

/-- The memory of a sensor is the latest of its accepted readings. -/
structure Sensor.Tracks (x : Sensor) (acc : List (ℚ × Int)) : Prop where
  last : ∀ r ∈ acc.head?, r = (x.lval, x.ltime)
  limited : x.has w1Roc = true → acc.IsChain (RateKept x.roc)

def Machine.Tracked (s : Machine σ) : Prop :=
  ∀ n j x, s.slot? n j = some x → x.Tracks (accepted n j s.trace)

/-! ## One step -/

variable {P : Event → Prop} {s s' : Machine σ} {n m i j : ℕ} {x' : Sensor}

theorem acceptance_eq_none {e : Event} (he : e.isSensor = false ∨ e.isBus = true) (n j : ℕ) :
    e.acceptance n j = none := by
  cases e <;> first | rfl | simp [Event.isSensor, Event.isBus] at he

theorem accepted_cons {e : Event} (he : e.isSensor = false ∨ e.isBus = true) (t : List Event) :
    accepted n j (e :: t) = accepted n j t :=
  List.filterMap_cons_none (acceptance_eq_none he n j)

theorem accepted_validate (raw : ℚ) (logtime : Int) (t : List Event) :
    accepted n j (.validate n j raw logtime true :: t) = (raw, logtime) :: accepted n j t :=
  List.filterMap_cons_some (if_pos ⟨rfl, rfl⟩)

theorem accepted_validate_of_ne (h : ¬ (m = n ∧ i = j)) (raw : ℚ) (logtime : Int) (v : Bool)
    (t : List Event) :
    accepted n j (.validate m i raw logtime v :: t) = accepted n j t := by
  refine List.filterMap_cons_none ?_
  cases v with
  | true => exact if_neg h
  | false => rfl

/-- The sensor that `x'` was before its device was marked invalid. -/
theorem slot?_setInvalid (h : (s.modifyDev m Device.setInvalid).slot? n j = some x') :
    ∃ x, s.slot? n j = some x ∧ x'.memory = x.memory := by
  obtain ⟨d', hd', hx'⟩ := Option.bind_eq_some_iff.mp h
  rw [Machine.modifyDev_getElem?] at hd'
  by_cases hm : m = n
  · rw [if_pos hm] at hd'
    obtain ⟨d, hd, rfl⟩ := Option.map_eq_some_iff.mp hd'
    rw [Device.setInvalid_getElem?] at hx'
    by_cases hj : j < d.ns
    · rw [if_pos hj] at hx'
      obtain ⟨x, hx, rfl⟩ := Option.map_eq_some_iff.mp hx'
      exact ⟨x, Option.bind_eq_some_iff.mpr ⟨d, hd, hx⟩, rfl⟩
    · rw [if_neg hj] at hx'
      exact ⟨x', Option.bind_eq_some_iff.mpr ⟨d, hd, hx'⟩, rfl⟩
  · rw [if_neg hm] at hd'
    exact ⟨x', Option.bind_eq_some_iff.mpr ⟨d', hd', hx'⟩, rfl⟩

theorem slot?_modifySlot_some {f : Sensor → Sensor}
    (h : (s.modifyDev n (·.modifySlot j f)).slot? n j = some x') :
    ∃ x, s.slot? n j = some x ∧ f x = x' := by
  obtain ⟨d', hd', hx'⟩ := Option.bind_eq_some_iff.mp h
  rw [Machine.modifyDev_getElem?, if_pos rfl] at hd'
  obtain ⟨d, hd, rfl⟩ := Option.map_eq_some_iff.mp hd'
  rw [Device.modifySlot_getElem?, if_pos rfl] at hx'
  obtain ⟨x, hx, hfx⟩ := Option.map_eq_some_iff.mp hx'
  exact ⟨x, Option.bind_eq_some_iff.mpr ⟨d, hd, hx⟩, hfx⟩

/-- What a step does to one sensor: it leaves the memory alone, or it accepts a reading. -/
inductive Remembers (n j : ℕ) (s s' : Machine σ) (x x' : Sensor) : Prop
  | kept : x'.memory = x.memory → accepted n j s'.trace = accepted n j s.trace →
      Remembers n j s s' x x'
  | accepted : x'.config = x.config → Accepts x'.ltime x x'.lval →
      accepted n j s'.trace = (x'.lval, x'.ltime) :: accepted n j s.trace →
      Remembers n j s s' x x'

theorem SensorStep.remembers (h : SensorStep m s s') (hx' : s'.slot? n j = some x') :
    ∃ x, s.slot? n j = some x ∧ Remembers n j s s' x x' := by
  cases h with
  | quiet hq =>
    rw [hq.slot?_eq] at hx'
    refine ⟨x', hx', .kept rfl ?_⟩
    rcases hq.trace with ht | ⟨e, he, ht⟩
    · rw [ht]
    · rw [ht]
      exact accepted_cons (Or.inr he) _
  | port portnum => exact ⟨x', hx', .kept rfl rfl⟩
  | clear =>
    obtain ⟨x, hx, hmem⟩ := slot?_setInvalid hx'
    exact ⟨x, hx, .kept hmem rfl⟩
  | assign i f hf =>
    by_cases hi : m = n ∧ i = j
    · obtain ⟨rfl, rfl⟩ := hi
      obtain ⟨x, hx, rfl⟩ := slot?_modifySlot_some hx'
      exact ⟨x, hx, .kept (hf x).1 rfl⟩
    · rw [Machine.slot?_modifySlot_of_ne hi] at hx'
      exact ⟨x', hx', .kept rfl rfl⟩
  | validate i f y y' hy hf hv =>
    change ((s.modifyDev m _).modifyDev m _).slot? n j = some x' at hx'
    by_cases hi : m = n ∧ i = j
    · obtain ⟨rfl, rfl⟩ := hi
      rw [Machine.slot?_modifySlot_self (Machine.slot?_modifySlot_self hy)] at hx'
      obtain rfl := Option.some.inj hx'
      refine ⟨y, hy, ?_⟩
      have hconfig : (f y).config = y.config := congrArg Prod.fst hf
      rcases w1Validate_cases hv with ⟨hacc, rfl⟩ | ⟨-, v, r, rfl⟩
      · exact .accepted hconfig (accepts_congr hf hacc) (accepted_validate _ _ _)
      · exact .kept hf rfl
    · rw [Machine.slot?_modifySlot_of_ne hi, Machine.slot?_modifySlot_of_ne hi] at hx'
      exact ⟨x', hx', .kept rfl (accepted_validate_of_ne hi _ _ _ _)⟩

/-- An accepted reading keeps the limit to the one remembered. -/
theorem Accepts.rateKept {t : Int} {x : Sensor} {v : ℚ} (h : Accepts t x v)
    (hroc : x.has w1Roc = true) : RateKept x.roc (v, t) (x.lval, x.ltime) := by
  intro hpos hlt
  have hlt' : x.ltime < t := hlt
  have hdt : (0 : ℚ) < (t - x.ltime : Int) := by
    exact_mod_cast sub_pos.mpr hlt'
  have hrate := h.roc hroc hpos hlt'.ne
  rw [rate, div_le_iff₀ hdt] at hrate
  rw [Gradual, abs_of_pos (sub_pos.mpr hlt)]
  exact hrate

theorem Sensor.Tracks.step {x : Sensor} (h : Remembers n j s s' x x')
    (hx : x.Tracks (accepted n j s.trace)) : x'.Tracks (accepted n j s'.trace) := by
  cases h with
  | kept hmem hacc =>
    simp only [Sensor.memory, Sensor.config, Prod.mk.injEq] at hmem
    obtain ⟨⟨-, hflags, -, -, hroc⟩, hlval, hltime⟩ := hmem
    rw [hacc]
    refine ⟨?_, ?_⟩
    · rw [hlval, hltime]
      exact hx.last
    · rw [Sensor.has, hflags, hroc]
      exact hx.limited
  | accepted hconfig hok hacc =>
    simp only [Sensor.config, Prod.mk.injEq] at hconfig
    obtain ⟨-, hflags, -, -, hroc⟩ := hconfig
    rw [hacc]
    refine ⟨fun r hr => (Option.some.inj hr).symm, ?_⟩
    rw [Sensor.has, hflags, hroc]
    intro hlim
    refine List.isChain_cons.mpr ⟨fun r hr => ?_, hx.limited hlim⟩
    rw [hx.last r hr]
    exact hok.rateKept hlim

theorem RunStep.tracked (h : RunStep P s s') (hP : ∀ e, P e → e.isSensor = false)
    (hs : s.Tracked) : s'.Tracked := by
  intro n j x' hx'
  cases h with
  | sensor m hm =>
    obtain ⟨x, hx, hstep⟩ := hm.remembers hx'
    exact (hs n j x hx).step hstep
  | mark e he =>
    rw [Machine.log_trace, accepted_cons (Or.inl (hP e he))]
    exact hs n j x' hx'
  | logtime t => exact hs n j x' hx'

/-! ## A whole run -/

/-- During start-up nothing is read. -/
theorem startup_tracked {drv : Driver σ} {host : Host} {opts : List Opt} {now : Int} {l : Locals}
    (h : (startup drv host opts now).run s = .ok (l, s')) (hs : ∀ n j, accepted n j s.trace = []) :
    s'.Tracked := by
  have hnone : ∀ n j, accepted n j s'.trace = [] := by
    refine Does.keeps (P := fun s => ∀ n j, accepted n j s.trace = [])
      (extends_startup (P := fun e => ∀ n j, e.acceptance n j = none) ?_ opts now) ?_ h hs
    · exact fun e he n j => acceptance_eq_none (Or.inr he) n j
    · intro s s' hstep hs n j
      rcases hstep with ht | ⟨e, he, ht⟩
      · rw [ht]
        exact hs n j
      · rw [ht]
        exact (List.filterMap_cons_none (he n j)).trans (hs n j)
  intro n j x _
  rw [hnone]
  exact ⟨fun r hr => by simp at hr, fun _ => .nil⟩

/-- In every run without SIGHUP the memory of a sensor is the latest of its accepted readings. -/
theorem main_tracked (drv : Driver σ) (host : Host) (opts : List Opt) (start : Int)
    {rounds : List Round} (hhup : ∀ r ∈ rounds, r.hup = false) {bus : σ} {s' : Machine σ}
    (h : (main drv host opts start rounds).run { w1 := {}, bus } = .ok ((), s')) : s'.Tracked := by
  rw [main, run_bind_ok] at h
  obtain ⟨l, s, hstart, h⟩ := h
  have hs : s.Tracked := startup_tracked hstart fun n j => rfl
  have hP : ∀ e : Event, e.isSensor = false → e.isSensor = false := fun _ he => he
  have hloop : Does (RunStep fun e => e.isSensor = false) (do
      let w1 ← getW1
      if l.once = false ∧ w1.delay ≠ 0 then mainLoop drv host rounds) :=
    .bind does_getW1 fun w1 => .ite (fun _ => run_mainLoop hP hhup) fun _ => .pure _
  have hrest : Does (RunStep fun e => e.isSensor = false) (do
      if l.immed then readPass drv 0
      let w1 ← getW1
      if l.once = false ∧ w1.delay ≠ 0 then mainLoop drv host rounds) :=
    .ite (fun _ => .bind (run_readPass hP 0) fun _ => hloop) fun _ => hloop
  exact hrest.keeps (fun s s' hstep => hstep.tracked hP) h hs

end

/-- The thermometer of `s` has the limit of the table, and its two accepted readings break it. -/
def Jumps (a b : ℚ × Int) (s : Machine (List ℚ)) : Prop :=
  (s.slot? 0 0).map (fun x => (x.has w1Roc, x.roc)) = some (true, 5 / 2) ∧
    accepted 0 0 s.trace = [a, b] ∧ ¬ Gradual (5 / 2) a b

instance (a b : ℚ × Int) : DecidablePred (Jumps a b) :=
  fun _ => inferInstanceAs (Decidable (_ ∧ _))

theorem Jumps.not_rateLimited {s : Machine (List ℚ)} {a b : ℚ × Int} (h : Jumps a b s) :
    ¬ RateLimited Gradual s := by
  intro hlim
  obtain ⟨hx, hacc, hnot⟩ := h
  obtain ⟨x, hx, he⟩ := Option.map_eq_some_iff.mp hx
  obtain ⟨hroc, hlimit⟩ := Prod.mk.inj he
  have hchain := hlim 0 0 x hx hroc
  rw [hacc, hlimit] at hchain
  exact hnot (List.isChain_pair.mp hchain)

end W1Retap
