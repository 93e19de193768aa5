import W1Retap.Sensors.Setup
import W1Retap.Support.Tally

/-!
# The marks a reader leaves

Every verdict of `w1_validate` and every failed channel is a mark on a sensor, with the
value that was offered. A sensor is valid when its last mark is good, and the value a
reader returns counts the good marks. `Reports` says which sensors a reader marks, with
which values; what is known of the verdicts is a parameter.
-/
namespace W1Retap

open Programs Tally

/-- A mark on a sensor; a failed channel offers no value. -/
abbrev SensorMark := Mark ℕ (Option ℚ)

/-- What is known of the sensors in the slots of a device, and of the verdicts on them. -/
structure Judge where
  law : ℕ → Sensor → Prop
  ok : ℕ → ℚ → Bool → Prop
  memory : ∀ j x x', law j x → x'.memory = x.memory → law j x'
  judges : ∀ j t x x', law j x → w1Validate t x = .ok x' → law j x' ∧ ok j x.value x'.valid

namespace Judge

variable (V : Judge)

def Fits (m : SensorMark) : Prop :=
  match m.value with
  | some v => V.ok m.key v m.ok
  | none => m.ok = false

/-- All verdicts are the judge's, and a value that was just accepted is accepted again. -/
structure Lawful (ms : List SensorMark) : Prop where
  fits : ∀ m ∈ ms, V.Fits m
  again : ∀ pre m post, ms = pre ++ m :: post → last m.key pre = some ⟨m.key, m.value, true⟩ →
    m.ok = true

variable {V} {m : SensorMark} {ms : List SensorMark}

theorem Lawful.nil : V.Lawful [] := ⟨by simp, by simp⟩

theorem Lawful.snoc (h : V.Lawful ms) (hm : V.Fits m)
    (hagain : last m.key ms = some ⟨m.key, m.value, true⟩ → m.ok = true) : V.Lawful (ms ++ [m]) := by
  constructor
  · intro m' hm'
    rcases List.mem_append.mp hm' with hm' | hm'
    · exact h.fits m' hm'
    · rw [List.mem_singleton.mp hm']
      exact hm
  · intro pre m' post heq hlast
    rcases List.eq_nil_or_concat post with rfl | ⟨post', m'', rfl⟩
    · obtain ⟨rfl, hmm⟩ := List.append_inj' heq rfl
      obtain rfl := (List.cons.inj hmm).1
      exact hagain hlast
    · rw [List.concat_eq_append, ← List.cons_append, ← List.append_assoc] at heq
      obtain ⟨rfl, -⟩ := List.append_inj' heq rfl
      exact h.again pre m' post' rfl hlast

end Judge

/-- The sensor that `w1_match_sensor` finds. -/
def Device.finds (d : Device) (name : String) : Option ℕ :=
  match w1MatchSensor d name.toList with
  | .ok r => r
  | .error _ => none

theorem Device.finds_of_ok {d : Device} {name : String} {r : Option ℕ}
    (h : w1MatchSensor d name.toList = .ok r) : d.finds name = r := by
  simp [finds, h]

section
variable {σ : Type}

/-- Device `n`, set up as `w`, has been marked so. -/
structure Tallied (V : Judge) (w : Device) (n : ℕ) (ms : List SensorMark) (s : Machine σ) : Prop where
  setUp : SetUp w n s
  law : ∀ j x, s.slot? n j = some x → V.law j x
  lawful : V.Lawful ms
  shown : ∀ j x, s.slot? n j = some x → (x.valid = true ↔ shows j ms = true)
  again : ∀ j x v, s.slot? n j = some x → last j ms = some ⟨j, some v, true⟩ →
    Accepts s.w1.logtime x v

variable {V : Judge} {w : Device} {n : ℕ} {ms : List SensorMark} {s s' : Machine σ}

/-- The sensors and the time are the same. -/
structure SameSlots (n : ℕ) (s s' : Machine σ) : Prop where
  slot? : ∀ j, s'.slot? n j = s.slot? n j
  logtime : s'.w1.logtime = s.w1.logtime

theorem Quiet.sameSlots (h : Quiet s s') : SameSlots n s s' :=
  ⟨h.slot?_eq n, by rw [h.w1]⟩

theorem Tallied.of_sameSlots (h : Tallied V w n ms s) (hs : SameSlots n s s') (hset : SetUp w n s') :
    Tallied V w n ms s' where
  setUp := hset
  law j x hx := h.law j x (hs.slot? j ▸ hx)
  lawful := h.lawful
  shown j x hx := h.shown j x (hs.slot? j ▸ hx)
  again j x v hx hlast := by
    rw [hs.logtime]
    exact h.again j x v (hs.slot? j ▸ hx) hlast

/-- A new mark: slot `j` now holds `y`, the other slots are as they were. -/
theorem Tallied.mark (h : Tallied V w n ms s) {m : SensorMark} {y : Sensor}
    (hset : SetUp w n s') (hlogtime : s'.w1.logtime = s.w1.logtime)
    (hother : ∀ k, k ≠ m.key → s'.slot? n k = s.slot? n k) (hy : s'.slot? n m.key = some y)
    (hlaw : V.law m.key y) (hlawful : V.Lawful (ms ++ [m])) (hvalid : y.valid = m.ok)
    (hacc : ∀ v, m = ⟨m.key, some v, true⟩ → Accepts s'.w1.logtime y v) :
    Tallied V w n (ms ++ [m]) s' where
  setUp := hset
  law j x hx := by
    by_cases hj : j = m.key
    · subst hj
      exact Option.some.inj (hy.symm.trans hx) ▸ hlaw
    · exact h.law j x (hother j hj ▸ hx)
  lawful := hlawful
  shown j x hx := by
    rw [shows_snoc]
    by_cases hj : m.key = j
    · subst hj
      rw [if_pos rfl, ← Option.some.inj (hy.symm.trans hx), hvalid]
    · rw [if_neg hj]
      exact h.shown j x (hother j (Ne.symm hj) ▸ hx)
  again j x v hx hlast := by
    rw [last_snoc] at hlast
    by_cases hj : m.key = j
    · subst hj
      rw [if_pos rfl] at hlast
      rw [← Option.some.inj (hy.symm.trans hx)]
      exact hacc v (Option.some.inj hlast)
    · rw [if_neg hj] at hlast
      rw [hlogtime]
      exact h.again j x v (hother j (Ne.symm hj) ▸ hx) hlast

/-! ## The primitive operations -/

theorem guard_setUp (w : Device) (n : ℕ) : Guard (σ := σ) (fun _ => False) w n (SetUp w n) where
  bad := fun _ hf => hf.elim
  setUp := fun _ hs => hs
  setBus := fun _ _ hs => hs
  log := fun _ _ _ hs => hs
  modifyDev := fun _ _ _ hf hs => hs.modifyDev hf

/-- Bus traffic leaves no mark. -/
theorem tracks_quiet {α : Type} {m : M σ α} {φ : α → Prop} (hq : Does Quiet m)
    (hset : Avoids (fun _ => False) (SetUp w n) m fun _ => SetUp w n)
    (hφ : ∀ s a s', m.run s = .ok (a, s') → φ a) :
    Tracks (Tallied V w n) ms m fun a ms' => ms' = ms ∧ φ a := by
  intro s a s' hs hr
  have hsame : SameSlots n s s' := by
    refine hq.keeps (P := fun t => SameSlots n s t) ?_ hr ⟨fun _ => rfl, rfl⟩
    intro t t' hstep ht
    have hnext : SameSlots n t t' := hstep.sameSlots
    exact ⟨fun j => (hnext.slot? j).trans (ht.slot? j), hnext.logtime.trans ht.logtime⟩
  have hset' := (hset s hs.setUp).2 a s' hr
  exact ⟨ms, hs.of_sameSlots hsame hset', rfl, hφ s a s' hr⟩

theorem tracks_call {α : Type} (f : σ → α × σ) :
    Tracks (Tallied V w n) ms (call f) fun a ms' => ms' = ms ∧ ∃ b, a = (f b).1 := by
  refine tracks_quiet (does_anyCall f) (avoids_call (guard_setUp w n) f) ?_
  intro s a s' hr
  exact ⟨s.bus, (run_call_ok.mp hr).1⟩

theorem tracks_getW1 :
    Tracks (Tallied V w n) ms (getW1 (σ := σ)) fun _ ms' => ms' = ms ∧ True :=
  tracks_quiet does_getW1 avoids_getW1 fun _ _ _ _ => trivial

theorem tracks_w1Replog :
    Tracks (Tallied V w n) ms (w1Replog (σ := σ)) fun _ ms' => ms' = ms ∧ True :=
  tracks_quiet does_w1Replog (avoids_w1Replog (guard_setUp w n)) fun _ _ _ _ => trivial

theorem tracks_makeSerial :
    Tracks (Tallied V w n) ms (makeSerial (σ := σ) n) fun _ ms' => ms' = ms ∧ True :=
  tracks_quiet (does_makeSerial n) (avoids_makeSerial (guard_setUp w n)) fun _ _ _ _ => trivial

theorem tracks_w1SelectDevice (drv : Driver σ) :
    Tracks (Tallied V w n) ms (w1SelectDevice drv n) fun _ ms' => ms' = ms ∧ True :=
  tracks_quiet (does_w1SelectDevice drv n) (avoids_w1SelectDevice drv (guard_setUp w n))
    fun _ _ _ _ => trivial

theorem tracks_dev :
    Tracks (Tallied V w n) ms (dev (σ := σ) n) fun d ms' => ms' = ms ∧ d.setup = w.setup := by
  intro s d s' hs hr
  obtain ⟨hd, rfl⟩ := run_dev_ok.mp hr
  obtain ⟨d', hd', hw⟩ := hs.setUp
  obtain rfl := Option.some.inj (hd'.symm.trans hd)
  exact ⟨ms, hs, rfl, hw⟩

theorem tracks_slot (j : ℕ) :
    Tracks (Tallied V w n) ms (slot (σ := σ) n j) fun x ms' =>
      ms' = ms ∧ (x.valid = true ↔ shows j ms = true) := by
  intro s x s' hs hr
  obtain ⟨hx, rfl⟩ := run_slot_ok.mp hr
  exact ⟨ms, hs, rfl, hs.shown j x hx⟩

theorem tracks_modifyDev {f : Device → Device} (hf : ∀ d, (f d).setup = d.setup ∧ (f d).s = d.s) :
    Tracks (Tallied V w n) ms (modifyDev (σ := σ) n f) fun _ ms' => ms' = ms ∧ True := by
  intro s u s' hs hr
  obtain rfl := run_modifyDev_ok.mp hr
  refine ⟨ms, hs.of_sameSlots ⟨?_, rfl⟩ (hs.setUp.modifyDev fun d _ => (hf d).1), rfl, trivial⟩
  intro j
  unfold Machine.slot?
  rw [Machine.modifyDev_getElem?, if_pos rfl]
  cases s.w1.devs[n]? with
  | none => rfl
  | some d => simp [(hf d).2]

theorem tracks_matchSensor (name : String) :
    Tracks (Tallied V w n) ms (matchSensor (σ := σ) n name.toList) fun r ms' =>
      ms' = ms ∧ r = w.finds name := by
  refine .bind_keep tracks_dev fun d hd => Tracks.lift.conseq ?_
  rintro r ms' ⟨rfl, hr⟩
  rw [w1MatchSensor_setup hd] at hr
  exact ⟨rfl, (Device.finds_of_ok hr).symm⟩

theorem SetUp.modifySlot (h : SetUp w n s) {j : ℕ} {x : Sensor} {f : Sensor → Sensor}
    (hx : s.slot? n j = some x) (hf : (f x).label = x.label) :
    SetUp w n (s.modifyDev n (·.modifySlot j f)) := by
  apply h.modifyDev
  intro d hd
  apply setup_modifySlot
  intro y hy
  rw [Machine.slot?, hd, Option.bind_some, hy] at hx
  obtain rfl := Option.some.inj hx
  exact hf

/-- Clearing `valid` is a bad mark. -/
theorem tracks_clearValid (j : ℕ) :
    Tracks (Tallied V w n) ms (clearValid (σ := σ) n j) fun _ ms' => ms' = ms ++ [⟨j, none, false⟩] := by
  intro s u s' hs hr
  obtain ⟨hslot, rfl⟩ := run_modifySlot_ok.mp hr
  obtain ⟨x, hx⟩ := Option.isSome_iff_exists.mp hslot
  refine ⟨_, ?_, rfl⟩
  have hlawful : V.Lawful (ms ++ [⟨j, none, false⟩]) := by
    refine hs.lawful.snoc rfl fun hlast => ?_
    have hfits := hs.lawful.fits _ (last_mem hlast).1
    exact absurd hfits (by simp [Judge.Fits])
  refine hs.mark (hs.setUp.modifySlot hx rfl) rfl ?_ (Machine.slot?_modifySlot_self hx)
    (V.memory j x _ (hs.law j x hx) rfl) hlawful rfl ?_
  · intro k hk
    exact Machine.slot?_modifySlot_of_ne fun h => hk h.2.symm
  · intro v hv
    simp at hv

/-- Clearing what is not valid leaves no mark. -/
theorem tracks_clearValid_of_not (j : ℕ) (hj : shows j ms = false) :
    Tracks (Tallied V w n) ms (clearValid (σ := σ) n j) fun _ ms' => ms' = ms ∧ True := by
  intro s u s' hs hr
  obtain ⟨hslot, rfl⟩ := run_modifySlot_ok.mp hr
  obtain ⟨x, hx⟩ := Option.isSome_iff_exists.mp hslot
  refine ⟨ms, ?_, rfl, trivial⟩
  have hvalid : x.valid = false := by
    have hx := hs.shown j x hx
    rw [hj] at hx
    simpa using hx
  have hsame : { x with valid := false } = x := by rw [← hvalid]
  refine hs.of_sameSlots ⟨?_, rfl⟩ (hs.setUp.modifySlot hx rfl)
  intro k
  by_cases hk : k = j
  · subst hk
    rw [Machine.slot?_modifySlot_self hx, hx, hsame]
  · exact Machine.slot?_modifySlot_of_ne fun h => hk h.2.symm

theorem tracks_w1SetInvalid :
    Tracks (Tallied V w n) [] (w1SetInvalid (σ := σ) n) fun _ ms' => ms' = [] ∧ True := by
  intro s u s' hs hr
  obtain rfl := run_modifyDev_ok.mp hr
  refine ⟨[], ?_, rfl, trivial⟩
  refine hs.of_sameSlots ⟨?_, rfl⟩ (hs.setUp.modifyDev fun d _ => setup_setInvalid d)
  intro j
  unfold Machine.slot?
  rw [Machine.modifyDev_getElem?, if_pos rfl]
  cases hd : s.w1.devs[n]? with
  | none => rfl
  | some d =>
    rw [Option.map_some, Option.bind_some, Option.bind_some, Device.setInvalid_getElem?]
    by_cases hj : j < d.ns
    · rw [if_pos hj]
      cases hx : d.s[j]? with
      | none => rfl
      | some x =>
        have hvalid := hs.shown j x (by rw [Machine.slot?, hd, Option.bind_some, hx])
        have hsame : { x with valid := false } = x := by
          rw [← (show x.valid = false by simpa using hvalid)]
        rw [Option.map_some, hsame]
    · rw [if_neg hj]

/-- Assignments that touch neither the memory nor `valid` leave no mark. -/
theorem tracks_modifySlot (j : ℕ) {f : Sensor → Sensor}
    (hf : ∀ x, (f x).memory = x.memory ∧ (f x).label = x.label ∧ (f x).valid = x.valid) :
    Tracks (Tallied V w n) ms (modifySlot (σ := σ) n j f) fun _ ms' => ms' = ms ∧ True := by
  intro s u s' hs hr
  obtain ⟨hslot, rfl⟩ := run_modifySlot_ok.mp hr
  obtain ⟨x, hx⟩ := Option.isSome_iff_exists.mp hslot
  obtain ⟨hmemory, hlabel, hvalid⟩ := hf x
  have hslots : ∀ k y, (s.modifyDev n (·.modifySlot j f)).slot? n k = some y →
      ∃ z, s.slot? n k = some z ∧ y.memory = z.memory ∧ y.valid = z.valid := by
    intro k y hy
    by_cases hk : k = j
    · subst hk
      rw [Machine.slot?_modifySlot_self hx] at hy
      obtain rfl := Option.some.inj hy
      exact ⟨x, hx, hmemory, hvalid⟩
    · rw [Machine.slot?_modifySlot_of_ne fun h => hk h.2.symm] at hy
      exact ⟨y, hy, rfl, rfl⟩
  refine ⟨ms, ⟨hs.setUp.modifySlot hx hlabel, ?_, hs.lawful, ?_, ?_⟩, rfl, trivial⟩
  · intro k y hy
    obtain ⟨z, hz, hmem, -⟩ := hslots k y hy
    exact V.memory k z y (hs.law k z hz) hmem
  · intro k y hy
    obtain ⟨z, hz, -, hval⟩ := hslots k y hy
    rw [hval]
    exact hs.shown k z hz
  · intro k y v hy hlast
    obtain ⟨z, hz, hmem, -⟩ := hslots k y hy
    exact accepts_congr hmem.symm (hs.again k z v hz hlast)

/-- Storing a value and validating it is a mark. -/
theorem tracks_store (j : ℕ) (v : ℚ) {f : Sensor → Sensor}
    (hf : ∀ x, (f x).memory = x.memory ∧ (f x).label = x.label ∧ (f x).value = v) :
    Tracks (Tallied V w n) ms (store (σ := σ) n j f) (Appends ms [(j, some v)]) := by
  intro s r s' hs hr
  rw [store, run_bind_ok] at hr
  obtain ⟨_, s₁, h₁, hr⟩ := hr
  obtain ⟨hslot, rfl⟩ := run_modifySlot_ok.mp h₁
  obtain ⟨x, hx⟩ := Option.isSome_iff_exists.mp hslot
  obtain ⟨hmemory, hlabel, hvalue⟩ := hf x
  rw [run_getW1_bind, run_bind_ok] at hr
  obtain ⟨y, s₂, h₂, hr⟩ := hr
  obtain ⟨hy, rfl⟩ := run_slot_ok.mp h₂
  obtain rfl : f x = y := Option.some.inj ((Machine.slot?_modifySlot_self hx).symm.trans hy)
  rw [run_bind_ok] at hr
  obtain ⟨x', s₃, h₃, hr⟩ := hr
  obtain ⟨hx', rfl⟩ := run_lift_ok.mp h₃
  rw [Machine.modifyDev_logtime] at hx'
  rw [run_bind_ok] at hr
  obtain ⟨_, s₄, h₄, hr⟩ := hr
  obtain ⟨-, rfl⟩ := run_modifySlot_ok.mp h₄
  rw [run_event_bind] at hr
  obtain ⟨hlaw, hok⟩ := V.judges j _ (f x) x' (V.memory j x (f x) (hs.law j x hx) hmemory) hx'
  have hverdict := w1Validate_cases hx'
  rw [hvalue] at hok hverdict
  have hlawful : V.Lawful (ms ++ [⟨j, some v, x'.valid⟩]) := by
    refine hs.lawful.snoc hok fun hlast => ?_
    have hacc := accepts_congr hmemory.symm (hs.again j x v hx hlast)
    rcases hverdict with ⟨-, rfl⟩ | ⟨hrej, -⟩
    · rfl
    · exact absurd hacc hrej
  have hother : ∀ k, k ≠ j → (((s.modifyDev n (·.modifySlot j f)).modifyDev n
      (·.modifySlot j fun _ => x')).log (.validate n j (f x).value s.w1.logtime x'.valid)).slot? n k =
        s.slot? n k := by
    intro k hk
    have hne : ¬ (n = n ∧ j = k) := fun h => hk h.2.symm
    exact (Machine.slot?_modifySlot_of_ne hne).trans (Machine.slot?_modifySlot_of_ne hne)
  have hset := (hs.setUp.modifySlot hx hlabel).modifySlot (f := fun _ => x') hy
    (w1Validate_label hx')
  have hmark : Tallied V w n (ms ++ [⟨j, some v, x'.valid⟩]) (((s.modifyDev n
      (·.modifySlot j f)).modifyDev n (·.modifySlot j fun _ => x')).log
        (.validate n j (f x).value s.w1.logtime x'.valid)) := by
    refine hs.mark hset rfl hother (Machine.slot?_modifySlot_self hy) hlaw hlawful rfl ?_
    intro v' hv'
    obtain ⟨rfl, hvalid⟩ : v = v' ∧ x'.valid = true := by simpa using hv'
    rcases hverdict with ⟨hacc, rfl⟩ | ⟨-, _, _, rfl⟩
    · refine ⟨hacc.rmin, hacc.rmax, fun _ _ hne => absurd rfl hne, fun _ _ _ => ?_⟩
      exact hvalue.le
    · simp [Sensor.reject] at hvalid
  have hend : Tracks (Tallied V w n) (ms ++ [⟨j, some v, x'.valid⟩])
      (if x'.valid = true then pure 1 else do w1Replog; pure 0 : M σ ℕ)
      (Appends ms [(j, some v)]) := by
    refine .ite (fun hvalid => .pure ?_) fun hvalid => .bind_keep tracks_w1Replog fun _ _ => .pure ?_
    · exact ⟨_, rfl, rfl, by simp [hvalid]⟩
    · exact ⟨_, rfl, rfl, by simp [hvalid]⟩
  exact hend _ _ _ hmark hr

/-- What is offered to the sensor that `name` finds. -/
def Device.target (w : Device) (name : String) (v : Option ℚ) : List (ℕ × Option ℚ) :=
  (w.finds name).toList.map (·, v)

theorem tracks_offer (name : String) (v : ℚ) :
    Tracks (Tallied V w n) ms (offer (σ := σ) n name v) (Appends ms (w.target name (some v))) := by
  refine .bind_keep (tracks_matchSensor name) fun r hr => ?_
  rw [Device.target, ← hr]
  cases r with
  | none => exact .pure .refl
  | some j => exact tracks_store j v fun _ => ⟨rfl, rfl, rfl⟩

end
end W1Retap
