import W1Retap.Sensors.History
import W1Retap.Sensors.Stores
import W1Retap.Tables.Counters

/-!
# Counts with an offset

`w1_read_counter` adds the offset of a counter to the count in 32 bits, without a sign, and
converts the sum to a double.
-/
namespace W1Retap

open Programs

/-- What is handed to `w1_validate` for a count. -/
def handed (offset : Option ℚ) (cnt : UInt32) : Except Stop ℚ :=
  (counterOffset offset).map fun off => ((cnt + UInt32.ofInt off).toNat : ℚ)

/-- The calls of `w1_validate` for counts read at these times. -/
def handedCalls (offset : Option ℚ) (counts : List (UInt32 × Int)) : Except Stop (List Call) :=
  counts.mapM fun c => (handed offset c.1).map fun raw => { raw, logtime := c.2 }

/-- The offset of a page applied to counts: each is handed over with the offset added, and
a rain gauge without limits that starts at zero or above takes them all. -/
structure OffsetExact (x : Int) (counts : List (UInt32 × Int)) : Prop where
  handed : ∀ c ∈ counts, ∀ (σ : Type) (drv : Driver σ) (n page j : ℕ) (s : Machine σ) (d : Device)
    (y : Sensor), s.w1.devs[n]? = some d → d.s[j]? = some y → y.abbrv.isSome = true →
    (drv.readCounter d.serno page s.bus).1 = some c.1 →
    (readCounterPage drv n page j (some x)).run s =
      (store n j fun y => { y with valid := true, value := (c.1.toNat + x : Int) }).run
        (s.setBus (drv.readCounter d.serno page s.bus).2)
  accepted : counts.Pairwise (fun c c' => c.1 ≤ c'.1) →
    (∀ c, counts.head? = some c → 0 ≤ c.1.toNat + x) →
    ∃ calls, handedCalls (some (x : ℚ)) counts = .ok calls ∧
      ∀ (y : Sensor) (a : CString), y.abbrv = some a → Sensor.isRgc a = true → y.flags = 0 →
        y.lval = 0 → ∃ y', y.validateAll calls = .ok (y', calls.map Call.raw)

/-! ## The sum -/

theorem toNat_add_ofInt (cnt : UInt32) (x : Int) :
    ((cnt + UInt32.ofInt x).toNat : Int) = (cnt.toNat + x) % 2 ^ 32 := by
  rw [UInt32.toNat_add, UInt32.ofInt, UInt32.toNat_ofNat']
  omega

theorem toNat_add_ofInt_iff (cnt : UInt32) (x : Int) :
    ((cnt + UInt32.ofInt x).toNat : Int) = cnt.toNat + x ↔
      0 ≤ cnt.toNat + x ∧ cnt.toNat + x < 2 ^ 32 := by
  rw [toNat_add_ofInt]
  omega

theorem doubleToInt_int (x : Int) :
    doubleToInt x = if intMin ≤ x ∧ x ≤ intMax then .ok x else .error .intOverflow := by
  rw [doubleToInt]
  simp

/-- The sum is exact when the offset is an `int` and the sum has 32 bits. -/
theorem handed_eq_iff (x : Int) (cnt : UInt32) : handed (some (x : ℚ)) cnt = .ok ((cnt.toNat + x : Int) : ℚ) ↔
    (intMin ≤ x ∧ x ≤ intMax) ∧ 0 ≤ cnt.toNat + x ∧ cnt.toNat + x < 2 ^ 32 := by
  rw [handed, counterOffset, doubleToInt_int, ← toNat_add_ofInt_iff]
  by_cases hx : intMin ≤ x ∧ x ≤ intMax
  · rw [if_pos hx, and_iff_right hx]
    change Except.ok ((cnt + UInt32.ofInt x).toNat : ℚ) = Except.ok _ ↔ _
    rw [Except.ok.injEq, ← Int.cast_natCast, Int.cast_inj]
  · rw [if_neg hx]
    simp [hx, Except.map]

/-! ## The reader -/

/-- A counter that answers is stored with what is handed over for its count. -/
theorem run_readCounterPage {σ : Type} {drv : Driver σ} {n page j : ℕ} {s : Machine σ} {d : Device}
    {y : Sensor} {cnt : UInt32} (offset : Option ℚ) (hd : s.w1.devs[n]? = some d)
    (hy : d.s[j]? = some y) (habbrv : y.abbrv.isSome = true)
    (hcnt : (drv.readCounter d.serno page s.bus).1 = some cnt) :
    (readCounterPage drv n page j offset).run s =
      (do let v ← StateT.lift (handed offset cnt)
          store n j fun y => { y with valid := true, value := v } : M σ ℕ).run
        (s.setBus (drv.readCounter d.serno page s.bus).2) := by
  have hslot : s.slot? n j = some y := by rw [Machine.slot?, hd, Option.bind_some, hy]
  rw [readCounterPage, run_bind_of_ok (run_slot_ok.mpr ⟨hslot, rfl⟩), if_pos habbrv,
    run_dev_bind hd, run_call_bind, hcnt]
  cases offset with
  | none => rfl
  | some x =>
    simp only [handed, counterOffset]
    cases doubleToInt x with
    | error e => exact (run_lift_error_bind e _).trans (run_lift_error_bind e _).symm
    | ok off => exact (run_lift_ok_bind off _).trans (run_lift_ok_bind _ _).symm

/-! ## The sequence -/

theorem handedCalls_ok {x : Int} {counts : List (UInt32 × Int)}
    (h : ∀ c ∈ counts, handed (some (x : ℚ)) c.1 = .ok ((c.1.toNat + x : Int) : ℚ)) :
    handedCalls (some (x : ℚ)) counts =
      .ok (counts.map fun c => { raw := ((c.1.toNat + x : Int) : ℚ), logtime := c.2 }) := by
  apply mapM_ok
  intro c hc
  rw [h c hc]
  rfl

/-- A rain gauge without limits accepts readings that do not decrease. -/
theorem validateAll_nondecreasing {y : Sensor} {a : CString} {calls : List Call}
    (ha : y.abbrv = some a) (hflags : y.flags = 0)
    (hsorted : (y.lval :: calls.map Call.raw).Pairwise (· ≤ ·)) :
    ∃ y', y.validateAll calls = .ok (y', calls.map Call.raw) := by
  induction calls generalizing y with
  | nil => exact ⟨y, rfl⟩
  | cons c cs ih =>
    obtain ⟨y₁, hy₁⟩ := w1Validate_total c.logtime { y with value := c.raw } ha
    have hfirst : y.lval ≤ c.raw := (List.pairwise_cons.mp hsorted).1 _ List.mem_cons_self
    have hno : ∀ flag, ¬ y.has flag = true := by
      intro flag
      rw [Sensor.has, hflags, Nat.zero_and]
      decide
    have haccepts : Accepts c.logtime y c.raw :=
      ⟨fun h => absurd h (hno _), fun h => absurd h (hno _), fun h => absurd h (hno _),
        fun _ _ _ => hfirst⟩
    rcases Sensor.present_cases hy₁ with ⟨-, rfl⟩ | ⟨hnot, -⟩
    · have hrest : (({ y with value := c.raw }.accept c.logtime).lval :: cs.map Call.raw).Pairwise
          (· ≤ ·) := (List.pairwise_cons.mp hsorted).2
      obtain ⟨y', hy'⟩ := ih (y := { y with value := c.raw }.accept c.logtime) ha hflags hrest
      exact ⟨y', Sensor.validateAll_cons.mpr ⟨_, _, hy₁, hy', rfl⟩⟩
    · exact absurd haccepts hnot

/-! ## When the offset is exact -/

/-- A rain gauge on a bus where every counter reads `cnt`. -/
def gaugeDriver (cnt : UInt32) : Driver Unit :=
  { Driver.silent with readCounter := fun _ _ b => (some cnt, b) }

def rainGauge : Machine Unit where
  w1 := { devs := [{ s := [{ abbrv := some "RGC0".toList, name := some "Rain".toList }], ns := 1 }] }
  bus := ()

/-- What the gauge has been handed shows in the trace. -/
theorem rainGauge_store (v : ℚ) : ∃ r s' ok, (store 0 0 fun y => { y with valid := true, value := v }).run
    rainGauge = .ok (r, s') ∧ s'.trace.getLast? = some (.validate 0 0 v 0 ok) := by
  obtain ⟨x', hx'⟩ := w1Validate_total 0
    { abbrv := some "RGC0".toList, name := some "Rain".toList, valid := true, value := v : Sensor } rfl
  obtain ⟨es, -, hrun⟩ := run_store (s := rainGauge) (n := 0) (j := 0)
    (f := fun y => { y with valid := true, value := v }) rfl hx'
  refine ⟨_, _, x'.valid, hrun, ?_⟩
  simp [Machine.put, rainGauge]

theorem OffsetExact.handed_eq {x : Int} {counts : List (UInt32 × Int)} (h : OffsetExact x counts)
    {c : UInt32 × Int} (hc : c ∈ counts) :
    W1Retap.handed (some (x : ℚ)) c.1 = .ok ((c.1.toNat + x : Int) : ℚ) := by
  have hrun := h.handed c hc Unit (gaugeDriver c.1) 0 14 0 rainGauge _ _ rfl rfl rfl rfl
  rw [run_readCounterPage _ rfl rfl rfl rfl] at hrun
  obtain ⟨r, s', ok, hstore, hlast⟩ := rainGauge_store ((c.1.toNat + x : Int) : ℚ)
  rw [show rainGauge.setBus ((gaugeDriver c.1).readCounter _ 14 rainGauge.bus).2 = rainGauge from rfl,
    hstore] at hrun
  cases hv : W1Retap.handed (some (x : ℚ)) c.1 with
  | error e =>
    rw [hv, run_lift_error_bind] at hrun
    exact nomatch hrun
  | ok v =>
    obtain ⟨r', s'', ok', hstore', hlast'⟩ := rainGauge_store v
    rw [hv, run_lift_ok_bind, hstore'] at hrun
    obtain ⟨-, rfl⟩ := Prod.mk.inj (Except.ok.inj hrun)
    rw [hlast] at hlast'
    have hraw := Option.some.inj hlast'
    rw [Event.validate.injEq] at hraw
    rw [hraw.2.2.1]

/-- The offset is applied exactly when it is an `int` and no sum leaves the 32 bits. -/
theorem offset_exact_iff (x : Int) (counts : List (UInt32 × Int)) : OffsetExact x counts ↔
    ∀ c ∈ counts, (intMin ≤ x ∧ x ≤ intMax) ∧ 0 ≤ c.1.toNat + x ∧ c.1.toNat + x < 2 ^ 32 := by
  constructor
  · intro h c hc
    exact (handed_eq_iff x c.1).mp (h.handed_eq hc)
  · intro h
    have hhanded : ∀ c ∈ counts, handed (some (x : ℚ)) c.1 = .ok ((c.1.toNat + x : Int) : ℚ) :=
      fun c hc => (handed_eq_iff x c.1).mpr (h c hc)
    refine ⟨?_, ?_⟩
    · intro c hc σ drv n page j s d y hd hy habbrv hcnt
      rw [run_readCounterPage _ hd hy habbrv hcnt, hhanded c hc, run_lift_ok_bind]
    · intro hsorted hfirst
      refine ⟨_, handedCalls_ok hhanded, ?_⟩
      intro y a ha _ hflags hlval
      apply validateAll_nondecreasing ha hflags
      rw [hlval, List.map_map]
      have hpairwise : (counts.map fun c => ((c.1.toNat + x : Int) : ℚ)).Pairwise (· ≤ ·) := by
        rw [List.pairwise_map]
        refine hsorted.imp fun {c c'} hle => ?_
        have hnat : c.1.toNat ≤ c'.1.toNat := UInt32.le_iff_toNat_le.mp hle
        exact_mod_cast (by omega : (c.1.toNat : Int) + x ≤ c'.1.toNat + x)
      refine List.pairwise_cons.mpr ⟨?_, hpairwise⟩
      intro v hv
      obtain ⟨c, hc, rfl⟩ := List.mem_map.mp hv
      exact Int.cast_nonneg (h c hc).2.1

/-- A count that passes 32 bits with its offset starts again from zero, and the rain gauge
rejects it. -/
theorem offset_wraps : ¬ OffsetExact 10 [(4294967280, 60), (4294967290, 120)] ∧
    handedCalls (some 10) [(4294967280, 60), (4294967290, 120)] =
      .ok [{ raw := 4294967290, logtime := 60 }, { raw := 4, logtime := 120 }] ∧
    ∃ y', Sensor.validateAll { abbrv := some "RGC0".toList }
      [{ raw := 4294967290, logtime := 60 }, { raw := 4, logtime := 120 }] =
        .ok (y', [4294967290]) := by
  refine ⟨?_, by decide +kernel, ⟨_, rfl⟩⟩
  intro h
  have hlast := (handed_eq_iff 10 4294967290).mp (h.handed_eq (c := (4294967290, 120)) (by simp))
  exact absurd hlast.2.2 (by decide)

end W1Retap
