import W1Retap.Main.RateLimit

/-!
# After a rejection

A rejected reading rewrites the value and the reason of a sensor, but never the value and
the time that the rate is computed from. So a reading that is near enough to the last
accepted one, for the time since, is accepted again, whatever was rejected in between.
-/
namespace W1Retap

open Programs Relation

/-! ## Between two verdicts -/

/-- What happens to a sensor while nothing is accepted: a reader assigns its value and its
mark, or a reading is rejected. -/
inductive Rejects : Sensor → Sensor → Prop
  | assign {x x' : Sensor} : x'.memory = x.memory → Rejects x x'
  | reject {x x' : Sensor} {t : Int} : w1Validate t x = .ok x' → x'.valid = false → Rejects x x'

/-- The value lies within the bounds that are configured. -/
structure Sensor.InBounds (x : Sensor) (v : ℚ) : Prop where
  rmin : x.has w1Rmin = true → x.rmin ≤ v
  rmax : x.has w1Rmax = true → v ≤ x.rmax

/-- The sensor has a rate limit, and is no rain gauge. -/
structure Sensor.RateOnly (x : Sensor) : Prop where
  roc : x.has w1Roc = true
  pos : 0 < x.roc
  abbrv : ∃ a, x.abbrv = some a ∧ Sensor.isRgc a = false

/-- Since `v₀` at `t₀` there was time enough for a change to `v`. -/
def Sensor.Allows (x : Sensor) (v₀ : ℚ) (t₀ : Int) (v : ℚ) (t : Int) : Prop :=
  t₀ < t ∧ 60 * |v - v₀| / x.roc ≤ (t - t₀ : Int)

section
variable {x y z : Sensor} {v v₀ : ℚ} {t t₀ : Int}

/-- No rejection moves the memory. -/
theorem Rejects.memory (h : Rejects x y) : y.memory = x.memory := by
  cases h with
  | assign hmem => exact hmem
  | reject hverdict hvalid =>
    rcases w1Validate_cases hverdict with ⟨-, rfl⟩ | ⟨-, v, r, rfl⟩
    · exact nomatch hvalid
    · rfl

theorem rejections_memory (h : ReflTransGen Rejects x y) : y.memory = x.memory := by
  induction h with
  | refl => rfl
  | tail _ hstep ih => exact hstep.memory.trans ih

/-- The rate of an allowed change is within the limit. -/
theorem Sensor.Allows.rate_le (h : x.Allows x.lval x.ltime v t) (hpos : 0 < x.roc) :
    rate t x v ≤ x.roc := by
  obtain ⟨hlt, hle⟩ := h
  have hdt : (0 : ℚ) < (t - x.ltime : Int) := by
    exact_mod_cast sub_pos.mpr hlt
  rw [div_le_iff₀ hpos] at hle
  rw [rate, div_le_iff₀ hdt]
  calc |v - x.lval| * 60 = 60 * |v - x.lval| := mul_comm _ _
    _ ≤ (t - x.ltime : Int) * x.roc := hle
    _ = x.roc * (t - x.ltime : Int) := mul_comm _ _

/-- Such a reading passes every test. -/
theorem Sensor.Allows.accepts (h : x.Allows x.lval x.ltime v t) (hrate : x.RateOnly)
    (hbounds : x.InBounds v) : Accepts t x v where
  rmin := hbounds.rmin
  rmax := hbounds.rmax
  roc := fun _ _ _ => h.rate_le hrate.pos
  seq a ha hrgc := by
    obtain ⟨b, hb, hnot⟩ := hrate.abbrv
    obtain rfl : b = a := Option.some.inj (hb.symm.trans ha)
    exact nomatch hnot.symm.trans hrgc

/-- What passes every test is accepted. -/
theorem validate_of_accepts (hrate : x.RateOnly) (h : Accepts t x x.value) :
    w1Validate t x = .ok (x.accept t) := by
  obtain ⟨a, ha, -⟩ := hrate.abbrv
  obtain ⟨z, hz⟩ := w1Validate_total t x ha
  rcases w1Validate_cases hz with ⟨-, rfl⟩ | ⟨hnot, -⟩
  · exact hz
  · exact absurd h hnot

theorem rateOnly_congr (h : y.config = x.config) (hx : x.RateOnly) : y.RateOnly := by
  simp only [Sensor.config, Prod.mk.injEq] at h
  obtain ⟨habbrv, hflags, -, -, hroc⟩ := h
  refine ⟨?_, hroc ▸ hx.pos, habbrv ▸ hx.abbrv⟩
  rw [Sensor.has, hflags]
  exact hx.roc

/-- After an acceptance and any number of rejections. -/
theorem accepted_after_rejections (h₀ : w1Validate t₀ x = .ok y) (hvalid : y.valid = true)
    (hwait : ReflTransGen Rejects y z) (hrate : x.RateOnly) (hbounds : z.InBounds z.value)
    (hallows : z.Allows x.value t₀ z.value t) : w1Validate t z = .ok (z.accept t) := by
  rcases w1Validate_cases h₀ with ⟨-, rfl⟩ | ⟨-, v, r, rfl⟩
  · have hmem := rejections_memory hwait
    simp only [Sensor.memory, Prod.mk.injEq] at hmem
    obtain ⟨hconfig, hlval, hltime⟩ := hmem
    have hz : z.RateOnly := rateOnly_congr (x := x) (y := z) hconfig hrate
    have hlast : z.lval = x.value ∧ z.ltime = t₀ := ⟨hlval, hltime⟩
    rw [← hlast.1, ← hlast.2] at hallows
    exact validate_of_accepts hz (hallows.accepts hz hbounds)
  · cases hvalid

end

/-! ## In a run -/

/-- A reading for which there was time enough since the last accepted one is accepted: after
any rejections, and so in every state that the program reaches without SIGHUP. -/
theorem never_locked_out :
    (∀ (x y z : Sensor) (t₀ t : Int), w1Validate t₀ x = .ok y → y.valid = true →
      ReflTransGen Rejects y z → x.RateOnly → z.InBounds z.value →
      z.Allows x.value t₀ z.value t → w1Validate t z = .ok (z.accept t)) ∧
    ∀ (σ : Type) (drv : Driver σ) (host : Host) (opts : List Opt) (start : Int)
      (rounds : List Round) (bus : σ) (s' : Machine σ), (∀ r ∈ rounds, r.hup = false) →
      (main drv host opts start rounds).run { w1 := {}, bus } = .ok ((), s') →
      ∀ n j x v₀ t₀ v t, s'.slot? n j = some x → (accepted n j s'.trace).head? = some (v₀, t₀) →
        x.RateOnly → x.InBounds v → x.Allows v₀ t₀ v t →
        ∃ x', w1Validate t { x with value := v } = .ok x' ∧ x'.valid = true ∧ x'.lval = v := by
  constructor
  · intro x y z t₀ t h₀ hvalid hwait hrate hbounds hallows
    exact accepted_after_rejections h₀ hvalid hwait hrate hbounds hallows
  · intro σ drv host opts start rounds bus s' hhup h n j x v₀ t₀ v t hx hlast hrate hbounds hallows
    have htracks := main_tracked drv host opts start hhup h n j x hx
    obtain ⟨rfl, rfl⟩ := Prod.mk.inj (htracks.last (v₀, t₀) hlast)
    have haccepts := hallows.accepts hrate hbounds
    let y : Sensor := { x with value := v }
    have hrate' : y.RateOnly := rateOnly_congr (x := x) (y := y) rfl hrate
    have haccepts' : Accepts t y y.value := accepts_congr (y := x) (x := y) rfl haccepts
    exact ⟨y.accept t, validate_of_accepts hrate' haccepts', rfl, rfl⟩

/-- The greenhouse's thermometer at 20 degrees, when it is about to be validated. -/
def mildAir : Sensor :=
  { abbrv := some "GHT".toList, flags := w1Roc, roc := 5 / 2, value := 20 }

/-- After a jump to 80 degrees was rejected twice, these are accepted half an hour later. -/
theorem never_locked_out_greenhouse : ∃ y z, w1Validate 1000 mildAir = .ok y ∧
    ReflTransGen Rejects y z ∧ z.reason = w1Roc ∧
    w1Validate 2820 { z with value := 80 } = .ok (Sensor.accept { z with value := 80 } 2820) := by
  obtain ⟨hsensor, -⟩ := never_locked_out
  have hrate : mildAir.RateOnly := ⟨by decide, by norm_num [mildAir], _, rfl, by decide⟩
  let y := mildAir.accept 1000
  let z := Sensor.reject { y with value := 80 } 20 w1Roc
  have hy : w1Validate 1000 mildAir = .ok y := by decide +kernel
  have hjump : Rejects y { y with value := 80 } := .assign rfl
  have hreject : Rejects { y with value := 80 } z := .reject (t := 1020) (by decide +kernel) rfl
  have hwait : ReflTransGen Rejects y z := (ReflTransGen.single hjump).tail hreject
  refine ⟨y, z, hy, hwait, rfl, ?_⟩
  refine hsensor mildAir y { z with value := 80 } 1000 2820 hy rfl
    (hwait.tail (.assign rfl)) hrate ⟨fun h => ?_, fun h => ?_⟩ ⟨by norm_num, ?_⟩
  · exact absurd h (by decide)
  · exact absurd h (by decide)
  · norm_num [z, y, mildAir, Sensor.reject, Sensor.accept]

end W1Retap
