import W1Retap.Schedule.Adjustment

/-!
# The snapshot cycle

`main` writes the snapshot file at the ticks that `w1->cycle` divides. That is right
when `w1->cycle` is the least common multiple of the intervals, and it is exactly
when that number is an `int` and the product that bounds the search, taken modulo
`2 ^ 64`, has not fallen below it.
-/
namespace W1Retap

open Programs Multiples

/-- The cycle is the least common multiple of the intervals, so at its multiples every
device is due. -/
structure CycleCorrect (w1 : DevList) : Prop where
  pos : 0 < w1.cycle
  lcm : w1.cycle = (w1.requests : Multiset ℤ).lcm
  multiple : ∀ d ∈ w1.devs, d.intvl ∣ w1.cycle
  allDue : ∀ secs, secs.tmod w1.cycle = 0 → ∀ d ∈ w1.devs, d.due secs = true

theorem due_of_dvd {d : Device} {secs : Int} (h : d.intvl ∣ secs) : d.due secs = true := by
  simp [Device.due, Int.tmod_eq_zero_of_dvd h]

theorem cycleCorrect_of_lcm {w1 : DevList} (hpos : ∀ x ∈ w1.requests, 0 < x)
    (h : w1.cycle = (w1.requests : Multiset ℤ).lcm) : CycleCorrect w1 := by
  have hdvd : ∀ d ∈ w1.devs, d.intvl ∣ w1.cycle := by
    intro d hd
    rw [h]
    exact dvd_lcm (List.mem_map_of_mem hd)
  refine ⟨by rw [h]; exact lcm_pos hpos, h, hdvd, ?_⟩
  intro secs hs d hd
  apply due_of_dvd
  exact (hdvd d hd).trans (Int.dvd_of_tmod_eq_zero hs)

/-! ## The wrapped product -/

theorem toUnsignedLong_modEq (x : Int) : (toUnsignedLong x : Int) ≡ x [ZMOD 2 ^ 64] := by
  rw [toUnsignedLong, Int.toNat_of_nonneg (Int.emod_nonneg _ (by norm_num))]
  exact Int.mod_modEq _ _

theorem foldl_prod_modEq (b : List Int) (p : ℕ) :
    ((b.foldl (fun prod x => prod * toUnsignedLong x % 2 ^ 64) p : ℕ) : Int) ≡ p * b.prod
      [ZMOD 2 ^ 64] := by
  induction b generalizing p with
  | nil => simp [Int.ModEq.refl]
  | cons x b ih =>
    have hstep : ((p * toUnsignedLong x % 2 ^ 64 : ℕ) : Int) ≡ p * x [ZMOD 2 ^ 64] := by
      push_cast
      exact (Int.mod_modEq _ _).trans ((toUnsignedLong_modEq x).mul_left _)
    have h := (ih _).trans (hstep.mul_right b.prod)
    rwa [Int.mul_assoc, ← List.prod_cons] at h

theorem foldl_prod_lt (b : List Int) {p : ℕ} (hp : p < 2 ^ 64) :
    b.foldl (fun prod x => prod * toUnsignedLong x % 2 ^ 64) p < 2 ^ 64 := by
  induction b generalizing p with
  | nil => exact hp
  | cons y b ih => exact ih (Nat.mod_lt _ (by norm_num))

/-- The bound of the search is the product of the entries modulo `2 ^ 64`. -/
theorem wrappedProd_eq (a : List Int) : (wrappedProd a : Int) = a.prod % 2 ^ 64 := by
  have hlt : wrappedProd a < 2 ^ 64 := foldl_prod_lt a (by norm_num)
  have hmod : (wrappedProd a : Int) ≡ a.prod [ZMOD 2 ^ 64] := by
    have h := foldl_prod_modEq a 1
    rwa [Nat.cast_one, Int.one_mul] at h
  rw [← hmod.eq]
  exact (Int.emod_eq_of_lt (by omega) (by exact_mod_cast hlt)).symm

/-! ## When the cycle is right -/

/-- The cycle is right exactly when the least common multiple of the adjusted intervals
is an `int` and does not exceed the wrapped product of those intervals. -/
theorem w1VerifyIntervals_cycle_iff (w1 : DevList) (hne : w1.devs ≠ []) (hd : 1 ≤ w1.delay)
    (hint : w1.delay ≤ intMax) :
    (∃ w1', w1VerifyIntervals w1 = .ok w1' ∧ CycleCorrect w1') ↔
      (w1.adjusted : Multiset ℤ).lcm ≤ intMax ∧
        (w1.adjusted : Multiset ℤ).lcm ≤ w1.adjusted.prod % 2 ^ 64 := by
  have hpos := adjusted_pos hd
  rw [← wrappedProd_eq, ← w1Lcm_eq_iff (adjusted_ne_nil hne) hpos (adjusted_le_intMax hd hint)]
  obtain ⟨cycle, hc, hok⟩ := w1VerifyIntervals_ok hne (show w1.delay ≠ 0 by omega)
  have hreq := requests_adjustDevs w1 w1.delay
  constructor
  · rintro ⟨w1', h, hcorrect⟩
    obtain rfl := Except.ok.inj (hok.symm.trans h)
    have hl := hcorrect.lcm
    simp only [DevList.requests, hreq] at hl
    rw [hc, hl]
    rfl
  · intro hl
    refine ⟨_, hok, cycleCorrect_of_lcm ?_ ?_⟩
    · intro x hx
      apply hpos
      rwa [DevList.adjusted, ← hreq]
    · simp only [DevList.requests, hreq]
      exact Except.ok.inj (hc.symm.trans hl)

theorem w1VerifyIntervals_cycle_iff_pair :
    let w1 : DevList := { delay := 120, devs := [{ intvl := 0 }, { intvl := 60 }] }
    (∃ w1', w1VerifyIntervals w1 = .ok w1' ∧ CycleCorrect w1') ↔
      (w1.adjusted : Multiset ℤ).lcm ≤ intMax ∧
        (w1.adjusted : Multiset ℤ).lcm ≤ w1.adjusted.prod % 2 ^ 64 :=
  w1VerifyIntervals_cycle_iff _ (by simp) (by decide) (by decide)

/-- Twenty-two devices at the default delay and one read every minute. -/
def crowdedBus : DevList :=
  { delay := w1DefaultIntvl, devs := { intvl := 60 } :: List.replicate 22 {} }

/-- The product of the intervals of `crowdedBus` is a multiple of `2 ^ 64`, so the search
does not even start: the cycle is -1 and the snapshot is written every minute, although
most devices are read every two minutes. -/
theorem crowdedBus_cycle :
    (∃ w1', w1VerifyIntervals crowdedBus = .ok w1' ∧ w1'.cycle = -1 ∧
      (60 : Int).tmod w1'.cycle = 0 ∧ ∃ d ∈ w1'.devs, d.due 60 = false) ∧
    ¬ ∃ w1', w1VerifyIntervals crowdedBus = .ok w1' ∧ CycleCorrect w1' := by
  obtain ⟨cycle, hc, hok⟩ := w1VerifyIntervals_ok
    (show crowdedBus.devs ≠ [] by decide) (show crowdedBus.delay ≠ 0 by decide)
  have hcycle : cycle = -1 :=
    Except.ok.inj (hc.symm.trans (show w1Lcm crowdedBus.adjusted = .ok (-1) by decide +kernel))
  subst hcycle
  refine ⟨⟨_, hok, rfl, by decide, ?_⟩, ?_⟩
  · decide +kernel
  · rintro ⟨w1', h, hcorrect⟩
    obtain rfl := Except.ok.inj (hok.symm.trans h)
    exact absurd hcorrect.pos (by decide)

end W1Retap
