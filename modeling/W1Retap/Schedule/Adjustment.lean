import W1Retap.Schedule.Search

/-!
# What `w1_verify_intervals` does to the schedule

For a nonzero delay and at least one device the function ends with the adjusted
intervals and their tick; in the other cases it divides by zero or reads `a[0]` of
an empty array.
-/
namespace W1Retap

open Programs Multiples

/-- The requested intervals. -/
def DevList.requests (w1 : DevList) : List Int := w1.devs.map (·.intvl)

/-- The intervals that `w1_verify_intervals` settles on, as a function of its input. -/
def DevList.adjusted (w1 : DevList) : List Int :=
  w1.requests.map (adjust w1.delay w1.requests)

/-- How the program treats a request: 0 takes the delay, anything else is raised to
the minimum and capped at the delay. -/
def requestRule (delay r : Int) : Int :=
  if r = 0 then delay else min (max r w1MinIntvl) delay

/-- `d'` is `d` with its request rounded down to a positive multiple of the tick. -/
structure AdjustedTo (delay tick : Int) (d d' : Device) : Prop where
  pos : 0 < d'.intvl
  multiple : tick ∣ d'.intvl
  le : d'.intvl ≤ requestRule delay d.intvl
  lt : requestRule delay d.intvl - tick < d'.intvl

theorem clampIntvl_eq_requestRule (delay r : Int) : clampIntvl delay r = requestRule delay r := by
  simp only [clampIntvl, requestRule, w1MinIntvl]
  split_ifs <;> omega

section
variable {w1 : DevList}

@[simp] theorem requests_adjustDevs (w1 : DevList) (delay : Int) :
    (adjustDevs delay w1.devs).map (·.intvl) = w1.requests.map (adjust delay w1.requests) :=
  adjustDevs_intvl _ _

theorem requests_ne_nil (hne : w1.devs ≠ []) : w1.requests ≠ [] := by
  simpa [DevList.requests] using hne

theorem adjusted_ne_nil (hne : w1.devs ≠ []) : w1.adjusted ≠ [] := by
  simpa [DevList.adjusted] using requests_ne_nil hne

theorem adjusted_pos (hd : 1 ≤ w1.delay) : ∀ x ∈ w1.adjusted, 0 < x := by
  intro x hx
  obtain ⟨r, hr, rfl⟩ := List.mem_map.mp hx
  exact adjust_pos hd hr

theorem adjusted_le_intMax (hd : 1 ≤ w1.delay) (hint : w1.delay ≤ intMax) :
    ∀ x ∈ w1.adjusted, x ≤ intMax := by
  intro x hx
  obtain ⟨r, -, rfl⟩ := List.mem_map.mp hx
  exact ((adjust_le hd).trans clampIntvl_le).trans hint

theorem adjusted_of_neg (hd : w1.delay < 0) : ∀ x ∈ w1.adjusted, x = w1.delay := by
  intro x hx
  obtain ⟨r, -, rfl⟩ := List.mem_map.mp hx
  exact adjust_of_neg hd

theorem w1Lcm_adjusted_total (hne : w1.devs ≠ []) (hd : w1.delay ≠ 0) :
    ∃ cycle, w1Lcm w1.adjusted = .ok cycle := by
  rcases lt_or_gt_of_ne hd with h | h
  · rcases w1Lcm_const (adjusted_ne_nil hne) hd (adjusted_of_neg h) with hc | hc
    · exact ⟨_, hc⟩
    · exact ⟨_, hc⟩
  · exact w1Lcm_total (adjusted_ne_nil hne) (adjusted_pos h)

/-- The gcd of the adjusted intervals is the tick. -/
theorem w1Gcd_adjusted (hne : w1.devs ≠ []) (hd : w1.delay ≠ 0) :
    w1Gcd w1.adjusted = .ok (tick w1.delay w1.requests) := by
  rcases lt_or_gt_of_ne hd with h | h
  · rw [w1Gcd_const (adjusted_ne_nil hne) hd (adjusted_of_neg h), tick_of_neg h]
  · rw [w1Gcd_ok (adjusted_pos h)]
    have hpos := tick_pos w1.requests (show 1 ≤ w1.delay from h)
    congr 1
    apply gcd_eq_of_mem (tick_mem_adjust hd (requests_ne_nil hne))
    · intro x hx
      obtain ⟨r, -, rfl⟩ := List.mem_map.mp hx
      exact tick_dvd_adjust
    · omega

/-- The function on a nonzero delay and at least one device. -/
theorem w1VerifyIntervals_ok (hne : w1.devs ≠ []) (hd : w1.delay ≠ 0) :
    ∃ cycle, w1Lcm w1.adjusted = .ok cycle ∧
      w1VerifyIntervals w1 = .ok { w1 with
        devs := adjustDevs w1.delay w1.devs, cycle, delay := tick w1.delay w1.requests } := by
  obtain ⟨cycle, hc⟩ := w1Lcm_adjusted_total hne hd
  refine ⟨cycle, hc, ?_⟩
  have hg := w1Gcd_adjusted hne hd
  unfold DevList.adjusted at hc hg
  rw [w1VerifyIntervals, passes_ok hd]
  change ((w1Lcm ((adjustDevs w1.delay w1.devs).map (·.intvl))).bind _) = _
  rw [requests_adjustDevs, hc]
  change ((w1Gcd (w1.requests.map (adjust w1.delay w1.requests))).bind _) = _
  rw [hg]
  rfl

/-- A zero delay stays zero through the first pass and is the divisor of the second. -/
theorem w1VerifyIntervals_zero (hne : w1.devs ≠ []) (hd : w1.delay = 0) :
    w1VerifyIntervals w1 = .error .divByZero := by
  have hclamp : ∀ r, clampIntvl 0 r = 0 := by
    intro r
    simp only [clampIntvl, w1MinIntvl]
    split_ifs <;> omega
  have hmin : ∀ (ds : List Device), (ds.map fun d => clampIntvl 0 d.intvl).foldl min 0 = 0 := by
    intro ds
    induction ds with
    | nil => rfl
    | cons d ds ih => simpa [hclamp] using ih
  rw [w1VerifyIntervals, hd, clampLoop_eq, hmin]
  cases hdevs : w1.devs with
  | nil => exact absurd hdevs hne
  | cons d ds =>
    have hfirst : roundIntvl 0 { d with intvl := clampIntvl 0 d.intvl } = .error .divByZero := by
      rw [roundIntvl, cDiv_zero]
      rfl
    simp only [List.map_cons, List.mapM_cons, hfirst]
    rfl

/-- Without devices the search for the largest interval reads past the array. -/
theorem w1VerifyIntervals_nil (hdevs : w1.devs = []) :
    w1VerifyIntervals w1 = .error .outOfBounds := by
  rw [w1VerifyIntervals, hdevs]
  rfl

/-- The schedule after the function: the tick is positive, the least of the new intervals
and their gcd, and every new interval is its request, rounded down to a multiple of the tick. -/
theorem w1VerifyIntervals_adjusts (w1 : DevList) (hne : w1.devs ≠ []) (hd : 1 ≤ w1.delay) :
    ∃ w1', w1VerifyIntervals w1 = .ok w1' ∧ 1 ≤ w1'.delay ∧
      IsLeast {x | x ∈ w1'.requests} w1'.delay ∧
      (w1'.requests : Multiset ℤ).gcd = w1'.delay ∧
      List.Forall₂ (AdjustedTo w1.delay w1'.delay) w1.devs w1'.devs := by
  have hd0 : w1.delay ≠ 0 := by omega
  obtain ⟨cycle, -, hok⟩ := w1VerifyIntervals_ok hne hd0
  have hpos := tick_pos w1.requests hd
  have hreq := requests_adjustDevs w1 w1.delay
  have hmem := tick_mem_adjust hd0 (requests_ne_nil hne)
  refine ⟨_, hok, hpos, ?_, ?_, ?_⟩
  · simp only [DevList.requests, hreq]
    refine ⟨hmem, fun x hx => ?_⟩
    obtain ⟨r, hr, rfl⟩ := List.mem_map.mp hx
    exact Int.le_of_dvd (adjust_pos hd hr) tick_dvd_adjust
  · simp only [DevList.requests, hreq]
    apply gcd_eq_of_mem hmem
    · intro x hx
      obtain ⟨r, -, rfl⟩ := List.mem_map.mp hx
      exact tick_dvd_adjust
    · omega
  · simp only [adjustDevs, List.forall₂_map_right_iff, List.forall₂_same]
    intro d hdm
    refine ⟨adjust_pos hd (List.mem_map_of_mem hdm), tick_dvd_adjust, ?_, ?_⟩
    · rw [← clampIntvl_eq_requestRule]
      exact adjust_le hd
    · rw [← clampIntvl_eq_requestRule]
      exact lt_adjust hd

theorem w1VerifyIntervals_adjusts_three :
    let w1 : DevList := { delay := 120, devs := [{ intvl := 0 }, { intvl := -3 }, { intvl := 25 }] }
    ∃ w1', w1VerifyIntervals w1 = .ok w1' ∧ 1 ≤ w1'.delay ∧
      IsLeast {x | x ∈ w1'.requests} w1'.delay ∧
      (w1'.requests : Multiset ℤ).gcd = w1'.delay ∧
      List.Forall₂ (AdjustedTo w1.delay w1'.delay) w1.devs w1'.devs :=
  w1VerifyIntervals_adjusts _ (by simp) (by decide)

/-- The function gets through exactly when there is a device and the delay is not zero. -/
theorem w1VerifyIntervals_safe_iff (w1 : DevList) :
    (∃ w1', w1VerifyIntervals w1 = .ok w1') ↔ w1.devs ≠ [] ∧ w1.delay ≠ 0 := by
  constructor
  · rintro ⟨w1', h⟩
    by_cases hne : w1.devs = []
    · rw [w1VerifyIntervals_nil hne] at h
      simp at h
    · refine ⟨hne, fun hd => ?_⟩
      rw [w1VerifyIntervals_zero hne hd] at h
      simp at h
  · rintro ⟨hne, hd⟩
    obtain ⟨cycle, -, h⟩ := w1VerifyIntervals_ok hne hd
    exact ⟨_, h⟩

/-- `delay = 0` with one device, and a table without devices. -/
theorem w1VerifyIntervals_unsafe :
    w1VerifyIntervals { delay := 0, devs := [{ intvl := 60 }] } = .error .divByZero ∧
      w1VerifyIntervals { delay := 120, devs := [] } = .error .outOfBounds ∧
      ¬ ∀ w1, ∃ w1', w1VerifyIntervals w1 = .ok w1' := by
  refine ⟨w1VerifyIntervals_zero (by simp) rfl, w1VerifyIntervals_nil rfl, fun h => ?_⟩
  obtain ⟨w1', hw⟩ := h { delay := 120, devs := [] }
  rw [w1VerifyIntervals_nil rfl] at hw
  simp at hw

end
end W1Retap
