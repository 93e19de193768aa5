import W1Retap.Schedule.Intervals

/-!
# The search of `w1_lcm`

The loop steps through the multiples of the largest entry, as an `int` that wraps,
while they do not exceed the product of all entries, as an `unsigned long` that
wraps too. It always ends, at the latest when `i` has come round to zero. It finds
the least common multiple exactly when neither wrapping gets in the way.
-/
namespace W1Retap

open Programs Multiples

variable {a : List Int} {amax : Int} {prod : ℕ}

theorem countP_mods (i : Int) :
    (a.map fun x => i.tmod x).countP (· = 0) = a.length ↔ ∀ x ∈ a, x ∣ i := by
  rw [← List.length_map (f := fun x => i.tmod x), List.countP_eq_length]
  simp only [List.mem_map, decide_eq_true_eq, forall_exists_index, and_imp,
    forall_apply_eq_imp_iff₂]
  exact forall₂_congr fun x _ => (Int.dvd_iff_tmod_eq_zero).symm

/-- One round, for positive entries. -/
theorem w1LcmLoop_succ (ha : ∀ x ∈ a, 0 < x) (rounds : ℕ) (i : Int) :
    w1LcmLoop a amax prod (rounds + 1) i =
      if toUnsignedLong i ≤ prod then
        if ∀ x ∈ a, x ∣ i then .ok i else w1LcmLoop a amax prod rounds (wrapInt (i + amax))
      else .ok (-1) := by
  rw [w1LcmLoop, mapM_ok (g := fun x => i.tmod x) fun x hx => cMod_pos (ha x hx)]
  change (if _ then (if _ then _ else _) else _) = _
  simp only [countP_mods]

/-! ## The search ends -/

/-- The loop ends if `i` comes round to zero within the rounds left. -/
theorem w1LcmLoop_ends (ha : ∀ x ∈ a, 0 < x) (rounds : ℕ) {i : Int}
    (hi : (2 ^ 32 : Int) ∣ i → i = 0)
    (hz : ∃ j : ℕ, j < rounds ∧ (2 ^ 32 : Int) ∣ i + j * amax) :
    ∃ r, w1LcmLoop a amax prod rounds i = .ok r := by
  induction rounds generalizing i with
  | zero =>
    obtain ⟨j, hj, -⟩ := hz
    omega
  | succ rounds ih =>
    rw [w1LcmLoop_succ ha]
    by_cases hle : toUnsignedLong i ≤ prod
    · rw [if_pos hle]
      by_cases hall : ∀ x ∈ a, x ∣ i
      · exact ⟨i, if_pos hall⟩
      · rw [if_neg hall]
        obtain ⟨j, hj, hdvd⟩ := hz
        cases j with
        | zero =>
          have h0 := hi (by simpa using hdvd)
          exact absurd (fun x _ => h0 ▸ dvd_zero x) hall
        | succ j =>
          have hw := wrapInt_emod (i + amax)
          refine ih (fun h => ?_) ⟨j, by omega, ?_⟩
          · exact wrapInt_eq_zero (by omega)
          · have hsum : i + ((j + 1 : ℕ) : Int) * amax = i + amax + j * amax := by
              push_cast
              ring
            rw [hsum] at hdvd
            omega
    · exact ⟨-1, if_neg hle⟩

/-- `2 ^ 32` rounds are always enough. -/
theorem w1LcmLoop_total (ha : ∀ x ∈ a, 0 < x) :
    ∃ r, w1LcmLoop a amax prod (2 ^ 32) amax = .ok r := by
  rw [show (2 ^ 32 : ℕ) = (2 ^ 32 - 1) + 1 from by norm_num, w1LcmLoop_succ ha]
  by_cases hle : toUnsignedLong amax ≤ prod
  · rw [if_pos hle]
    by_cases hall : ∀ x ∈ a, x ∣ amax
    · exact ⟨_, if_pos hall⟩
    · rw [if_neg hall]
      have hw := wrapInt_emod (amax + amax)
      refine w1LcmLoop_ends ha _ (fun h => wrapInt_eq_zero (by omega)) ⟨2 ^ 32 - 2, by norm_num, ?_⟩
      have hz : (2 ^ 32 : Int) ∣ (amax + amax) + ((2 ^ 32 - 2 : ℕ) : Int) * amax :=
        ⟨amax, by push_cast; ring⟩
      omega
  · exact ⟨-1, if_neg hle⟩

theorem w1Lcm_total (hne : a ≠ []) (ha : ∀ x ∈ a, 0 < x) : ∃ r, w1Lcm a = .ok r := by
  cases a with
  | nil => exact absurd rfl hne
  | cons x a => exact w1LcmLoop_total ha

/-- Copies of one number are decided in the first round, whatever its sign. -/
theorem w1Lcm_const {x : Int} (hne : a ≠ []) (hx : x ≠ 0) (ha : ∀ y ∈ a, y = x) :
    w1Lcm a = .ok x ∨ w1Lcm a = .ok (-1) := by
  cases a with
  | nil => exact absurd rfl hne
  | cons y b =>
    obtain rfl := ha y (by simp)
    have hmax : (y :: b).foldl max y = y := by
      have := foldl_max_mem (y :: b) (s := [y]) (a := y) (by simp) fun z hz => by simp [ha z hz]
      simpa using this
    have hmods : (y :: b).mapM (cMod y) = .ok ((y :: b).map fun _ => 0) :=
      mapM_ok fun z hz => by rw [ha z hz, cMod_self hx]
    rw [w1Lcm]
    simp only [hmax]
    rw [show (2 ^ 32 : ℕ) = (2 ^ 32 - 1) + 1 from by norm_num, w1LcmLoop, hmods]
    split_ifs
    · left
      change (if _ then _ else _) = _
      rw [if_pos (by rw [← List.length_map (f := fun _ => (0 : Int)), List.countP_eq_length]; simp)]
    · exact Or.inr rfl

/-! ## What the search finds -/

/-- From a multiple of the largest entry below the least common multiple, the loop runs
up to it when it is an `int` within the bound. -/
theorem w1LcmLoop_finds (ha : ∀ x ∈ a, 0 < x) (hmem : amax ∈ a)
    (hint : (a : Multiset ℤ).lcm ≤ intMax) (hprod : (a : Multiset ℤ).lcm ≤ prod)
    (rounds : ℕ) {i : Int} (hi : 0 < i) (hdvd : amax ∣ i) (hle : i ≤ (a : Multiset ℤ).lcm)
    (hr : (a : Multiset ℤ).lcm - i < rounds) :
    w1LcmLoop a amax prod rounds i = .ok (a : Multiset ℤ).lcm := by
  induction rounds generalizing i with
  | zero => omega
  | succ rounds ih =>
    have hmax := ha amax hmem
    have hbound : toUnsignedLong i ≤ prod := by
      rw [toUnsignedLong_of_range hi.le (by unfold intMax at hint; omega)]
      omega
    rw [w1LcmLoop_succ ha, if_pos hbound]
    by_cases hall : ∀ x ∈ a, x ∣ i
    · rw [if_pos hall, le_antisymm hle (lcm_le hi hall)]
    · rw [if_neg hall]
      have hlt : i < (a : Multiset ℤ).lcm := by
        refine lt_of_le_of_ne hle fun he => hall fun x hx => ?_
        rw [he]
        exact dvd_lcm hx
      -- both are multiples of the largest entry, so the next step does not overshoot
      have hstep : i + amax ≤ (a : Multiset ℤ).lcm := by
        have hsub : amax ∣ (a : Multiset ℤ).lcm - i := dvd_sub (dvd_lcm hmem) hdvd
        have := Int.le_of_dvd (by omega) hsub
        omega
      rw [wrapInt_of_range (by omega) (by omega)]
      exact ih (by omega) (dvd_add hdvd dvd_rfl) hstep (by omega)

/-- A positive result was compared with the bound, and is an `int`. -/
theorem w1LcmLoop_bounds (ha : ∀ x ∈ a, 0 < x) (rounds : ℕ) {i r : Int} (hi : i ≤ intMax)
    (h : w1LcmLoop a amax prod rounds i = .ok r) (hr : 0 < r) :
    toUnsignedLong r ≤ prod ∧ r ≤ intMax := by
  induction rounds generalizing i with
  | zero => simp [w1LcmLoop] at h
  | succ rounds ih =>
    rw [w1LcmLoop_succ ha] at h
    split_ifs at h with hle hall
    · obtain rfl := Except.ok.inj h
      exact ⟨hle, hi⟩
    · exact ih (wrapInt_le _) h
    · have := Except.ok.inj h
      omega

/-- `w1_lcm` of positive `int`s is their least common multiple exactly when that is an
`int` not above the wrapped product. -/
theorem w1Lcm_eq_iff (hne : a ≠ []) (ha : ∀ x ∈ a, 0 < x) (hint : ∀ x ∈ a, x ≤ intMax) :
    w1Lcm a = .ok (a : Multiset ℤ).lcm ↔
      (a : Multiset ℤ).lcm ≤ intMax ∧ (a : Multiset ℤ).lcm ≤ wrappedProd a := by
  cases a with
  | nil => exact absurd rfl hne
  | cons x b =>
    have hmem : (x :: b).foldl max x ∈ x :: b :=
      foldl_max_mem _ (by simp) fun y hy => hy
    have hpos := lcm_pos ha
    constructor
    · intro h
      obtain ⟨h₁, h₂⟩ := w1LcmLoop_bounds ha _ (hint _ hmem) h hpos
      rw [toUnsignedLong_of_range hpos.le (by unfold intMax at h₂; omega)] at h₁
      exact ⟨h₂, by omega⟩
    · rintro ⟨h₁, h₂⟩
      refine w1LcmLoop_finds ha hmem h₁ h₂ _ (ha _ hmem) dvd_rfl ?_ ?_
      · exact Int.le_of_dvd hpos (dvd_lcm hmem)
      · have := ha _ hmem
        unfold intMax at h₁
        omega

end W1Retap
