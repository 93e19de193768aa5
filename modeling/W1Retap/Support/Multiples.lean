import Mathlib

/-!
# Least elements, common divisors and common multiples of a list

Rounding down to a multiple, the least element found by a fold, and integer lists
whose least element divides all of them.
-/
namespace W1Retap.Multiples

/-! ## Rounding down -/

section Rounding
variable {m c : ℤ}

theorem ediv_mul_pos (hm : 0 < m) (h : m ≤ c) : 0 < c / m * m := by
  have hq : 1 ≤ c / m := (Int.le_ediv_iff_mul_le hm).mpr (by simpa using h)
  exact Int.mul_pos (by omega) hm

theorem sub_lt_ediv_mul (hm : 0 < m) : c - m < c / m * m := by
  have h := Int.lt_ediv_add_one_mul_self c hm
  rw [Int.add_mul, Int.one_mul] at h
  omega

theorem ediv_mul_self (hm : m ≠ 0) : m / m * m = m := by
  rw [Int.ediv_self hm, Int.one_mul]

/-- A list that goes up in steps of `m` holds every multiple of `m` on its way. -/
theorem mem_of_isChain_add {a t : ℤ} {l : List ℤ}
    (hl : (a :: l).IsChain fun x y => y = x + m) (ha : m ∣ a) (ht : m ∣ t) (h₁ : a ≤ t)
    (h₂ : t ≤ (a :: l).getLast (by simp)) : t ∈ a :: l := by
  induction l generalizing a with
  | nil =>
    obtain rfl : t = a := le_antisymm h₂ h₁
    exact List.mem_singleton_self t
  | cons b l ih =>
    obtain ⟨rfl, hl⟩ := List.isChain_cons_cons.mp hl
    by_cases hat : t = a
    · exact hat ▸ List.mem_cons_self
    · have hstep : m ≤ t - a := Int.le_of_dvd (by omega) (dvd_sub ht ha)
      have htail : t ∈ (a + m) :: l := ih hl (dvd_add_self_right.mpr ha) (by omega) h₂
      exact List.mem_cons_of_mem _ htail

end Rounding

/-! ## The least element of a fold -/

section Least
variable {α : Type*} [LinearOrder α]

theorem foldl_min_le_init (l : List α) (a : α) : l.foldl min a ≤ a := by
  induction l generalizing a with
  | nil => exact le_rfl
  | cons x l ih => exact (ih _).trans (min_le_left _ _)

theorem foldl_min_le_mem {l : List α} {x : α} (a : α) (hx : x ∈ l) : l.foldl min a ≤ x := by
  induction l generalizing a with
  | nil => simp at hx
  | cons y l ih =>
    rcases List.mem_cons.mp hx with rfl | hx
    · exact (foldl_min_le_init l _).trans (min_le_right _ _)
    · exact ih _ hx

theorem le_foldl_min {l : List α} {a b : α} (ha : b ≤ a) (h : ∀ x ∈ l, b ≤ x) :
    b ≤ l.foldl min a := by
  induction l generalizing a with
  | nil => exact ha
  | cons x l ih =>
    exact ih (le_min ha (h x (by simp))) fun y hy => h y (by simp [hy])

theorem foldl_min_eq_or_mem (l : List α) (a : α) : l.foldl min a = a ∨ l.foldl min a ∈ l := by
  induction l generalizing a with
  | nil => exact Or.inl rfl
  | cons x l ih =>
    rcases ih (min a x) with h | h
    · rcases min_choice a x with hm | hm
      · exact Or.inl (h.trans hm)
      · exact Or.inr (by rw [List.foldl_cons, h, hm]; exact List.mem_cons_self)
    · exact Or.inr (List.mem_cons_of_mem _ h)

/-- When the start value bounds a nonempty list, the fold finds a member. -/
theorem foldl_min_mem {l : List α} {a : α} (hl : l ≠ []) (h : ∀ x ∈ l, x ≤ a) :
    l.foldl min a ∈ l := by
  rcases foldl_min_eq_or_mem l a with he | hm
  · obtain ⟨x, hx⟩ := List.exists_mem_of_ne_nil l hl
    have hle := (foldl_min_le_mem a hx).trans (h x hx)
    have : x = a := le_antisymm (h x hx) (he ▸ foldl_min_le_mem a hx)
    rw [he, ← this]
    exact hx
  · exact hm

theorem foldl_max_mem (l : List α) {a : α} {s : List α} (ha : a ∈ s) (hl : ∀ x ∈ l, x ∈ s) :
    l.foldl max a ∈ s := by
  induction l generalizing a with
  | nil => exact ha
  | cons x l ih =>
    refine ih ?_ fun y hy => hl y (by simp [hy])
    rcases max_choice a x with h | h
    · rwa [h]
    · rw [h]
      exact hl x (by simp)

end Least

/-! ## Divisors and multiples of a list -/

section Divisors
variable {l : List ℤ}

/-- A member that divides every member is the greatest common divisor. -/
theorem gcd_eq_of_mem {m : ℤ} (hm : m ∈ l) (hd : ∀ x ∈ l, m ∣ x) (h0 : 0 ≤ m) :
    (l : Multiset ℤ).gcd = m := by
  have h₁ : (l : Multiset ℤ).gcd ∣ m := Multiset.gcd_dvd (by simpa using hm)
  have h₂ : m ∣ (l : Multiset ℤ).gcd := Multiset.dvd_gcd.mpr (by simpa using hd)
  have hn : 0 ≤ (l : Multiset ℤ).gcd := by
    rw [← Multiset.normalize_gcd]
    exact Int.nonneg_of_normalize_eq_self (normalize_idem _)
  exact Int.dvd_antisymm hn h0 h₁ h₂

theorem lcm_nonneg (l : List ℤ) : 0 ≤ (l : Multiset ℤ).lcm := by
  rw [← Multiset.normalize_lcm]
  exact Int.nonneg_of_normalize_eq_self (normalize_idem _)

theorem lcm_pos (h : ∀ x ∈ l, 0 < x) : 0 < (l : Multiset ℤ).lcm := by
  refine lt_of_le_of_ne (lcm_nonneg l) fun he => ?_
  have h0 : (0 : ℤ) ∈ (l : Multiset ℤ) := (Multiset.lcm_eq_zero_iff _).mp he.symm
  exact absurd (h 0 (by simpa using h0)) (lt_irrefl 0)

theorem dvd_lcm {x : ℤ} (hx : x ∈ l) : x ∣ (l : Multiset ℤ).lcm :=
  Multiset.dvd_lcm (by simpa using hx)

theorem lcm_dvd {a : ℤ} (h : ∀ x ∈ l, x ∣ a) : (l : Multiset ℤ).lcm ∣ a :=
  Multiset.lcm_dvd.mpr (by simpa using h)

/-- A positive common multiple is at least the least common multiple. -/
theorem lcm_le {a : ℤ} (ha : 0 < a) (h : ∀ x ∈ l, x ∣ a) : (l : Multiset ℤ).lcm ≤ a :=
  Int.le_of_dvd ha (lcm_dvd h)

end Divisors
end W1Retap.Multiples
