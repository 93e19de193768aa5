import W1Retap.Model.CArith
import W1Retap.Support.Multiples

/-!
# `w1_lcm`, `w1_gcd` and `w1_verify_intervals`

The two passes over the devices, the search for a common multiple and the gcd are
written as the loops of the source. The search gets as many rounds as there are
`int` values; `w1LcmLoop_total` shows that it never needs more.
-/
namespace W1Retap

open Programs Multiples

/-! ## The source -/

/-- The loop of `w1_lcm` over `i`, with the rounds it may still make. The count `c` of
entries that divide `i` decides whether the search is over. -/
def w1LcmLoop (a : List Int) (amax : Int) (prod : ℕ) : ℕ → Int → Except Stop Int
  | 0, _ => .error .running
  | rounds + 1, i =>
    if toUnsignedLong i ≤ prod then do
      let rs ← a.mapM (cMod i)
      if rs.countP (· = 0) = a.length then .ok i
      else w1LcmLoop a amax prod rounds (wrapInt (i + amax))
    else .ok (-1)

/-- The product of all entries, as an `unsigned long`. -/
def wrappedProd (a : List Int) : ℕ :=
  a.foldl (fun prod x => prod * toUnsignedLong x % 2 ^ 64) 1

/-- `w1_lcm`; it reads `a[0]` before it looks at `n`. -/
def w1Lcm (a : List Int) : Except Stop Int :=
  match a with
  | [] => .error .outOfBounds
  | a₀ :: _ =>
    let amax := a.foldl max a₀
    w1LcmLoop a amax (wrappedProd a) (2 ^ 32) amax

/-- `_w1_gcd` -/
def w1GcdPair (m n : Int) : Except Stop Int :=
  if n = 0 then .ok m
  else if m = intMin ∧ n = -1 then .error .intOverflow
  else w1GcdPair n (m.tmod n)
termination_by n.natAbs
decreasing_by
  rw [Int.natAbs_tmod]
  exact Nat.mod_lt _ (by omega)

def w1Gcd (a : List Int) : Except Stop Int := a.foldlM w1GcdPair 0

/-- What the first pass of `w1_verify_intervals` makes of a requested interval. -/
def clampIntvl (delay r : Int) : Int :=
  if r ≠ 0 then
    let raised := if r < w1MinIntvl then w1MinIntvl else r
    if raised > delay then delay else raised
  else delay

/-- The first pass: clamp every interval and keep the least in `mint`. -/
def clampLoop (delay : Int) : Int → List Device → Int × List Device
  | mint, [] => (mint, [])
  | mint, d :: ds =>
    let d := { d with intvl := clampIntvl delay d.intvl }
    let r := clampLoop delay (if d.intvl < mint then d.intvl else mint) ds
    (r.1, d :: r.2)

/-- The second pass: round an interval down to a multiple of the new delay. -/
def roundIntvl (delay : Int) (d : Device) : Except Stop Device := do
  let q ← cDiv d.intvl delay
  let intvl := q * delay
  return { d with intvl := if intvl = 0 then delay else intvl }

def w1VerifyIntervals (w1 : DevList) : Except Stop DevList := do
  let clamped := clampLoop w1.delay w1.delay w1.devs
  let devs ← clamped.2.mapM (roundIntvl clamped.1)
  let intvls := devs.map (·.intvl)
  let cycle ← w1Lcm intvls
  let delay ← w1Gcd intvls
  return { w1 with devs, cycle, delay }

/-! ## Requested and adjusted intervals -/

/-- The least clamped request: the tick of the schedule. -/
def tick (delay : Int) (rs : List Int) : Int := (rs.map (clampIntvl delay)).foldl min delay

/-- A clamped request, rounded down to a multiple of the tick. -/
def adjust (delay : Int) (rs : List Int) (r : Int) : Int :=
  (clampIntvl delay r).tdiv (tick delay rs) * tick delay rs

section Clamping
variable {delay r : Int} {rs : List Int}

theorem clampIntvl_le : clampIntvl delay r ≤ delay := by
  simp only [clampIntvl]
  split_ifs <;> omega

theorem clampIntvl_pos (hd : 1 ≤ delay) : 1 ≤ clampIntvl delay r := by
  simp only [clampIntvl, w1MinIntvl]
  split_ifs <;> omega

theorem clampIntvl_of_neg (hd : delay < 0) : clampIntvl delay r = delay := by
  simp only [clampIntvl, w1MinIntvl]
  split_ifs <;> omega

theorem tick_le_clamp (hr : r ∈ rs) : tick delay rs ≤ clampIntvl delay r :=
  foldl_min_le_mem _ (List.mem_map_of_mem hr)

theorem tick_pos (rs : List Int) (hd : 1 ≤ delay) : 1 ≤ tick delay rs := by
  refine le_foldl_min hd fun x hx => ?_
  obtain ⟨r, -, rfl⟩ := List.mem_map.mp hx
  exact clampIntvl_pos hd

theorem tick_le : tick delay rs ≤ delay := foldl_min_le_init _ _

/-- Some device sets the tick. -/
theorem exists_clamp_eq_tick (delay : Int) (hrs : rs ≠ []) :
    ∃ r ∈ rs, clampIntvl delay r = tick delay rs := by
  have hmem : tick delay rs ∈ rs.map (clampIntvl delay) := by
    refine foldl_min_mem (by simpa using hrs) fun x hx => ?_
    obtain ⟨r, -, rfl⟩ := List.mem_map.mp hx
    exact clampIntvl_le
  exact List.mem_map.mp hmem

theorem tick_of_neg (hd : delay < 0) : tick delay rs = delay := by
  rcases foldl_min_eq_or_mem (rs.map (clampIntvl delay)) delay with h | h
  · exact h
  · obtain ⟨r, -, hr⟩ := List.mem_map.mp h
    exact hr.symm.trans (clampIntvl_of_neg hd)

theorem tick_ne_zero (rs : List Int) (hd : delay ≠ 0) : tick delay rs ≠ 0 := by
  rcases lt_or_gt_of_ne hd with h | h
  · rw [tick_of_neg h]
    exact hd
  · have := tick_pos rs (show 1 ≤ delay from h)
    omega

theorem adjust_of_neg (hd : delay < 0) : adjust delay rs r = delay := by
  rw [adjust, clampIntvl_of_neg hd, tick_of_neg hd, Int.tdiv_self (by omega), Int.one_mul]

/-- A positive delay rounds with the usual integer division. -/
theorem adjust_eq (hd : 1 ≤ delay) :
    adjust delay rs r = clampIntvl delay r / tick delay rs * tick delay rs := by
  have := clampIntvl_pos (r := r) hd
  rw [adjust, Int.tdiv_eq_ediv_of_nonneg (by omega)]

theorem tick_dvd_adjust : tick delay rs ∣ adjust delay rs r := Int.dvd_mul_left _ _

theorem adjust_pos (hd : 1 ≤ delay) (hr : r ∈ rs) : 0 < adjust delay rs r := by
  rw [adjust_eq hd]
  exact ediv_mul_pos (by have := tick_pos rs hd; omega) (tick_le_clamp hr)

theorem adjust_ne_zero (hd : delay ≠ 0) (hr : r ∈ rs) : adjust delay rs r ≠ 0 := by
  rcases lt_or_gt_of_ne hd with h | h
  · rw [adjust_of_neg h]
    exact hd
  · have := adjust_pos (show 1 ≤ delay from h) hr
    omega

theorem adjust_le (hd : 1 ≤ delay) : adjust delay rs r ≤ clampIntvl delay r := by
  rw [adjust_eq hd]
  have := tick_pos rs hd
  exact Int.ediv_mul_le _ (by omega)

theorem lt_adjust (hd : 1 ≤ delay) :
    clampIntvl delay r - tick delay rs < adjust delay rs r := by
  rw [adjust_eq hd]
  exact sub_lt_ediv_mul (by have := tick_pos rs hd; omega)

theorem tick_mem_adjust (hd : delay ≠ 0) (hrs : rs ≠ []) :
    tick delay rs ∈ rs.map (adjust delay rs) := by
  obtain ⟨r, hr, he⟩ := exists_clamp_eq_tick delay hrs
  refine List.mem_map.mpr ⟨r, hr, ?_⟩
  rw [adjust, he, Int.tdiv_self (tick_ne_zero rs hd), Int.one_mul]

end Clamping

/-! ## The two passes -/

theorem clampLoop_eq (delay mint : Int) (ds : List Device) :
    clampLoop delay mint ds =
      ((ds.map fun d => clampIntvl delay d.intvl).foldl min mint,
        ds.map fun d => { d with intvl := clampIntvl delay d.intvl }) := by
  induction ds generalizing mint with
  | nil => rfl
  | cons d ds ih =>
    simp only [clampLoop, ih, List.map_cons, List.foldl_cons]
    congr 2
    rcases lt_or_ge (clampIntvl delay d.intvl) mint with h | h
    · rw [if_pos h, min_eq_right h.le]
    · rw [if_neg (not_lt.mpr h), min_eq_left h]

/-- The devices after both passes. -/
def adjustDevs (delay : Int) (ds : List Device) : List Device :=
  ds.map fun d => { d with intvl := adjust delay (ds.map (·.intvl)) d.intvl }

@[simp] theorem adjustDevs_intvl (delay : Int) (ds : List Device) :
    (adjustDevs delay ds).map (·.intvl) =
      (ds.map (·.intvl)).map (adjust delay (ds.map (·.intvl))) := by
  simp [adjustDevs]

/-- With a nonzero delay the passes go through; the correction of a zero interval is
never needed. -/
theorem passes_ok {delay : Int} (hd : delay ≠ 0) (ds : List Device) :
    (clampLoop delay delay ds).2.mapM (roundIntvl (clampLoop delay delay ds).1) =
      .ok (adjustDevs delay ds) := by
  have htick : (clampLoop delay delay ds).1 = tick delay (ds.map (·.intvl)) := by
    rw [clampLoop_eq, tick, List.map_map]
    rfl
  have hne := tick_ne_zero (ds.map (·.intvl)) hd
  rw [htick, clampLoop_eq]
  set m := tick delay (ds.map (·.intvl))
  rw [mapM_ok (g := fun d => { d with intvl := d.intvl.tdiv m * m })]
  · rw [List.map_map, adjustDevs]
    rfl
  · intro d hdm
    obtain ⟨e, he, rfl⟩ := List.mem_map.mp hdm
    have hadj := adjust_ne_zero hd (List.mem_map_of_mem (f := (·.intvl)) he)
    have hdiv : cDiv (clampIntvl delay e.intvl) m = .ok ((clampIntvl delay e.intvl).tdiv m) := by
      rcases lt_or_gt_of_ne hd with h | h
      · have hm : m = delay := tick_of_neg h
        rw [clampIntvl_of_neg h, hm, cDiv_self hd, Int.tdiv_self hd]
      · exact cDiv_pos (tick_pos _ (show 1 ≤ delay from h))
    simp only [roundIntvl, hdiv]
    change Except.ok _ = Except.ok _
    rw [if_neg (show (clampIntvl delay e.intvl).tdiv m * m ≠ 0 from hadj)]

/-- `w1_verify_intervals` looks at the devices and the delay only. -/
theorem w1VerifyIntervals_congr (w1 : DevList) :
    w1VerifyIntervals w1 = (w1VerifyIntervals { devs := w1.devs, delay := w1.delay }).map
      fun w => { w1 with devs := w.devs, cycle := w.cycle, delay := w.delay } := by
  unfold w1VerifyIntervals
  cases hm : (clampLoop w1.delay w1.delay w1.devs).2.mapM
      (roundIntvl (clampLoop w1.delay w1.delay w1.devs).1) with
  | error e => simp [bind, Except.bind, Except.map, hm]
  | ok devs =>
    cases hl : w1Lcm (devs.map (·.intvl)) with
    | error e => simp [bind, Except.bind, Except.map, hm, hl]
    | ok cycle =>
      cases hg : w1Gcd (devs.map (·.intvl)) with
      | error e => simp [bind, Except.bind, Except.map, hm, hl, hg]
      | ok delay => simp [bind, Except.bind, Except.map, hm, hl, hg, pure, Except.pure]

/-! ## The gcd -/

theorem w1GcdPair_of_dvd {m n : Int} (hn : n ≠ 0) (hd : n ∣ m) (h : ¬ (m = intMin ∧ n = -1)) :
    w1GcdPair m n = .ok n := by
  rw [w1GcdPair, if_neg hn, if_neg h, Int.tmod_eq_zero_of_dvd hd, w1GcdPair, if_pos rfl]

/-- On numbers that are not negative the recursion computes their gcd. -/
theorem w1GcdPair_ok {m n : Int} (hm : 0 ≤ m) (hn : 0 ≤ n) :
    w1GcdPair m n = .ok (GCDMonoid.gcd m n) := by
  rw [← Int.coe_gcd]
  induction hk : n.natAbs using Nat.strong_induction_on generalizing m n with
  | _ k ih =>
    rw [w1GcdPair]
    split_ifs with h₀ h₁
    · rw [h₀, Int.gcd_zero_right, Int.natAbs_of_nonneg hm]
    · omega
    · have hlt : (m.tmod n).natAbs < k := by
        rw [Int.natAbs_tmod, ← hk]
        exact Nat.mod_lt _ (by omega)
      rw [ih _ hlt hn (Int.tmod_nonneg _ hm) rfl]
      have hrec : Int.gcd n (m.tmod n) = Int.gcd m n := by
        rw [Int.gcd_def, Int.gcd_def, Int.natAbs_tmod, Nat.gcd_comm, ← Nat.gcd_rec, Nat.gcd_comm]
      rw [hrec]

theorem foldlM_gcd_ok {a : List Int} {s : Int} (hs : 0 ≤ s) (ha : ∀ x ∈ a, 0 ≤ x) :
    a.foldlM w1GcdPair s = .ok (GCDMonoid.gcd s (a : Multiset ℤ).gcd) := by
  induction a generalizing s with
  | nil =>
    have : GCDMonoid.gcd s ((([] : List ℤ) : Multiset ℤ).gcd) = s := by
      rw [Multiset.coe_nil, Multiset.gcd_zero, gcd_zero_right, Int.normalize_of_nonneg hs]
    rw [this]
    rfl
  | cons x a ih =>
    have hx := ha x (by simp)
    have hg : 0 ≤ GCDMonoid.gcd s x := by
      rw [← Int.coe_gcd]
      exact Int.natCast_nonneg _
    rw [List.foldlM_cons, w1GcdPair_ok hs hx]
    change a.foldlM w1GcdPair (GCDMonoid.gcd s x) = _
    rw [ih hg fun y hy => ha y (by simp [hy]), gcd_assoc, ← Multiset.cons_coe, Multiset.gcd_cons]

/-- `w1_gcd` of positive numbers is their greatest common divisor. -/
theorem w1Gcd_ok {a : List Int} (ha : ∀ x ∈ a, 0 < x) :
    w1Gcd a = .ok (a : Multiset ℤ).gcd := by
  rw [w1Gcd, foldlM_gcd_ok le_rfl fun x hx => (ha x hx).le, gcd_zero_left, Multiset.normalize_gcd]

/-- `w1_gcd` of copies of one number is that number, whatever its sign. -/
theorem w1Gcd_const {a : List Int} {x : Int} (hne : a ≠ []) (hx : x ≠ 0)
    (ha : ∀ y ∈ a, y = x) : w1Gcd a = .ok x := by
  have hloop : ∀ b : List Int, (∀ y ∈ b, y = x) → b.foldlM w1GcdPair x = .ok x := by
    intro b
    induction b with
    | nil => exact fun _ => rfl
    | cons y b ih =>
      intro hb
      obtain rfl := hb y (by simp)
      rw [List.foldlM_cons, w1GcdPair_of_dvd hx dvd_rfl (by unfold intMin; omega)]
      exact ih fun z hz => hb z (by simp [hz])
  cases a with
  | nil => exact absurd rfl hne
  | cons y b =>
    obtain rfl := ha y (by simp)
    rw [w1Gcd, List.foldlM_cons, w1GcdPair_of_dvd hx (dvd_zero _) (by unfold intMin; omega)]
    exact hloop b fun z hz => ha z (by simp [hz])

end W1Retap
