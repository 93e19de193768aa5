import Mathlib

/-!
# Words in memory

Numbers as bytes, the least significant first, and the binary formats of floating point
numbers.
-/
namespace W1Retap.Words

/-! ## Bytes -/

/-- The lowest `k` bytes of a number. -/
def leBytes : ℕ → ℕ → List UInt8
  | 0, _ => []
  | k + 1, n => UInt8.ofNat n :: leBytes k (n / 256)

def leVal (bs : List UInt8) : ℕ := bs.foldr (fun b n => b.toNat + 256 * n) 0

@[simp] theorem length_leBytes (k n : ℕ) : (leBytes k n).length = k := by
  induction k generalizing n with
  | zero => rfl
  | succ k ih => rw [leBytes, List.length_cons, ih]

theorem leVal_leBytes (k n : ℕ) : leVal (leBytes k n) = n % 256 ^ k := by
  induction k generalizing n with
  | zero => simp [leBytes, leVal, Nat.mod_one]
  | succ k ih =>
    have hcons : leVal (leBytes (k + 1) n) =
        (UInt8.ofNat n).toNat + 256 * leVal (leBytes k (n / 256)) := rfl
    have hbyte : (UInt8.ofNat n).toNat = n % 256 := UInt8.toNat_ofNat'
    rw [hcons, ih, hbyte, pow_succ', Nat.mod_mul]

theorem take_leBytes {j k : ℕ} (h : j ≤ k) (n : ℕ) : (leBytes k n).take j = leBytes j n := by
  induction j generalizing k n with
  | zero => rfl
  | succ j ih =>
    obtain ⟨k, rfl⟩ := Nat.exists_eq_add_of_lt (Nat.lt_of_succ_le h)
    rw [show j + k + 1 = (j + k) + 1 from rfl, leBytes, leBytes, List.take_succ_cons,
      ih (Nat.le_add_right j k)]

/-! ## Floating point numbers -/

/-- A binary format: a sign, `exp` bits of exponent and `frac` bits of fraction. -/
structure Format where
  exp : ℕ
  frac : ℕ

def single : Format := ⟨8, 23⟩

def double : Format := ⟨11, 52⟩

def Format.bias (f : Format) : ℕ := 2 ^ (f.exp - 1) - 1

/-- The number of a word, if it is finite. -/
def Format.decode (f : Format) (w : ℕ) : Option ℚ :=
  let sgn : ℚ := if w / 2 ^ (f.exp + f.frac) % 2 = 1 then -1 else 1
  let e := w / 2 ^ f.frac % 2 ^ f.exp
  let m := w % 2 ^ f.frac
  if e = 2 ^ f.exp - 1 then none
  else if e = 0 then some (sgn * m * 2 ^ (1 - f.bias - f.frac : Int))
  else some (sgn * (2 ^ f.frac + m : ℕ) * 2 ^ (e - f.bias - f.frac : Int))

/-- The numbers of the format. -/
def Format.Has (f : Format) (x : ℚ) : Prop :=
  ∃ m e : Int, m.natAbs < 2 ^ (f.frac + 1) ∧ 1 - (f.bias : Int) - f.frac ≤ e ∧
    e ≤ (f.bias : Int) - f.frac ∧ x = m * 2 ^ e

/-- The word of a number of the format. -/
def Format.encode (f : Format) (x : ℚ) : ℕ :=
  if x = 0 then 0
  else
    let e := max (Int.log 2 |x|) (1 - f.bias)
    (if x < 0 then 2 ^ (f.exp + f.frac) else 0) + (e + f.bias - 1).toNat * 2 ^ f.frac +
      ⌊|x| * 2 ^ (f.frac - e)⌋.toNat

example : double.encode (-43 / 2) = 0xC035800000000000 ∧
    double.decode 0xC035800000000000 = some (-43 / 2) ∧
    single.encode (-43 / 2) = 0xC1AC0000 ∧ single.decode 0xC1AC0000 = some (-43 / 2) ∧
    single.encode (2 ^ (-149 : Int)) = 1 ∧ single.decode 1 = some (2 ^ (-149 : Int)) := by
  decide +kernel

section
variable {f : Format} {x : ℚ}

/-- Where the bits of the fraction end up. -/
theorem encode_scaled (hx : x ≠ 0) (hlog : 1 - (f.bias : Int) ≤ Int.log 2 |x|) {n : ℕ}
    (hn : |x| * 2 ^ (f.frac - Int.log 2 |x|) = n) :
    ∃ s e : ℕ, f.encode x = s * 2 ^ (f.exp + f.frac) + e * 2 ^ f.frac + n := by
  refine ⟨if x < 0 then 1 else 0, (Int.log 2 |x| + f.bias - 1).toNat, ?_⟩
  have hfloor : ⌊|x| * 2 ^ (f.frac - Int.log 2 |x|)⌋.toNat = n := by
    rw [hn, Int.floor_natCast, Int.toNat_natCast]
  rw [Format.encode, if_neg hx]
  simp only [max_eq_left hlog, hfloor]
  split_ifs <;> simp

end

/-- The exponent of a natural number times a power of two. -/
theorem log_natCast_mul_zpow {a : ℕ} (ha : a ≠ 0) (e : Int) :
    Int.log 2 ((a : ℚ) * 2 ^ e) = Nat.log 2 a + e := by
  have hpos : (0 : ℚ) < (a : ℚ) * 2 ^ e := by positivity
  have hzpow : (0 : ℚ) < 2 ^ e := by positivity
  apply le_antisymm
  · have hlt : (a : ℚ) < 2 ^ (Nat.log 2 a + 1) := by
      exact_mod_cast Nat.lt_pow_succ_log_self (by norm_num) a
    have hbound : (a : ℚ) * 2 ^ e < ((2 : ℕ) : ℚ) ^ (Nat.log 2 a + 1 + e : Int) := by
      calc (a : ℚ) * 2 ^ e < 2 ^ (Nat.log 2 a + 1) * 2 ^ e := by gcongr
        _ = ((2 : ℕ) : ℚ) ^ (Nat.log 2 a + 1 + e : Int) := by
          rw [Nat.cast_ofNat, zpow_add₀ (by norm_num)]
          norm_cast
    have := (Int.lt_zpow_iff_log_lt (by norm_num) hpos).mp hbound
    omega
  · have hle : (2 : ℚ) ^ Nat.log 2 a ≤ a := by exact_mod_cast Nat.pow_log_le_self 2 ha
    apply (Int.zpow_le_iff_le_log (by norm_num) hpos).mp
    calc ((2 : ℕ) : ℚ) ^ (Nat.log 2 a + e : Int) = 2 ^ Nat.log 2 a * 2 ^ e := by
          rw [Nat.cast_ofNat, zpow_add₀ (by norm_num)]
          norm_cast
      _ ≤ (a : ℚ) * 2 ^ e := by gcongr

/-- Sign and exponent of a double are in its high half. -/
theorem low_double {x : ℚ} (hx : x ≠ 0) (hlog : -1022 ≤ Int.log 2 |x|) {n : ℕ}
    (hn : |x| * 2 ^ (52 - Int.log 2 |x|) = n) : double.encode x % 2 ^ 32 = n % 2 ^ 32 := by
  obtain ⟨s, e, hencode⟩ := encode_scaled (f := double) hx hlog hn
  have hencode : double.encode x = s * 2 ^ 63 + e * 2 ^ 52 + n := hencode
  omega

/-- The low half of a double that is a power of two. -/
theorem low_zpow {x : ℚ} {j : Int} (h : |x| = 2 ^ j) (hj : -1022 ≤ j) :
    double.encode x % 2 ^ 32 = 0 := by
  have hx : x ≠ 0 := by
    rintro rfl
    rw [abs_zero] at h
    exact absurd h.symm (by positivity)
  have hlog : Int.log 2 |x| = j := by
    rw [h]
    exact_mod_cast Int.log_zpow (R := ℚ) (b := 2) (by norm_num) j
  have hn : |x| * 2 ^ (52 - Int.log 2 |x|) = (2 ^ 52 : ℕ) := by
    rw [hlog, h, ← zpow_add₀ (by norm_num), show j + (52 - j) = (52 : ℕ) by omega, zpow_natCast]
    norm_num
  rw [low_double hx (hlog ▸ hj) hn]
  norm_num

/-- The low half of a double that fits into a float: three bits of the fraction are there. -/
theorem low_single {x : ℚ} (h : single.Has x) : ∃ k < 8, double.encode x % 2 ^ 32 = k * 2 ^ 29 := by
  obtain ⟨m, e, hm, hlow, hhigh, rfl⟩ := h
  have hlow : -149 ≤ e := hlow
  by_cases hzero : m = 0
  · exact ⟨0, by norm_num, by simp [hzero, Format.encode]⟩
  have ha : m.natAbs ≠ 0 := Int.natAbs_ne_zero.mpr hzero
  have habs : |(m : ℚ) * 2 ^ e| = (m.natAbs : ℚ) * 2 ^ e := by
    rw [abs_mul, abs_of_pos (a := (2 : ℚ) ^ e) (by positivity), Nat.cast_natAbs, Int.cast_abs]
  have hx : (m : ℚ) * 2 ^ e ≠ 0 := mul_ne_zero (Int.cast_ne_zero.mpr hzero) (by positivity)
  have hl : Nat.log 2 m.natAbs ≤ 23 := Nat.le_of_lt_succ (Nat.log_lt_of_lt_pow ha hm)
  have hlog := log_natCast_mul_zpow ha e
  rw [← habs] at hlog
  have hn : |(m : ℚ) * 2 ^ e| * 2 ^ (52 - Int.log 2 |(m : ℚ) * 2 ^ e|) =
      (m.natAbs * 2 ^ (23 - Nat.log 2 m.natAbs) * 2 ^ 29 : ℕ) := by
    have hexp : e + (52 - (Nat.log 2 m.natAbs + e)) = ((23 - Nat.log 2 m.natAbs + 29 : ℕ) : Int) := by
      omega
    rw [hlog, habs, mul_assoc, ← zpow_add₀ (by norm_num), hexp, zpow_natCast, pow_add]
    push_cast
    ring
  refine ⟨m.natAbs * 2 ^ (23 - Nat.log 2 m.natAbs) % 8, Nat.mod_lt _ (by norm_num), ?_⟩
  rw [low_double hx (by omega) hn]
  omega

theorem decode_low : ∀ k < 8, single.decode (k * 2 ^ 29) = some 0 ∨
    ∃ j ∈ [-63, 1, 65], single.decode (k * 2 ^ 29) = some (2 ^ (j : Int)) ∨
      single.decode (k * 2 ^ 29) = some (-2 ^ j) := by
  decide +kernel

theorem decode_zero : single.decode 0 = some 0 := by
  decide +kernel

/-- A float that is read where a double is stored is right only for zero. -/
theorem decode_low_iff {x : ℚ} (h : single.Has x) :
    single.decode (double.encode x % 2 ^ 32) = some x ↔ x = 0 := by
  constructor
  · intro hread
    by_contra hx
    obtain ⟨k, hk, hlow⟩ := low_single h
    have hpow : ∃ j : Int, -1022 ≤ j ∧ |x| = 2 ^ j := by
      rw [hlow] at hread
      rcases decode_low k hk with hzero | ⟨j, hj, hpos | hneg⟩
      · exact absurd (Option.some.inj (hread.symm.trans hzero)) hx
      · have hxj := Option.some.inj (hread.symm.trans hpos)
        refine ⟨j, by simp only [List.mem_cons, List.not_mem_nil, or_false] at hj; omega, ?_⟩
        rw [hxj, abs_of_pos (by positivity)]
      · have hxj := Option.some.inj (hread.symm.trans hneg)
        refine ⟨j, by simp only [List.mem_cons, List.not_mem_nil, or_false] at hj; omega, ?_⟩
        rw [hxj, abs_neg, abs_of_pos (by positivity)]
    obtain ⟨j, hj, habs⟩ := hpow
    rw [low_zpow habs hj] at hread
    exact hx (Option.some.inj (hread.symm.trans decode_zero))
  · rintro rfl
    exact decode_zero

end W1Retap.Words
