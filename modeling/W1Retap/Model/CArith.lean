import W1Retap.Model.Machine
import Mathlib

/-!
# C integers

`int` has 32 bits in two's complement and `unsigned long` 64 bits. Division
truncates; a zero divisor, or a quotient that is no `int`, stops the process.
-/
namespace W1Retap

def intMin : Int := -2 ^ 31
def intMax : Int := 2 ^ 31 - 1

/-- `a / b` -/
def cDiv (a b : Int) : Except Stop Int :=
  if b = 0 then .error .divByZero
  else if a = intMin ∧ b = -1 then .error .intOverflow
  else .ok (a.tdiv b)

/-- `a % b` -/
def cMod (a b : Int) : Except Stop Int :=
  if b = 0 then .error .divByZero
  else if a = intMin ∧ b = -1 then .error .intOverflow
  else .ok (a.tmod b)

/-- `t / b` and `t % b` for a `time_t`, which is far from the limits of its type. -/
def timeDiv (t b : Int) : Except Stop Int := if b = 0 then .error .divByZero else .ok (t.tdiv b)

def timeMod (t b : Int) : Except Stop Int := if b = 0 then .error .divByZero else .ok (t.tmod b)

/-- `(int) x` for a double; a value out of range is undefined. -/
def doubleToInt (x : ℚ) : Except Stop Int :=
  let i := if 0 ≤ x then x.floor else x.ceil
  if intMin ≤ i ∧ i ≤ intMax then .ok i else .error .intOverflow

/-- The `int` that a sum leaves on a two's complement machine. -/
def wrapInt (a : Int) : Int := a.bmod (2 ^ 32)

/-- The conversion of an `int` to `unsigned long`. -/
def toUnsignedLong (a : Int) : ℕ := (a % 2 ^ 64).toNat

theorem cDiv_ok {a b : Int} (hb : b ≠ 0) (h : ¬ (a = intMin ∧ b = -1)) :
    cDiv a b = .ok (a.tdiv b) := by rw [cDiv, if_neg hb, if_neg h]

theorem cMod_ok {a b : Int} (hb : b ≠ 0) (h : ¬ (a = intMin ∧ b = -1)) :
    cMod a b = .ok (a.tmod b) := by rw [cMod, if_neg hb, if_neg h]

theorem cDiv_pos {a b : Int} (hb : 0 < b) : cDiv a b = .ok (a.tdiv b) :=
  cDiv_ok (by omega) (by omega)

theorem cMod_pos {a b : Int} (hb : 0 < b) : cMod a b = .ok (a.tmod b) :=
  cMod_ok (by omega) (by omega)

/-- A nonzero number divided by itself never overflows. -/
theorem cDiv_self {a : Int} (ha : a ≠ 0) : cDiv a a = .ok 1 := by
  rw [cDiv_ok ha (by unfold intMin; omega), Int.tdiv_self ha]

theorem cMod_self {a : Int} (ha : a ≠ 0) : cMod a a = .ok 0 := by
  rw [cMod_ok ha (by unfold intMin; omega), Int.tmod_self]

theorem cDiv_zero (a : Int) : cDiv a 0 = .error .divByZero := by simp [cDiv]

theorem wrapInt_le (a : Int) : wrapInt a ≤ intMax := by
  have h := Int.bmod_lt (x := a) (m := 2 ^ 32) (by decide)
  unfold wrapInt intMax
  omega

theorem wrapInt_of_range {a : Int} (h₀ : 0 ≤ a) (h₁ : a ≤ intMax) : wrapInt a = a := by
  unfold intMax at h₁
  exact Int.bmod_eq_of_le (by omega) (by omega)

theorem wrapInt_eq_iff (t : Int) : wrapInt t = t ↔ -2 ^ 31 ≤ t ∧ t < 2 ^ 31 := by
  have h₁ := Int.bmod_lt (x := t) (m := 2 ^ 32) (by decide)
  have h₂ := Int.le_bmod (x := t) (m := 2 ^ 32) (by decide)
  constructor
  · intro h
    unfold wrapInt at h
    omega
  · rintro ⟨hlow, hhigh⟩
    exact Int.bmod_eq_of_le (by omega) (by omega)

theorem wrapInt_emod (a : Int) : wrapInt a % 2 ^ 32 = a % 2 ^ 32 := by
  have h := Int.bmod_emod (x := a) (m := 2 ^ 32)
  exact_mod_cast h

/-- The only `int` divisible by `2 ^ 32` is zero. -/
theorem wrapInt_eq_zero {a : Int} (h : (2 ^ 32 : Int) ∣ a) : wrapInt a = 0 := by
  have h₁ := Int.bmod_lt (x := a) (m := 2 ^ 32) (by decide)
  have h₂ := Int.le_bmod (x := a) (m := 2 ^ 32) (by decide)
  have h₃ := wrapInt_emod a
  unfold wrapInt at h₃ ⊢
  omega

theorem toUnsignedLong_of_range {a : Int} (h₀ : 0 ≤ a) (h₁ : a < 2 ^ 64) :
    toUnsignedLong a = a.toNat := by
  rw [toUnsignedLong, Int.emod_eq_of_lt h₀ h₁]

end W1Retap
