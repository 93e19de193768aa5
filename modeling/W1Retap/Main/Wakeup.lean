import W1Retap.Main.Loop

/-!
# The two sleeps

With `clock_nanosleep` the main loop sleeps until a second. Without it, it asks `nanosleep`
for the time from now to a fifth of a second after that.
-/
namespace W1Retap

/-- `struct timespec` -/
structure Timespec where
  sec : Int
  nsec : Int
  deriving DecidableEq, Repr

def nanosecs : Int := 1000000000

/-- `nanosub` -/
def nanosub (a b : Timespec) : Timespec :=
  let sec := a.sec - b.sec
  let nsec := a.nsec - b.nsec
  if nsec < 0 then ⟨sec - 1, nsec + nanosecs⟩ else ⟨sec, nsec⟩

/-- The request for `nanosleep`, at `usec` microseconds after the second `now`. -/
def sleepRequest (delay now usec : Int) : Except Stop Timespec := do
  let ticks ← timeDiv now delay
  return nanosub ⟨delay * (1 + ticks), 200 * 1000 * 1000⟩ ⟨now, usec * 1000⟩

namespace Timespec

/-- The time in nanoseconds. -/
def nanos (t : Timespec) : Int := t.sec * nanosecs + t.nsec

def Normalised (t : Timespec) : Prop := 0 ≤ t.nsec ∧ t.nsec < nanosecs

end Timespec

/-! ## Differences -/

section
variable {a b : Timespec}

/-- The borrow does not change the difference. -/
theorem nanosub_nanos : (nanosub a b).nanos = a.nanos - b.nanos := by
  unfold nanosub
  by_cases h : a.nsec - b.nsec < 0
  · rw [if_pos h]
    simp only [Timespec.nanos, nanosecs]
    omega
  · rw [if_neg h]
    simp only [Timespec.nanos, nanosecs]
    omega

theorem nanosub_normalised (ha : a.Normalised) (hb : b.Normalised) : (nanosub a b).Normalised := by
  obtain ⟨ha₀, ha₁⟩ := ha
  obtain ⟨hb₀, hb₁⟩ := hb
  unfold nanosub
  by_cases h : a.nsec - b.nsec < 0
  · rw [if_pos h]
    constructor
    · change 0 ≤ a.nsec - b.nsec + nanosecs
      omega
    · change a.nsec - b.nsec + nanosecs < nanosecs
      omega
  · rw [if_neg h]
    constructor
    · exact not_lt.mp h
    · change a.nsec - b.nsec < nanosecs
      omega

/-- The second that a time lies in. -/
theorem nanos_div (ha : a.Normalised) : a.nanos / nanosecs = a.sec := by
  obtain ⟨ha₀, ha₁⟩ := ha
  unfold Timespec.nanos nanosecs at *
  omega

end

/-! ## The tick -/

section
variable {delay now : Int}

theorem nextWake_eq (hdelay : 1 ≤ delay) : nextWake delay now = .ok (now.tdiv delay * delay + delay) := by
  rw [nextWake, timeDiv, if_neg (by omega)]
  rfl

theorem sleepRequest_eq (usec : Int) (hdelay : 1 ≤ delay) : sleepRequest delay now usec =
    .ok (nanosub ⟨now.tdiv delay * delay + delay, 200 * 1000 * 1000⟩ ⟨now, usec * 1000⟩) := by
  have hticks : delay * (1 + now.tdiv delay) = now.tdiv delay * delay + delay := by ring
  rw [sleepRequest, timeDiv, if_neg (by omega)]
  change Except.ok _ = _
  rw [hticks]

/-- The next multiple of the delay. -/
theorem isLeast_nextWake (hdelay : 1 ≤ delay) (hnow : 0 ≤ now) :
    IsLeast {t | delay ∣ t ∧ now < t} (now.tdiv delay * delay + delay) := by
  rw [Int.tdiv_eq_ediv_of_nonneg hnow]
  have hpos : 0 < delay := by omega
  have hsplit := Int.mul_ediv_add_emod now delay
  have hmod := Int.emod_lt_of_pos now hpos
  have hcomm := mul_comm (now / delay) delay
  constructor
  · constructor
    · exact (Dvd.intro_left (now / delay) rfl).add (dvd_refl delay)
    · omega
  · rintro t ⟨⟨k, rfl⟩, hlt⟩
    have hk : now / delay < k := by
      by_contra hle
      have hmul := mul_le_mul_of_nonneg_left (not_lt.mp hle) hpos.le
      have hnonneg := Int.emod_nonneg now hpos.ne'
      omega
    calc now / delay * delay + delay = delay * (now / delay + 1) := by ring
      _ ≤ delay * k := mul_le_mul_of_nonneg_left (by omega) hpos.le

/-- Both variants wake up in the second of the next tick, and `nanosleep` is given a
normalised and positive request. -/
theorem sleeps_agree (now usec delay : Int) (hnow : 0 ≤ now) (husec : 0 ≤ usec ∧ usec < 1000000)
    (hdelay : 1 ≤ delay) : ∃ target req, nextWake delay now = .ok target ∧
      sleepRequest delay now usec = .ok req ∧ req.Normalised ∧ 0 < req.nanos ∧
      ((⟨now, usec * 1000⟩ : Timespec).nanos + req.nanos) / nanosecs = target ∧
      IsLeast {t | delay ∣ t ∧ now < t} target := by
  have hleast := isLeast_nextWake hdelay hnow
  generalize htarget : now.tdiv delay * delay + delay = target at hleast
  let wake : Timespec := ⟨target, 200 * 1000 * 1000⟩
  let current : Timespec := ⟨now, usec * 1000⟩
  have hfifth : (0 : Int) ≤ 200 * 1000 * 1000 ∧ 200 * 1000 * 1000 < nanosecs := by decide
  have hwake : wake.Normalised := hfifth
  have hcurrent : current.Normalised := by
    constructor
    · change 0 ≤ usec * 1000
      omega
    · change usec * 1000 < nanosecs
      unfold nanosecs
      omega
  refine ⟨target, nanosub wake current, ?_, ?_, nanosub_normalised hwake hcurrent, ?_, ?_, hleast⟩
  · rw [nextWake_eq hdelay, htarget]
  · rw [sleepRequest_eq usec hdelay, htarget]
  · -- the target is at least a second ahead, and the wake-up a fifth of a second later
    have hlt : now < target := hleast.1.2
    have hnanos : wake.nanos = target * nanosecs + 200000000 := rfl
    have hcur : current.nanos = now * nanosecs + usec * 1000 := rfl
    rw [nanosub_nanos, hnanos, hcur]
    unfold nanosecs
    omega
  · rw [nanosub_nanos, add_sub_cancel]
    exact nanos_div hwake

/-- Just before a second ends the difference has to borrow. -/
theorem sleeps_agree_borrow : ∃ target req, nextWake 120 1000007 = .ok target ∧
    sleepRequest 120 1000007 999999 = .ok req ∧ req = ⟨72, 200001000⟩ ∧ target = 1000080 ∧
    IsLeast {t : Int | 120 ∣ t ∧ 1000007 < t} target := by
  obtain ⟨target, req, htarget, hreq, -, -, -, hleast⟩ :=
    sleeps_agree 1000007 999999 120 (by decide) (by decide) (by decide)
  have htarget' : (Except.ok 1000080 : Except Stop Int) = .ok target := htarget
  have hreq' : (Except.ok ⟨72, 200001000⟩ : Except Stop Timespec) = .ok req := hreq
  exact ⟨target, req, htarget, hreq, (Except.ok.inj hreq').symm, (Except.ok.inj htarget').symm, hleast⟩

end
end W1Retap
