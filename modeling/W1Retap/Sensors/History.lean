import W1Retap.Sensors.Validate

/-!
# Histories of one sensor

A history is any list of calls of `w1_validate` on a sensor, each with its raw value
and the `w1->logtime` of the moment. The configuration of the sensor never changes,
so what one accepted call establishes about `lval` holds until the next one.
-/
namespace W1Retap

/-- One call: the raw value stored in `s->value` and the time in `w1->logtime`. -/
structure Call where
  raw : ℚ
  logtime : Int
  deriving DecidableEq, Repr

namespace Sensor

/-- Store a raw value and validate it. -/
def present (s : Sensor) (c : Call) : Except Stop Sensor :=
  w1Validate c.logtime { s with value := c.raw }

/-- The sensor after a history, and the accepted raw values in order. -/
def validateAll (s : Sensor) : List Call → Except Stop (Sensor × List ℚ)
  | [] => .ok (s, [])
  | c :: cs => do
    let s' ← s.present c
    let r ← s'.validateAll cs
    return (r.1, if s'.valid then c.raw :: r.2 else r.2)

/-- What no call changes. -/
def config (s : Sensor) : Option CString × ℕ × ℚ × ℚ × ℚ :=
  (s.abbrv, s.flags, s.rmin, s.rmax, s.roc)

/-- `lval` lies inside the configured bounds. -/
def Bounded (s : Sensor) : Prop :=
  (s.has w1Rmin = true → s.rmin ≤ s.lval) ∧ (s.has w1Rmax = true → s.lval ≤ s.rmax)

theorem present_cases {s s' : Sensor} {c : Call} (h : s.present c = .ok s') :
    (Accepts c.logtime s c.raw ∧ s' = { s with value := c.raw }.accept c.logtime) ∨
      (¬ Accepts c.logtime s c.raw ∧ ∃ v r, s' = { s with value := c.raw }.reject v r) := by
  have hiff : Accepts c.logtime { s with value := c.raw } c.raw ↔ Accepts c.logtime s c.raw :=
    ⟨fun ⟨a, b, d, e⟩ => ⟨a, b, d, e⟩, fun ⟨a, b, d, e⟩ => ⟨a, b, d, e⟩⟩
  rw [← hiff]
  exact w1Validate_cases h

theorem present_config {s s' : Sensor} {c : Call} (h : s.present c = .ok s') :
    s'.config = s.config := by
  rcases present_cases h with ⟨-, rfl⟩ | ⟨-, v, r, rfl⟩ <;> rfl

/-- A history that starts with `c` is the call of `c` and the rest. -/
theorem validateAll_cons {s sf : Sensor} {c : Call} {cs : List Call} {acc : List ℚ} :
    s.validateAll (c :: cs) = .ok (sf, acc) ↔
      ∃ s' acc', s.present c = .ok s' ∧ s'.validateAll cs = .ok (sf, acc') ∧
        acc = if s'.valid then c.raw :: acc' else acc' := by
  rw [validateAll]
  cases hp : s.present c with
  | error e => simp [bind, Except.bind]
  | ok s' =>
    cases hr : s'.validateAll cs with
    | error e => simp [hr, bind, Except.bind]
    | ok r =>
      obtain ⟨sf', acc'⟩ := r
      simp only [bind, Except.bind, hr, pure, Except.pure, Except.ok.injEq, Prod.mk.injEq]
      constructor
      · rintro ⟨rfl, rfl⟩
        exact ⟨s', acc', rfl, hr, rfl⟩
      · rintro ⟨_, _, rfl, h, rfl⟩
        obtain ⟨rfl, rfl⟩ := Prod.mk.inj (Except.ok.inj (hr.symm.trans h))
        exact ⟨rfl, rfl⟩

theorem validateAll_config {s sf : Sensor} {cs : List Call} {acc : List ℚ}
    (h : s.validateAll cs = .ok (sf, acc)) : sf.config = s.config := by
  induction cs generalizing s acc with
  | nil =>
    obtain ⟨rfl, -⟩ := Prod.mk.inj (Except.ok.inj h)
    rfl
  | cons c cs ih =>
    obtain ⟨s', acc', hp, hr, -⟩ := validateAll_cons.mp h
    rw [ih hr, present_config hp]

theorem bounded_of_config {s s' : Sensor} (hc : s'.config = s.config)
    (h : (s.has w1Rmin = true → s.rmin ≤ s'.lval) ∧ (s.has w1Rmax = true → s'.lval ≤ s.rmax)) :
    s'.Bounded := by
  simp only [config, Prod.mk.injEq] at hc
  obtain ⟨-, hf, hmin, hmax, -⟩ := hc
  simpa only [Bounded, has, hf, hmin, hmax] using h

/-- One call keeps `lval` within the bounds, and an accepting call puts it there. -/
theorem present_bounded {s s' : Sensor} {c : Call} (h : s.present c = .ok s')
    (hs : s.Bounded ∨ s'.valid = true) : s'.Bounded := by
  rcases present_cases h with ⟨hacc, rfl⟩ | ⟨-, v, r, rfl⟩
  · exact ⟨hacc.rmin, hacc.rmax⟩
  · rcases hs with hs | hs
    · exact hs
    · simp [reject] at hs

/-- From a bounded state, or after at least one accepted reading, `lval` is bounded. -/
theorem validateAll_bounded {s sf : Sensor} {cs : List Call} {acc : List ℚ}
    (h : s.validateAll cs = .ok (sf, acc)) (hs : s.Bounded ∨ acc ≠ []) : sf.Bounded := by
  induction cs generalizing s acc with
  | nil =>
    obtain ⟨rfl, rfl⟩ := Prod.mk.inj (Except.ok.inj h)
    exact hs.resolve_right fun hne => hne rfl
  | cons c cs ih =>
    obtain ⟨s', acc', hp, hr, rfl⟩ := validateAll_cons.mp h
    by_cases hv : s'.valid = true
    · exact ih hr (Or.inl (present_bounded hp (Or.inr hv)))
    · rw [if_neg hv] at hs
      exact ih hr (hs.imp (fun hb => present_bounded hp (Or.inl hb)) id)

/-- The accepted readings of a rain gauge start at or above `lval` and never decrease. -/
theorem validateAll_sorted {s sf : Sensor} {cs : List Call} {acc : List ℚ} {a : CString}
    (ha : s.abbrv = some a) (hrgc : isRgc a = true) (h : s.validateAll cs = .ok (sf, acc)) :
    (s.lval :: acc).Pairwise (· ≤ ·) := by
  induction cs generalizing s acc with
  | nil =>
    obtain ⟨-, rfl⟩ := Prod.mk.inj (Except.ok.inj h)
    simp
  | cons c cs ih =>
    obtain ⟨s', acc', hp, hr, rfl⟩ := validateAll_cons.mp h
    have ha' : s'.abbrv = some a := by
      have := congrArg Prod.fst (present_config hp)
      exact this.trans ha
    have htail := ih ha' hr
    rcases present_cases hp with ⟨hacc, rfl⟩ | ⟨-, v, r, rfl⟩
    · have hle : s.lval ≤ c.raw := hacc.seq a ha hrgc
      have hall : ∀ x ∈ c.raw :: acc', s.lval ≤ x := by
        intro x hx
        rcases List.mem_cons.mp hx with rfl | hx
        · exact hle
        · exact hle.trans ((List.pairwise_cons.mp htail).1 x hx)
      exact List.pairwise_cons.mpr ⟨hall, htail⟩
    · exact htail

/-- A sensor with an abbreviation gets through every history. -/
theorem validateAll_total {s : Sensor} {a : CString} (ha : s.abbrv = some a) (cs : List Call) :
    ∃ r, s.validateAll cs = .ok r := by
  induction cs generalizing s with
  | nil => exact ⟨_, rfl⟩
  | cons c cs ih =>
    obtain ⟨s', hp⟩ := w1Validate_total c.logtime { s with value := c.raw } ha
    have ha' : s'.abbrv = some a := (congrArg Prod.fst (present_config hp)).trans ha
    obtain ⟨⟨sf, acc'⟩, hr⟩ := ih ha'
    exact ⟨_, validateAll_cons.mpr ⟨s', acc', hp, hr, rfl⟩⟩

/-- `w1_validate` over every history: a call that leaves the sensor valid has left the
raw value in place, inside the limits, and remembered it with its time; a call that
leaves it invalid has not touched the memory. -/
theorem validateAll_sound (s : Sensor) :
    (∀ a, s.abbrv = some a → ∀ cs, ∃ r, s.validateAll cs = .ok r) ∧
    (∀ cs s₁ acc c s₂, s.validateAll cs = .ok (s₁, acc) → s₁.present c = .ok s₂ →
      (s₂.valid = true → s₂.value = c.raw ∧ (s.has w1Rmin = true → s.rmin ≤ c.raw) ∧
        (s.has w1Rmax = true → c.raw ≤ s.rmax) ∧ s₂.lval = c.raw ∧ s₂.ltime = c.logtime) ∧
      (s₂.valid = false → s₂.lval = s₁.lval ∧ s₂.ltime = s₁.ltime)) ∧
    (∀ cs sf acc, s.validateAll cs = .ok (sf, acc) → acc ≠ [] →
      (s.has w1Rmin = true → s.rmin ≤ sf.lval) ∧ (s.has w1Rmax = true → sf.lval ≤ s.rmax)) ∧
    (∀ cs sf acc a, s.validateAll cs = .ok (sf, acc) → s.abbrv = some a → isRgc a = true →
      acc.Pairwise (· ≤ ·)) := by
  refine ⟨fun a ha cs => validateAll_total ha cs, ?_, ?_, ?_⟩
  · intro cs s₁ acc c s₂ h₁ h₂
    have hc := validateAll_config h₁
    simp only [config, Prod.mk.injEq] at hc
    obtain ⟨-, hf, hmin, hmax, -⟩ := hc
    rcases present_cases h₂ with ⟨hacc, rfl⟩ | ⟨-, v, r, rfl⟩
    · have h₃ := hacc.rmin
      have h₄ := hacc.rmax
      simp only [has, hf, hmin, hmax] at h₃ h₄
      exact ⟨fun _ => ⟨rfl, h₃, h₄, rfl, rfl⟩, fun h => by simp [accept] at h⟩
    · exact ⟨fun h => by simp [reject] at h, fun _ => ⟨rfl, rfl⟩⟩
  · intro cs sf acc h hne
    have hb := validateAll_bounded h (Or.inr hne)
    have hc := validateAll_config h
    simp only [config, Prod.mk.injEq] at hc
    obtain ⟨-, hf, hmin, hmax, -⟩ := hc
    simpa only [Bounded, has, hf, hmin, hmax] using hb
  · intro cs sf acc a h ha hrgc
    exact (List.pairwise_cons.mp (validateAll_sorted ha hrgc h)).2

end Sensor
end W1Retap
